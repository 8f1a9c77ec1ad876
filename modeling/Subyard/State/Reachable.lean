import Subyard.State.Observed

/-!
The states that the operations of the store reach from an empty directory.

* `Consistent`: what holds of the directory wherever an operation can be interrupted: a journal
  that is still there makes the records unambiguous when it is applied.
* `Quiet`: what holds between operations.
* `Call.meets`, `migrateLegacyNames_meets`: **every operation leads from a quiet directory to a
  quiet one, through consistent ones**, and a migration makes up for an interruption.
* `Reaches.consistent`: so it is along every history.
-/

namespace Subyard.State

open Text Fallible Interrupt

/-! ### What is kept -/

/-- A journal that can be applied to the records and makes them unambiguous. -/
structure Resumes (records : List ProjectRecord) (targets : List MigrationTarget) : Prop where
  valid : validateProjectNameMigration targets = .ok ()
  applies : ∀ target ∈ targets, ∀ r ∈ records, target.Applies r
  final : Unambiguous (records.map (·.migrated targets))

lemma Resumes.mono {records records' : List ProjectRecord} {targets : List MigrationTarget}
    (h : Resumes records targets) (hsub : records' ⊆ records) : Resumes records' targets where
  valid := h.valid
  applies target htarget r hr := h.applies target htarget r (hsub hr)
  final := h.final.mono (List.map_subset _ hsub)

structure Consistent (s : Disk) : Prop where
  nodup : (s.records.map (·.projectID)).Nodup
  valid : ∀ r ∈ s.records, r.validate r.projectID = .ok ()
  settled : s.journal = none → Unambiguous s.records
  resumes : ∀ targets, s.journal = some targets → Resumes s.records targets

structure Quiet (s : Disk) : Prop extends Consistent s where
  journal : s.journal = none

section Kept

variable {s t : Disk} {targets : List MigrationTarget} {record : ProjectRecord}

lemma Consistent.same (hs : Consistent s) (h : s.Same t) : Consistent t where
  nodup := by rw [h.1]; exact hs.nodup
  valid := by rw [h.1]; exact hs.valid
  settled := by rw [h.1, h.2]; exact hs.settled
  resumes := by rw [h.1, h.2]; exact hs.resumes

lemma Consistent.list (hs : Consistent s) :
    ∃ records, listUnlocked s.records = .ok records ∧ records.Perm s.records :=
  ⟨_, check_bind.mpr ⟨forM_eq_ok.mpr hs.valid, rfl⟩, List.perm_insertionSort _ _⟩

lemma Quiet.same (hs : Quiet s) (h : s.Same t) : Quiet t where
  toConsistent := hs.toConsistent.same h
  journal := h.2.trans hs.journal

lemma Quiet.unambiguous (hs : Quiet s) : Unambiguous s.records := hs.settled hs.journal

/-- Quiet are the directories without a journal, with unambiguous valid records under one id
each. -/
lemma quiet_of (hnodup : (s.records.map (·.projectID)).Nodup)
    (hvalid : ∀ r ∈ s.records, r.validate r.projectID = .ok ())
    (hnames : Unambiguous s.records) (hjournal : s.journal = none) : Quiet s where
  nodup := hnodup
  valid := hvalid
  settled _ := hnames
  resumes targets h := by
    rw [hjournal] at h
    cases h
  journal := hjournal

/-- With a journal that can be applied, a directory is consistent. -/
lemma consistent_of (hnodup : (s.records.map (·.projectID)).Nodup)
    (hvalid : ∀ r ∈ s.records, r.validate r.projectID = .ok ())
    (hjournal : s.journal = some targets) (h : Resumes s.records targets) : Consistent s where
  nodup := hnodup
  valid := hvalid
  settled hnone := by
    rw [hjournal] at hnone
    cases hnone
  resumes targets' h' := by
    obtain rfl := Option.some.inj (hjournal.symm.trans h')
    exact h

/-- What a first part of a journal makes of the records. -/
lemma Consistent.part (hs : Consistent s) (hjournal : s.journal = some targets) (k : ℕ) :
    Consistent { s with records := s.records.map (·.migrated (targets.take k)) } := by
  have h := hs.resumes targets hjournal
  obtain ⟨hvalid, happlies, hagain⟩ := pass_part (k := k) (nodup_of_validate h.valid) hs.valid
    fun target htarget => h.applies target (List.mem_of_mem_take htarget)
  refine consistent_of (nodup_map_migrated hs.nodup _) hvalid hjournal
    ⟨h.valid, fun target htarget => (happlies target htarget).mpr (h.applies target htarget), ?_⟩
  rw [hagain]
  exact h.final

/-- What the journal makes of the records. -/
lemma Consistent.final (hs : Consistent s) (hjournal : s.journal = some targets) :
    Consistent { s with records := s.records.map (·.migrated targets) } := by
  have := hs.part hjournal targets.length
  rwa [List.take_length] at this

/-- The journal can go once it is applied. -/
lemma Consistent.clear (hs : Consistent s) (hjournal : s.journal = some targets) :
    Quiet { s with records := s.records.map (·.migrated targets), journal := none } :=
  have hfinal := hs.final hjournal
  quiet_of hfinal.nodup hfinal.valid (hs.resumes targets hjournal).final rfl

/-! ### Placing and removing records -/

lemma mem_place {store : List ProjectRecord} {r : ProjectRecord} (h : r ∈ place store record) :
    r = record ∨ r ∈ store ∧ r.projectID ≠ record.projectID := by
  rw [place] at h
  split at h
  next =>
    obtain ⟨x, hx, rfl⟩ := List.mem_map.mp h
    split
    next => exact .inl rfl
    next hne => exact .inr ⟨hx, hne⟩
  next hany =>
    rcases List.mem_append.mp h with hr | hr
    · refine .inr ⟨hr, fun hid => hany ?_⟩
      exact List.any_eq_true.mpr ⟨r, hr, decide_eq_true hid⟩
    · exact .inl (List.mem_singleton.mp hr)

lemma nodup_place {store : List ProjectRecord} (h : (store.map (·.projectID)).Nodup) :
    ((place store record).map (·.projectID)).Nodup := by
  rw [place]
  split
  next =>
    have hsame : (store.map fun other => if other.projectID = record.projectID then record
        else other).map (·.projectID) = store.map (·.projectID) := by
      rw [List.map_map]
      refine List.map_congr_left fun r _ => ?_
      by_cases hid : r.projectID = record.projectID
      · rw [Function.comp_apply, if_pos hid, hid]
      · rw [Function.comp_apply, if_neg hid]
    rw [hsame]
    exact h
  next hany =>
    rw [List.map_append, List.nodup_append']
    refine ⟨h, List.nodup_singleton _, fun id hid hid' => hany ?_⟩
    obtain ⟨r, hr, rfl⟩ := List.mem_map.mp hid
    exact List.any_eq_true.mpr ⟨r, hr, decide_eq_true (List.mem_singleton.mp hid')⟩

lemma valid_place {store : List ProjectRecord}
    (h : ∀ r ∈ store, r.validate r.projectID = .ok ())
    (hrecord : record.validate record.projectID = .ok ()) :
    ∀ r ∈ place store record, r.validate r.projectID = .ok () := by
  intro r hr
  rcases mem_place hr with rfl | ⟨hr, _⟩
  · exact hrecord
  · exact h r hr

/-- Name and id of a record conflict with no other record. -/
def Free (records : List ProjectRecord) (record : ProjectRecord) : Prop :=
  ∀ r ∈ records, r.projectID ≠ record.projectID →
    r.idKey ≠ projectNameKey record.name ∧ projectNameKey r.name ≠ projectNameKey record.name
      ∧ projectNameKey r.name ≠ record.idKey

lemma Unambiguous.place {store : List ProjectRecord} (h : Unambiguous store)
    (hsafe : safeProjectName record.name) (hfree : Free store record) :
    Unambiguous (place store record) := by
  refine ⟨fun r hr => ?_, fun r hr r' hr' hkey => ?_, fun r hr r' hr' hkey => ?_⟩
  · rcases mem_place hr with rfl | ⟨hr, _⟩
    · exact hsafe
    · exact h.safe r hr
  · rcases mem_place hr with rfl | ⟨hold, hne⟩ <;> rcases mem_place hr' with rfl | ⟨hold', hne'⟩
    · rfl
    · exact absurd hkey.symm (hfree r' hold' hne').2.1
    · exact absurd hkey (hfree r hold hne).2.1
    · exact h.names r hold r' hold' hkey
  · rcases mem_place hr with rfl | ⟨hold, hne⟩ <;> rcases mem_place hr' with rfl | ⟨hold', hne'⟩
    · rfl
    · exact absurd hkey.symm (hfree r' hold' hne').1
    · exact absurd hkey (hfree r hold hne).2.2
    · exact h.ids r hold r' hold' hkey

lemma Quiet.place (hs : Quiet s) (hrecord : record.validate record.projectID = .ok ())
    (hsafe : safeProjectName record.name) (hfree : Free s.records record) :
    Quiet { s with records := place s.records record } :=
  quiet_of (nodup_place hs.nodup) (valid_place hs.valid hrecord)
    (hs.unambiguous.place hsafe hfree) hs.journal

lemma Quiet.filter (hs : Quiet s) (p : ProjectRecord → Bool) :
    Quiet { s with records := s.records.filter p } :=
  quiet_of (hs.nodup.sublist (List.filter_sublist.map _))
    (fun r hr => hs.valid r (List.mem_of_mem_filter hr))
    (hs.unambiguous.mono fun _ hr => List.mem_of_mem_filter hr) hs.journal

end Kept

/-! ### Programs that leave the records and the journal -/

/-- No action of the program touches the records or the journal. -/
def Keeps {α : Type} (p : Program α) : Prop :=
  Code.Only (fun a => ∀ s r t, Effect a s r t → s.Same t) p

lemma Keeps.meets {α : Type} {inv : Disk → Prop} : ∀ {p : Program α} {s : Disk}, Keeps p →
    (∀ t, s.Same t → inv t) → machine.Meets inv (fun _ t => s.Same t) p s
  | .ret _, s, _, hinv => ⟨hinv s (.refl s), .refl s⟩
  | .fail _, s, _, hinv => ⟨hinv s (.refl s), .refl s⟩
  | .act a k, s, h, hinv => by
    refine ⟨hinv s (.refl s), fun _ h => h.elim, fun r t heffect => ?_⟩
    have hsame := h a (.inl rfl) s r t heffect
    refine (meets (fun b hb => h b (.inr ⟨r, hb⟩)) fun u hu => hinv u (hsame.trans hu)).mono ?_
    exact fun _ u _ hu => hsame.trans hu

lemma same_read (s : Disk) (r : Disk) (t : Disk) (h : Effect .read s r t) : s.Same t :=
  h.2 ▸ .refl s

lemma same_release (operationID : Bytes) (s : Disk) (r : Unit) (t : Disk)
    (h : Effect (.release operationID) s r t) : s.Same t := by
  have h : t = { s with reservations := _ } := h
  rw [h]
  exact ⟨rfl, rfl⟩

/-! ### The actions of the programs -/

section Actions

variable {P : Action → Prop}

lemma only_listRecords (hread : P .read) : Code.Only P listRecords :=
  .act hread fun s => .lift (listUnlocked s.records)

lemma only_readReservation (hread : P .read) (operationID : Bytes) :
    Code.Only P (readReservation operationID) := by
  refine .bind (.act hread fun _ => .ret _) fun s => ?_
  split
  · exact .ret _
  · exact .bind (.lift _) fun _ => .ret _

lemma only_pruneReservations (hrelease : ∀ id, P (.release id)) (now : ℤ) :
    ∀ l, Code.Only P (pruneReservations now l)
  | [] => .ret _
  | reservation :: rest => by
    refine .bind (.lift _) fun _ => ?_
    split
    · exact .act (hrelease _) fun _ => only_pruneReservations hrelease now rest
    · exact .bind (only_pruneReservations hrelease now rest) fun _ => .ret _

lemma only_readReservations (hread : P .read) (hrelease : ∀ id, P (.release id)) (now : ℤ) :
    Code.Only P (readReservations now) :=
  .bind (.act hread fun _ => .ret _) fun s =>
    .bind (only_pruneReservations hrelease now s.reservations) fun _ => .ret _

lemma only_writeReservation (hread : P .read) {reservation : ProjectReservation}
    (hreserve : P (.reserve reservation)) : Code.Only P (writeReservation reservation) := by
  refine .bind .refuse fun _ => .bind (.act hread fun _ => .ret _) fun s => ?_
  split
  · exact .act hreserve fun _ => .ret _
  · split
    · exact .ret _
    · exact .fail _

lemma only_admittedName (hsearch : ∀ base occupied, P (.search base occupied))
    (request : AdmissionRequest) (occupied : List (Bytes × Bytes)) :
    Code.Only P (admittedName request occupied) := by
  rw [admittedName]
  split
  · exact .ret _
  · refine .bind (.act (hsearch _ _) fun _ => .ret _) fun _ => ?_
    split
    · exact .fail _
    · exact .ret _

end Actions

lemma keeps_readReservation (operationID : Bytes) : Keeps (readReservation operationID) :=
  only_readReservation same_read operationID

lemma keeps_readReservations (now : ℤ) : Keeps (readReservations now) :=
  only_readReservations same_read same_release now

lemma keeps_writeReservation (reservation : ProjectReservation) :
    Keeps (writeReservation reservation) :=
  only_writeReservation same_read fun s _ t h => by
    have h : t = { s with reservations := _ } := h
    rw [h]
    exact ⟨rfl, rfl⟩

lemma keeps_admitRequest (now created : ℤ) (request : AdmissionRequest) :
    Keeps (admitRequest now created request) := by
  refine .bind .refuse fun _ => .bind .refuse fun _ => .bind .refuse fun _ => .bind .refuse fun _ =>
    .bind (only_listRecords same_read) fun records => .bind (.lift _) fun _ => ?_
  split
  · exact .ret _
  · refine .bind (keeps_readReservations now) fun _ => .bind (.lift _) fun _ => ?_
    split
    · exact .ret _
    · exact .bind (only_admittedName (fun _ _ s _ t h => h.1 ▸ .refl s) request _) fun _ =>
        .bind (keeps_writeReservation _) fun _ => .ret _

lemma keeps_release (operationID : Bytes) : Keeps (Code.act (.release operationID) .ret) :=
  .act (same_release operationID) fun _ => .ret _

lemma keeps_abortAdmission (operationID : Bytes) : Keeps (abortAdmission operationID) := by
  rw [abortAdmission]
  split
  · exact .ret _
  · exact keeps_release operationID

/-! ### Single operations -/

section Operations

variable {s : Disk} {record : ProjectRecord} {targets : List MigrationTarget}

/-- What the check of a name says of the records. -/
lemma validateProjectNameUnlocked_meets {inv : Disk → Prop} (now : ℤ) (record : ProjectRecord)
    (ignoredOperation : Bytes) (hinv : ∀ t, s.Same t → inv t) :
    machine.Meets inv (fun r t => s.Same t
        ∧ (r = .ok () → safeProjectName record.name ∧ Free s.records record))
      (validateProjectNameUnlocked now record ignoredOperation) s := by
  have hs := hinv s (.refl s)
  refine Machine.Meets.bind (Machine.Meets.refuse hs (fun _ => ⟨.refl s, nofun⟩) fun hsafe => ?_)
  refine Machine.Meets.bind ((listRecords_meets hs).mono ?_)
  rintro (e | records) t _ ⟨hlist, rfl⟩
  · exact ⟨.refl t, nofun⟩
  refine Machine.Meets.bind ((forM_refuse_meets hs records).mono ?_)
  rintro (e | _) u _ ⟨rfl, hfree⟩
  · exact ⟨.refl u, nofun⟩
  have hfree : Free u.records record := by
    intro r hr hid
    have := hfree rfl r ((listUnlocked_ok hlist.symm).2.mem_iff.mpr hr)
    simp only [projectNamesEqual, decide_eq_true_eq, not_and, not_or] at this
    exact this hid
  refine Machine.Meets.bind (((keeps_readReservations now).meets hinv).mono ?_)
  rintro (e | reservations) v _ hsame
  · exact ⟨hsame, nofun⟩
  refine (forM_refuse_meets (hinv v hsame) reservations).mono ?_
  rintro r w _ ⟨rfl, _⟩
  exact ⟨hsame, fun _ => ⟨not_not.mp hsafe, hfree⟩⟩

/-- What `putRecord` does with a record whose name is free. -/
lemma putRecord_quiet (hs : Quiet s) (hsafe : safeProjectName record.name)
    (hfree : Free s.records record) :
    machine.Meets Consistent (fun _ t => Quiet t) (putRecord record) s := by
  refine (putRecord_meets hs.toConsistent fun hrecord =>
    (hs.place hrecord hsafe hfree).toConsistent).mono ?_
  rintro r t _ (⟨_, hrecord, rfl⟩ | ⟨_, _, _, rfl⟩)
  · exact hs.place hrecord hsafe hfree
  · exact hs

lemma put_meets (hs : Quiet s) (now : ℤ) :
    machine.Meets Consistent (fun _ t => Quiet t) (put now record) s := by
  refine Machine.Meets.bind (Machine.Meets.lift hs.toConsistent ?_)
  split
  next =>
    refine Machine.Meets.bind ((validateProjectNameUnlocked_meets now record []
      fun _ => hs.toConsistent.same).mono ?_)
    rintro (e | _) t _ ⟨hsame, hfree⟩
    · exact hs.same hsame
    · obtain ⟨hsafe, hfree⟩ := hfree rfl
      exact putRecord_quiet (hs.same hsame) hsafe (hsame.1 ▸ hfree)
  next => exact hs

lemma delete_meets (hs : Quiet s) (id : Bytes) :
    machine.Meets Consistent (fun _ t => Quiet t) (delete id) s := by
  refine Machine.Meets.bind (Machine.Meets.refuse hs.toConsistent (fun _ => hs) fun _ => ?_)
  have hfilter := hs.filter (·.projectID ≠ id)
  exact meets_write (fun _ _ => rfl) () hs.toConsistent (fun _ _ h => h)
    ⟨hfilter.toConsistent, hfilter⟩

lemma finalizeOperation_meets (hs : Quiet s) (now : ℤ) (operationID : Bytes) :
    machine.Meets Consistent (fun _ t => Quiet t) (finalizeOperation now operationID record) s := by
  refine Machine.Meets.bind (Machine.Meets.lift hs.toConsistent ?_)
  split
  next =>
    refine Machine.Meets.bind (((keeps_readReservation operationID).meets
      fun _ => hs.toConsistent.same).mono ?_)
    rintro (e | _ | reservation) t _ hsame
    · exact hs.same hsame
    · exact ⟨hs.toConsistent.same hsame, hs.same hsame⟩
    have ht := hs.same hsame
    refine Machine.Meets.bind (Machine.Meets.refuse ht.toConsistent (fun _ => ht) fun _ => ?_)
    refine Machine.Meets.bind ((validateProjectNameUnlocked_meets now record
      reservation.operationID fun _ => ht.toConsistent.same).mono ?_)
    rintro (e | _) u _ ⟨hsame, hfree⟩
    · exact ht.same hsame
    obtain ⟨hsafe, hfree⟩ := hfree rfl
    refine Machine.Meets.bind ((putRecord_quiet (ht.same hsame) hsafe
      (hsame.1 ▸ hfree)).mono ?_)
    rintro (e | _) v _ hv
    · exact hv
    · exact ((keeps_release _).meets fun _ => hv.toConsistent.same).mono
        fun _ _ _ hsame => hv.same hsame
  next => exact hs

/-! ### Journals -/

/-- A journal is published if it can be applied. -/
lemma writeProjectNameMigration_meets (hs : Quiet s)
    (h : validateProjectNameMigration targets = .ok () → Resumes s.records targets) :
    machine.Meets Consistent (fun r t => (r = .ok () ∧ Resumes s.records targets
        ∧ t = { s with journal := some targets }) ∨ ∃ e, r = .error e ∧ t = s)
      (writeProjectNameMigration targets) s := by
  refine Machine.Meets.bind (Machine.Meets.lift hs.toConsistent ?_)
  cases hvalid : validateProjectNameMigration targets with
  | error e => exact .inr ⟨e, rfl, rfl⟩
  | ok _ =>
    have hpublished : Consistent { s with journal := some targets } :=
      consistent_of hs.nodup hs.valid rfl (h hvalid)
    exact meets_write (fun _ _ => rfl) () hs.toConsistent (fun _ _ h => h)
      ⟨hpublished, .inl ⟨rfl, h hvalid, rfl⟩⟩

/-- The journal is applied, and an interruption leaves a consistent directory. -/
lemma applyJournal_consistent (hs : Consistent s) (hjournal : s.journal = some targets) :
    machine.Meets Consistent
      (fun r t => r = .ok () ∧ t = { s with records := s.records.map (·.migrated targets) })
      (applyJournal targets) s := by
  have h := hs.resumes targets hjournal
  have hnodup := nodup_of_validate h.valid
  refine applyJournal_meets hs.nodup hnodup
    ((applyProjectNameMigration_ok hs.nodup hnodup).mpr ⟨hs.valid, h.applies, rfl⟩) hs ?_
  intro k part hpart
  obtain ⟨_, _, rfl⟩ := (applyProjectNameMigration_ok hs.nodup
    (hnodup.sublist ((List.take_sublist _ _).map _))).mp hpart
  exact hs.part hjournal k

/-- The journal is applied and removed. -/
lemma applyJournal_clear {α : Type} {v : α} (hs : Consistent s)
    (hjournal : s.journal = some targets) :
    machine.Meets Consistent (fun _ t => Quiet t)
      (do applyJournal targets
          let _ : Unit ← Code.act .clear .ret
          pure v) s := by
  refine Machine.Meets.bind ((applyJournal_consistent hs hjournal).mono ?_)
  rintro r t ht ⟨rfl, rfl⟩
  have hquiet := hs.clear hjournal
  exact meets_write (fun _ _ => rfl) () ht (fun _ _ h => h) ⟨hquiet.toConsistent, hquiet⟩

lemma resumeProjectNameMigration_meets (hs : Consistent s) :
    machine.Meets Consistent (fun _ t => Quiet t) resumeProjectNameMigration s := by
  refine meets_read hs ?_
  dsimp only [Code.bind]
  split
  next hnone => exact ⟨hs, hs, hnone⟩
  next targets hjournal =>
    refine Machine.Meets.bind (Machine.Meets.lift hs ?_)
    rw [(hs.resumes targets hjournal).valid]
    exact applyJournal_clear hs hjournal

/-! ### Plans -/

/-- What is named under the ids of the records: canonical under a canonical one's, with valid source
keys. -/
def Alike (records named : List ProjectRecord) : Prop :=
  ∀ r ∈ records, ∀ r' ∈ named, r'.projectID = r.projectID →
    (r.identityVersion = 2 → r'.identityVersion = 2)
      ∧ (r'.recordedKey ≠ [] → validSourceKey r'.recordedKey)

/-- The targets of a plan for the records, and possibly for others, can be a journal. -/
lemma resumes_of_named {records : List ProjectRecord} {named : List (ProjectRecord × Bytes)}
    (hrecords : ∀ r ∈ records, r.validate r.projectID = .ok ())
    (hnamed : Named (named.map Prod.fst) named) (hsub : records ⊆ named.map Prod.fst)
    (halike : Alike records (named.map Prod.fst))
    (hcanonical : validateCanonicalMigrationTargets (named.map Prod.fst) (targetsOf named) = .ok ())
    (hvalid : validateProjectNameMigration (targetsOf named) = .ok ()) :
    Resumes records (targetsOf named) where
  valid := hvalid
  final := hnamed.unambiguous (nodup_of_validate hvalid) hsub
  applies target htarget r hr := by
    refine hnamed.applies (hrecords r hr) (fun target htarget hid hversion => ?_)
      (fun x hx hid => (halike r hr x.1 (List.mem_map_of_mem hx) hid).2) target htarget
    have hrefused := refuse_eq_ok.mp (forM_eq_ok.mp hcanonical target htarget)
    rw [hid, versionOf_eq ⟨r, hsub hr, rfl⟩ fun r' hr' hid' =>
      (halike r hr r' hr' hid').1 hversion] at hrefused
    exact not_not.mp fun hne => hrefused ⟨rfl, hne⟩

/-- **A migration completes what was interrupted**, and leads from a consistent directory to a quiet
one. -/
lemma migrateLegacyNames_meets (hs : Consistent s) :
    machine.Meets Consistent (fun _ t => Quiet t) migrateLegacyNames s := by
  refine Machine.Meets.bind ((resumeProjectNameMigration_meets hs).mono ?_)
  rintro (e | resumed) t _ ht
  · exact ht
  refine Machine.Meets.bind ((listRecords_meets ht.toConsistent).mono ?_)
  rintro (e | records) u _ ⟨hlist, rfl⟩
  · exact ht
  have hperm := (listUnlocked_ok hlist.symm).2
  refine ⟨ht.toConsistent, fun _ h => h.elim, fun targets u' heffect => ?_⟩
  obtain ⟨rfl, hcount, fuel, hplan⟩ := heffect
  obtain ⟨named, hnamed, hfst, rfl⟩ := named_of_plan
    (fun r hr => (record_valid (ht.valid r (hperm.mem_iff.mp hr))).1) hcount hplan
  have hsorted : (named.map Prod.fst).Perm u'.records := by
    rw [hfst]
    exact (importOrder_perm records).trans hperm
  show machine.Meets Consistent _ (if targetsOf named = [] then _ else _) u'
  split
  · exact ⟨ht.toConsistent, ht⟩
  refine Machine.Meets.bind (Machine.Meets.lift ht.toConsistent ?_)
  cases hcanonical : validateCanonicalMigrationTargets (importOrder records) (targetsOf named) with
  | error e => exact ht
  | ok _ =>
    refine Machine.Meets.bind ((writeProjectNameMigration_meets ht fun hvalid =>
      resumes_of_named ht.valid (hfst ▸ hnamed) hsorted.symm.subset ?_ (hfst ▸ hcanonical)
        hvalid).mono ?_)
    · intro r hr r' hr' hid
      obtain rfl := List.inj_on_of_nodup_map ht.nodup (hsorted.mem_iff.mp hr') hr hid
      exact ⟨id, validSourceKey_recordedKey (ht.valid r' hr)⟩
    · rintro r v hv (⟨rfl, _, rfl⟩ | ⟨e, rfl, rfl⟩)
      · exact applyJournal_clear hv rfl
      · exact ht

/-- The end of a registration, with the plan for the records, the found one and others. -/
lemma registerPlanned_quiet {planned : List ProjectRecord} {named : List (ProjectRecord × Bytes)}
    (hs : Quiet s) (hrecord : record.validate record.projectID = .ok ())
    (hfresh : ∀ r ∈ s.records, r.projectID ≠ record.projectID)
    (hnamed : Named (importOrder planned) named) (hfst : named.map Prod.fst = importOrder planned)
    (hsub : s.records ++ [record] ⊆ planned) (halike : Alike (s.records ++ [record]) planned) :
    machine.Meets Consistent (fun _ t => Quiet t)
      (registerPlanned planned (targetsOf named) record) s := by
  have hperm := importOrder_perm planned
  have hsub : s.records ++ [record] ⊆ importOrder planned := fun r hr => hperm.mem_iff.mpr (hsub hr)
  have halike : Alike (s.records ++ [record]) (importOrder planned) := fun r hr r' hr' =>
    halike r hr r' (hperm.mem_iff.mp hr')
  rw [← hfst] at hnamed hsub halike
  -- the records with the found one
  have hplace := place_new hfresh
  have hnodup : ((s.records ++ [record]).map (·.projectID)).Nodup := by
    rw [← hplace]
    exact nodup_place hs.nodup
  have hvalid : ∀ r ∈ s.records ++ [record], r.validate r.projectID = .ok () := by
    rw [← hplace]
    exact valid_place hs.valid hrecord
  rw [registerPlanned]
  split
  next hnil =>
    have hnames := hnamed.unambiguous (by rw [hnil]; exact List.nodup_nil) hsub
    rw [hnil, show (s.records ++ [record]).map (·.migrated []) = s.records ++ [record] from
      List.map_id _] at hnames
    have hplaced : Quiet { s with records := place s.records record } := by
      rw [hplace]
      exact quiet_of hnodup hvalid hnames hs.journal
    refine (putRecord_meets hs.toConsistent fun _ => hplaced.toConsistent).mono ?_
    rintro r t _ (⟨_, _, rfl⟩ | ⟨_, _, _, rfl⟩)
    · exact hplaced
    · exact hs
  next =>
    refine Machine.Meets.bind (Machine.Meets.lift hs.toConsistent ?_)
    cases hcanonical : validateCanonicalMigrationTargets (importOrder planned)
        (targetsOf named) with
    | error e => exact hs
    | ok _ =>
      rw [← hfst] at hcanonical
      have hresumes := fun hjournal => resumes_of_named hvalid hnamed hsub halike hcanonical
        hjournal
      refine Machine.Meets.bind ((writeProjectNameMigration_meets hs fun hjournal =>
        (hresumes hjournal).mono (List.subset_append_left _ _)).mono ?_)
      rintro r t ht (⟨rfl, hfirst, rfl⟩ | ⟨e, rfl, rfl⟩)
      · -- were the found record there already, the journal would do the same
        have hall : Consistent { s with
            records := s.records ++ [record], journal := some (targetsOf named) } :=
          consistent_of hnodup hvalid rfl (hresumes hfirst.valid)
        have hfinal := hall.final rfl
        have hput : place (s.records.map (·.migrated (targetsOf named)))
            (record.migrated (targetsOf named))
            = (s.records ++ [record]).map (·.migrated (targetsOf named)) := by
          rw [List.map_append]
          exact place_new (by simpa using hfresh)
        refine Machine.Meets.bind ((applyJournal_consistent ht rfl).mono ?_)
        rintro r u hu ⟨rfl, rfl⟩
        refine Machine.Meets.bind ((putRecord_meets hu fun _ => ?_).mono ?_)
        · rw [hput]
          exact hfinal
        · rintro r v hv (⟨rfl, _, rfl⟩ | ⟨e, rfl, herror, rfl⟩)
          · rw [hput]
            have hquiet := hall.clear rfl
            exact meets_write (fun _ _ => rfl) () hfinal (fun _ _ h => h)
              ⟨hquiet.toConsistent, hquiet⟩
          · have := hfinal.valid (record.migrated (targetsOf named))
              (List.mem_map_of_mem (List.mem_append_right _ List.mem_cons_self))
            rw [this] at herror
            cases herror
      · exact hs

lemma convergeObserved_meets (hs : Quiet s) (now : ℤ) (observed : ProjectRecord) (sshHost : Bytes) :
    machine.Meets Consistent (fun _ t => Quiet t) (convergeObserved now observed sshHost) s := by
  refine Machine.Meets.bind ((readRecord_meets observed.projectID hs.toConsistent).mono ?_)
  rintro (e | _ | record) t ht ⟨rfl, hfound⟩
  · exact hs
  swap
  · exact ⟨ht, hs⟩
  have hfresh : ∀ r ∈ t.records, r.projectID ≠ observed.projectID := fun r hr hid =>
    absurd ((hfound none rfl).mpr ⟨r, hr, hid⟩) (by simp)
  refine Machine.Meets.bind ((readReservations_meets now fun _ => hs.toConsistent.same).mono ?_)
  rintro (e | live) u _ ⟨hsame, hlive⟩
  · exact hs.same hsame
  have hu := hs.same hsame
  have hlive := hlive live rfl
  refine Machine.Meets.bind ((forM_refuse_meets hu.toConsistent live).mono ?_)
  rintro (e | _) v _ ⟨rfl, hfree⟩
  · exact hu
  refine Machine.Meets.bind (Machine.Meets.lift hu.toConsistent ?_)
  cases hrecord : (observedRecord observed sshHost).validate
      (observedRecord observed sshHost).projectID with
  | error e => exact hu
  | ok _ =>
    refine Machine.Meets.bind ((listRecords_meets hu.toConsistent).mono ?_)
    rintro (e | records) w _ ⟨hlist, rfl⟩
    · exact hu
    have hperm := (listUnlocked_ok hlist.symm).2
    refine ⟨hu.toConsistent, fun _ h => h.elim, fun targets w' heffect => ?_⟩
    obtain ⟨rfl, hcount, fuel, hplan⟩ := heffect
    have hreserved : ∀ x ∈ live, x.validate x.operationID = .ok () := fun x hx => (hlive x hx).2.1
    have hplanned : ∀ r, r ∈ plannedRecords records (observedRecord observed sshHost) live sshHost
        ↔ r ∈ w'.records ∨ r = observedRecord observed sshHost
          ∨ ∃ x ∈ live, reservedRecord x sshHost = r := by
      intro r
      rw [mem_plannedRecords, hperm.mem_iff]
    have hsafe : ∀ r ∈ plannedRecords records (observedRecord observed sshHost) live sshHost,
        domainSafeID r.projectID := by
      intro r hr
      rcases (hplanned r).mp hr with hr | rfl | ⟨x, hx, rfl⟩
      · exact (record_valid (hu.valid r hr)).1
      · exact (record_valid hrecord).1
      · exact (Bool.and_eq_true_iff.mp (reservation_valid (hreserved x hx)).1).2
    obtain ⟨named, hnamed, hfst, rfl⟩ := named_of_plan hsafe hcount hplan
    have hfresh : ∀ r ∈ w'.records, r.projectID ≠ observed.projectID := hsame.1 ▸ hfresh
    refine registerPlanned_quiet hu hrecord hfresh hnamed hfst (fun r hr => ?_) ?_
    · rw [hplanned]
      exact (List.mem_append.mp hr).imp_right fun hr => .inl (List.mem_singleton.mp hr)
    · intro r hr r' hr' hid
      rcases (hplanned r').mp hr' with hold' | rfl | ⟨x, _, rfl⟩
      · rcases List.mem_append.mp hr with hold | hr
        · obtain rfl := List.inj_on_of_nodup_map hu.nodup hold' hold hid
          exact ⟨id, validSourceKey_recordedKey (hu.valid r' hold)⟩
        · rw [List.mem_singleton.mp hr] at hid
          exact absurd hid (hfresh r' hold')
      · rcases List.mem_append.mp hr with hold | hr
        · exact absurd hid.symm (hfresh r hold)
        · rw [List.mem_singleton.mp hr]
          exact ⟨id, validSourceKey_recordedKey hrecord⟩
      · exact ⟨fun _ => rfl, fun hne => absurd rfl hne⟩

end Operations

/-! ### Histories -/

/-- The operations of the store, with the times they read. -/
inductive Call
  | put (now : ℤ) (record : ProjectRecord)
  | admitRequest (now created : ℤ) (request : AdmissionRequest)
  | finalizeOperation (now : ℤ) (operationID : Bytes) (record : ProjectRecord)
  | abortAdmission (operationID : Bytes)
  | delete (id : Bytes)
  | convergeObserved (now : ℤ) (observed : ProjectRecord) (sshHost : Bytes)
  | migrateLegacyNames

def Call.program : Call → Program Unit
  | .put now record => State.put now record
  | .admitRequest now created request => do
      let _ ← State.admitRequest now created request
      pure ()
  | .finalizeOperation now operationID record => State.finalizeOperation now operationID record
  | .abortAdmission operationID => State.abortAdmission operationID
  | .delete id => State.delete id
  | .convergeObserved now observed sshHost => State.convergeObserved now observed sshHost
  | .migrateLegacyNames => do
      let _ ← State.migrateLegacyNames
      pure ()

/-- **Every operation leads from a quiet directory to a quiet one**, through consistent ones. -/
lemma Call.meets {s : Disk} (hs : Quiet s) (call : Call) :
    machine.Meets Consistent (fun _ t => Quiet t) call.program s := by
  have hkeeps : ∀ {p : Program Unit}, Keeps p →
      machine.Meets Consistent (fun _ t => Quiet t) p s := fun hp =>
    (hp.meets fun _ => hs.toConsistent.same).mono fun _ _ _ hsame => hs.same hsame
  cases call with
  | put now record => exact put_meets hs now
  | admitRequest now created request =>
    exact hkeeps (.bind (keeps_admitRequest now created request) fun _ => .ret _)
  | finalizeOperation now operationID record => exact finalizeOperation_meets hs now operationID
  | abortAdmission operationID => exact hkeeps (keeps_abortAdmission operationID)
  | delete id => exact delete_meets hs id
  | convergeObserved now observed sshHost => exact convergeObserved_meets hs now observed sshHost
  | migrateLegacyNames =>
    refine Machine.Meets.bind ((migrateLegacyNames_meets hs.toConsistent).mono ?_)
    rintro (e | _) t ht hquiet
    · exact hquiet
    · exact ⟨ht, hquiet⟩

inductive Phase
  | quiet
  /-- An operation was interrupted, and no migration has completed since. -/
  | interrupted
deriving DecidableEq

/-- The directories that are reached from the empty one by operations, one at a time, any of which
may be interrupted between its writes.  After an interruption migrations run until one completes. -/
inductive Reaches : Phase → Disk → Prop
  | empty : Reaches .quiet ⟨[], [], none⟩
  | call {s t : Disk} (call : Call) (outcome : Except Failure Unit) (h : Reaches .quiet s)
      (hrun : machine.Runs call.program s (some outcome) t) : Reaches .quiet t
  | interrupt {s t : Disk} (call : Call) (h : Reaches .quiet s)
      (hrun : machine.Runs call.program s none t) : Reaches .interrupted t
  | migrate {s t : Disk} (outcome : Except Failure Bool) (h : Reaches .interrupted s)
      (hrun : machine.Runs migrateLegacyNames s (some outcome) t) : Reaches .quiet t
  | interruptAgain {s t : Disk} (h : Reaches .interrupted s)
      (hrun : machine.Runs migrateLegacyNames s none t) : Reaches .interrupted t

/-- **Directories stay consistent, and quiet between operations.** -/
theorem Reaches.consistent {phase : Phase} {s : Disk} (h : Reaches phase s) :
    Consistent s ∧ (phase = .quiet → Quiet s) := by
  induction h with
  | empty =>
    have : Quiet ⟨[], [], none⟩ := quiet_of List.nodup_nil nofun ⟨nofun, nofun, nofun⟩ rfl
    exact ⟨this.toConsistent, fun _ => this⟩
  | call call outcome _ hrun ih =>
    obtain ⟨hcons, hquiet⟩ := (call.meets (ih.2 rfl)).sound hrun
    exact ⟨hcons, fun _ => hquiet outcome rfl⟩
  | interrupt call _ hrun ih => exact ⟨((call.meets (ih.2 rfl)).sound hrun).1, nofun⟩
  | migrate outcome _ hrun ih =>
    obtain ⟨hcons, hquiet⟩ := (migrateLegacyNames_meets ih.1).sound hrun
    exact ⟨hcons, fun _ => hquiet outcome rfl⟩
  | interruptAgain _ hrun ih => exact ⟨((migrateLegacyNames_meets ih.1).sound hrun).1, nofun⟩

end Subyard.State
