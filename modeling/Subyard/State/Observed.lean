import Subyard.State.Store

/-!
The registration of projects that are found in a yard.

* `Registers`: what is asked of a project that is found, and of the reservations, so that no
  registered project is renamed.
* `converge_keeps_registered`: **then the registered records stay as they are, and one is added**.
* `older_newcomer_renames`: an older project that is found takes over the name of a registered one.
-/

namespace Subyard.State

open Text Fallible Interrupt

/-- Registered records `records`, a project found with the record `record`, and live reservations:
no registered name is the id of the found project or reserved, and a registered record whose name
the found project is to have was imported before. -/
structure Registers (records : List ProjectRecord) (record : ProjectRecord)
    (reservations : List ProjectReservation) : Prop where
  fresh : ∀ r ∈ records, r.projectID ≠ record.projectID
  id : ∀ r ∈ records, record.idKey ≠ projectNameKey r.name
  older : ∀ r ∈ records, record.baseKey = projectNameKey r.name → r.importedBefore record
  reserved : ∀ r ∈ records, ∀ x ∈ reservations,
    projectNameKey x.projectID ≠ projectNameKey r.name ∧ x.projectID ≠ r.projectID

section Plan

variable {records : List ProjectRecord} {record r : ProjectRecord}
  {named : List (ProjectRecord × Bytes)} {reservations : List ProjectReservation} {sshHost : Bytes}

lemma Registers.mono (h : Registers records record reservations) {records' : List ProjectRecord}
    {reservations' : List ProjectReservation} (hrecords : records' ⊆ records)
    (hreservations : reservations' ⊆ reservations) : Registers records' record reservations' where
  fresh r hr := h.fresh r (hrecords hr)
  id r hr := h.id r (hrecords hr)
  older r hr := h.older r (hrecords hr)
  reserved r hr x hx := h.reserved r (hrecords hr) x (hreservations hx)

lemma mem_plannedRecords : r ∈ plannedRecords records record reservations sshHost
    ↔ r ∈ records ∨ r = record ∨ ∃ x ∈ reservations, reservedRecord x sshHost = r := by
  simp [plannedRecords]

/-- A valid reservation has a safe name, which is its id. -/
lemma reservation_valid {x : ProjectReservation} (h : x.validate x.operationID = .ok ()) :
    safeProjectName x.projectID ∧ x.projectID = x.name := by
  obtain ⟨_, h⟩ := refuse_bind.mp h
  have h := refuse_eq_ok.mp h
  simp only [not_or, not_not] at h
  exact ⟨h.2.2.1, h.2.2.2.1⟩

lemma baseKey_reserved {x : ProjectReservation} (h : x.validate x.operationID = .ok ()) :
    (reservedRecord x sshHost).baseKey = projectNameKey x.projectID := by
  obtain ⟨hsafe, hname⟩ := reservation_valid h
  rw [baseKey_of_safe (show safeProjectName x.name from hname ▸ hsafe), hname]
  rfl

/-- A valid record has a safe id, and as canonical one the id as safe name. -/
lemma record_valid {id : Bytes} (h : r.validate id = .ok ()) : domainSafeID r.projectID
      ∧ (r.identityVersion = 2 → r.projectID = r.name ∧ safeProjectName r.name) := by
  simp only [ProjectRecord.validate, refuse_bind] at h
  refine ⟨not_not.mp h.2.1, fun hversion => ?_⟩
  have := h.2.2.2.1
  simp only [not_and, not_or, not_not] at this
  exact this hversion

/-- A registered record is planned for once. -/
lemma Registers.once (h : Registers records record reservations)
    (hids : (records.map (·.projectID)).Nodup) (hr : r ∈ records) :
    (plannedRecords records record reservations sshHost).Pairwise fun a b => a = r → b ≠ r := by
  have hother : ∀ b, (b = record ∨ ∃ x ∈ reservations, reservedRecord x sshHost = b) → b ≠ r := by
    rintro b (rfl | ⟨x, hx, rfl⟩) heq
    · exact h.fresh r hr (by rw [heq])
    · exact (h.reserved r hr x hx).2 (congrArg ProjectRecord.projectID heq)
  refine List.pairwise_append.mpr ⟨List.pairwise_append.mpr ⟨?_, List.pairwise_singleton _ _, ?_⟩,
    ?_, ?_⟩
  · exact (List.Nodup.of_map _ hids).imp fun hne ha hb => hne (ha.trans hb.symm)
  · exact fun a _ b hb _ => hother b (.inl (List.mem_singleton.mp hb))
  · exact List.pairwise_of_forall_mem_list fun a _ b hb _ => hother b (.inr (by simpa using hb))
  · exact fun a _ b hb _ => hother b (.inr (by simpa using hb))

/-- **A registered record is the keeper of its name.** -/
lemma Registers.keeper (h : Registers records record reservations)
    (hids : (records.map (·.projectID)).Nodup) (hnames : Unambiguous records)
    (hvalid : ∀ x ∈ reservations, x.validate x.operationID = .ok ())
    (hrecord : record.validate record.projectID = .ok ()) (hr : r ∈ records) {i : ℕ}
    (hi : (importOrder (plannedRecords records record reservations sshHost))[i]? = some r) :
    keepersOf (importOrder (plannedRecords records record reservations sshHost)) r.baseKey
      = some i := by
  set sorted := importOrder (plannedRecords records record reservations sshHost) with hsorted
  have hperm : sorted.Perm _ := importOrder_perm _
  have hkey := baseKey_of_safe (hnames.safe r hr)
  -- the records with the same name are this one and the found one, which comes later
  have hsame : ∀ r' ∈ sorted, r'.baseKey = r.baseKey → r' = r ∨ r' = record
      ∧ r.importedBefore record := by
    intro r' hr' hbase
    rw [hkey] at hbase
    rcases mem_plannedRecords.mp (hperm.mem_iff.mp hr') with hmem | rfl | ⟨x, hx, rfl⟩
    · rw [baseKey_of_safe (hnames.safe r' hmem)] at hbase
      exact .inl (List.inj_on_of_nodup_map hids hmem hr (hnames.names r' hmem r hr hbase))
    · exact .inr ⟨rfl, h.older r hr hbase⟩
    · rw [baseKey_reserved (hvalid x hx)] at hbase
      exact absurd hbase (h.reserved r hr x hx).1
  have hindex : ∀ j : ℕ, sorted[j]? = some r → j = i := by
    have honce : sorted.Pairwise fun a b => a = r → b ≠ r :=
      (hperm.pairwise_iff fun hab hb ha => hab ha hb).mpr (h.once hids hr)
    intro j hj
    rw [List.pairwise_iff_getElem] at honce
    obtain ⟨hlt, hj⟩ := List.getElem?_eq_some_iff.mp hj
    obtain ⟨hlt', hi⟩ := List.getElem?_eq_some_iff.mp hi
    rcases lt_trichotomy j i with hji | hji | hji
    · exact absurd hi (honce j i hlt hlt' hji hj)
    · exact hji
    · exact absurd hj (honce i j hlt' hlt hji hi)
  refine keepersOf_first ?_ fun j r' hj hversion hbase => ?_
  · obtain ⟨j, hj⟩ : ∃ j, sorted.findIdx? (·.baseKey = r.baseKey) = some j := by
      have hsome : (sorted.findIdx? (·.baseKey = r.baseKey)).isSome := by
        rw [List.findIdx?_isSome, List.any_eq_true]
        exact ⟨r, List.mem_of_getElem? hi, decide_eq_true rfl⟩
      exact Option.isSome_iff_exists.mp hsome
    obtain ⟨hlt, hbase, hleast⟩ := List.findIdx?_eq_some_iff_getElem.mp hj
    rw [hj]
    rcases hsame _ (List.getElem_mem hlt) (of_decide_eq_true hbase) with heq | ⟨heq, holder⟩
    · rw [hindex j (List.getElem?_eq_some_iff.mpr ⟨hlt, heq⟩)]
    · -- the found record cannot come before an older one
      exfalso
      obtain ⟨hlt', hi⟩ := List.getElem?_eq_some_iff.mp hi
      have hpairwise := List.pairwise_iff_getElem.mp (importOrder_pairwise
        (plannedRecords records record reservations sshHost))
      rcases lt_trichotomy i j with hij | hij | hij
      · have := hleast i hij
        rw [hi] at this
        exact this (decide_eq_true rfl)
      · subst hij
        rw [hi] at heq
        exact h.fresh r hr (by rw [heq])
      · have := hpairwise j i hlt hlt' hij
        rw [show (importOrder _)[j] = record from heq, show (importOrder _)[i] = r from hi] at this
        exact this holder
  · rcases hsame r' (List.mem_of_getElem? hj) hbase with rfl | ⟨rfl, _⟩
    · exact hindex j hj
    · -- a canonical record is named by its id
      obtain ⟨hname, hsafe⟩ := (record_valid hrecord).2 hversion
      rw [baseKey_of_safe hsafe, hkey] at hbase
      exact absurd (by rw [ProjectRecord.idKey, hname]; exact hbase) (h.id r hr)

/-- A registered record keeps its name. -/
lemma Registers.keeps (h : Registers records record reservations)
    (hids : (records.map (·.projectID)).Nodup) (hnames : Unambiguous records)
    (hvalid : ∀ x ∈ reservations, x.validate x.operationID = .ok ())
    (hrecord : record.validate record.projectID = .ok ())
    (hnamed : Named (importOrder (plannedRecords records record reservations sshHost)) named)
    (hfst : named.map Prod.fst = importOrder (plannedRecords records record reservations sshHost))
    {name : Bytes} (hr : r ∈ records) (hmem : (r, name) ∈ named) : name = r.name := by
  obtain ⟨i, hi⟩ := List.mem_iff_getElem?.mp hmem
  have hkey := baseKey_of_safe (hnames.safe r hr)
  have hget : (importOrder (plannedRecords records record reservations sshHost))[i]? = some r := by
    rw [← hfst, List.getElem?_map, hi]
    rfl
  rw [← base_of_safe (hnames.safe r hr)]
  refine hnamed.kept i _ hi (h.keeper hids hnames hvalid hrecord hr hget) ?_
  rw [hasForeignProjectID_iff]
  rintro ⟨r', hr', hid, hne⟩
  rw [hkey] at hid
  rcases mem_plannedRecords.mp ((importOrder_perm _).mem_iff.mp hr') with hmem' | rfl | ⟨x, hx, rfl⟩
  · exact hne (hnames.ids r hr r' hmem' hid.symm).symm
  · exact h.id r hr hid
  · exact (h.reserved r hr x hx).1 hid

/-- No target is one of a registered record. -/
lemma Registers.targets (h : Registers records record reservations)
    (hids : (records.map (·.projectID)).Nodup) (hnames : Unambiguous records)
    (hkeys : ∀ r ∈ records, r.Recorded)
    (hvalid : ∀ x ∈ reservations, x.validate x.operationID = .ok ())
    (hrecord : record.validate record.projectID = .ok ())
    (hnamed : Named (importOrder (plannedRecords records record reservations sshHost)) named)
    (hfst : named.map Prod.fst = importOrder (plannedRecords records record reservations sshHost)) :
    ∀ target ∈ targetsOf named, ∀ r ∈ records, target.projectID ≠ r.projectID := by
  intro target htarget r hr hid
  obtain ⟨⟨r', name⟩, hmem, htarget⟩ := List.mem_filterMap.mp htarget
  obtain rfl := migrationTarget_some htarget
  have hr' : r' ∈ importOrder (plannedRecords records record reservations sshHost) := by
    rw [← hfst]
    exact List.mem_map.mpr ⟨_, hmem, rfl⟩
  rcases mem_plannedRecords.mp ((importOrder_perm _).mem_iff.mp hr') with hmem' | rfl | ⟨x, hx, rfl⟩
  · have hname := h.keeps hids hnames hvalid hrecord hnamed hfst hmem' hmem
    have hnone : migrationTarget r' name = none :=
      migrationTarget_eq_none.mpr ⟨hname.symm, (recordedKey_eq (hkeys r' hmem')).symm⟩
    cases hnone.symm.trans htarget
  · exact h.fresh r hr hid.symm
  · exact (h.reserved r hr x hx).2 hid

/-- The found record can only get another name. -/
lemma Registers.found (h : Registers records record reservations) (hkey : record.Recorded)
    (hfree : ∀ x ∈ reservations, x.projectID ≠ record.projectID)
    (hfst : named.map Prod.fst = importOrder (plannedRecords records record reservations sshHost)) :
    ∃ name, record.migrated (targetsOf named) = { record with name } := by
  rw [ProjectRecord.migrated]
  cases hfind : (targetsOf named).find? (·.projectID = record.projectID) with
  | none => exact ⟨record.name, rfl⟩
  | some target =>
    have hid : target.projectID = record.projectID := by simpa using List.find?_some hfind
    obtain ⟨⟨r', name⟩, hmem, htarget⟩ :=
      List.mem_filterMap.mp (List.mem_of_find?_eq_some hfind)
    obtain rfl := migrationTarget_some htarget
    have hr' : r' ∈ importOrder (plannedRecords records record reservations sshHost) := by
      rw [← hfst]
      exact List.mem_map.mpr ⟨_, hmem, rfl⟩
    rcases mem_plannedRecords.mp ((importOrder_perm _).mem_iff.mp hr')
      with hmem' | rfl | ⟨x, hx, rfl⟩
    · exact absurd hid (h.fresh r' hmem')
    · refine ⟨name, ?_⟩
      show ({ r' with name, sourceKey := r'.recordedKey } : ProjectRecord) = { r' with name }
      rw [recordedKey_eq hkey]
    · exact absurd hid (hfree x hx)

end Plan

/-! ### Whole calls -/

variable {s : Disk} {targets : List MigrationTarget} {records : List ProjectRecord}
  {record : ProjectRecord}

/-- The reservations that have not expired. -/
def Disk.live (s : Disk) (now : ℤ) : List ProjectReservation :=
  s.reservations.filter (¬ ·.Expired now)

/-- A record under a new id is added. -/
lemma place_new {store : List ProjectRecord} (h : ∀ r ∈ store, r.projectID ≠ record.projectID) :
    place store record = store ++ [record] := by
  rw [place, if_neg]
  rw [List.any_eq_true]
  rintro ⟨r, hr, hid⟩
  exact h r hr (of_decide_eq_true hid)

/-- Targets for other ids leave the records. -/
lemma map_migrated_of_ne {store : List ProjectRecord}
    (h : ∀ target ∈ targets, ∀ r ∈ store, target.projectID ≠ r.projectID) :
    store.map (·.migrated targets) = store := by
  refine (List.map_congr_left fun r hr => migrated_of_notMem fun hmem => ?_).trans (List.map_id _)
  obtain ⟨target, htarget, hid⟩ := List.mem_map.mp hmem
  exact h target htarget r hr hid

/-- The targets of a plan have distinct ids, if they pass as a journal. -/
lemma nodup_of_validate (h : validateProjectNameMigration targets = .ok ()) :
    (targets.map (·.projectID)).Nodup := by
  obtain ⟨_, h⟩ := refuse_bind.mp h
  rw [List.nodup_iff_pairwise_ne, List.pairwise_iff_getElem]
  intro i j hi hj hij heq
  rw [List.length_map] at hi hj
  have := forM_eq_ok.mp h (targets[j], j) (List.mem_zipIdx_iff_getElem?.mpr (by simp [hj]))
  obtain ⟨hnot, _⟩ := refuse_bind.mp this
  simp only [not_or] at hnot
  refine hnot.2.2 (List.mem_map.mpr ⟨targets[i], ?_, by simpa using heq⟩)
  exact List.mem_take_iff_getElem.mpr ⟨i, by omega, rfl⟩

/-- What is registered when the targets leave the registered records. -/
lemma registerPlanned_meets {planned : List ProjectRecord}
    (hids : (s.records.map (·.projectID)).Nodup)
    (hvalid : ∀ r ∈ s.records, r.validate r.projectID = .ok ())
    (hfresh : ∀ r ∈ s.records, r.projectID ≠ record.projectID)
    (htargets : ∀ target ∈ targets, ∀ r ∈ s.records, target.projectID ≠ r.projectID) :
    machine.Meets (fun _ => True) (fun r t => r = .ok () →
      t.records = s.records ++ [record.migrated targets]) (registerPlanned planned targets record)
      s := by
  rw [registerPlanned]
  split
  next hnil =>
    subst hnil
    refine (putRecord_meets trivial fun _ => trivial).mono ?_
    rintro r t _ (⟨_, _, rfl⟩ | ⟨e, rfl, _⟩)
    · exact fun _ => place_new hfresh
    · exact nofun
  next =>
    refine Machine.Meets.bind (Machine.Meets.lift trivial ?_)
    split
    next => 
      refine Machine.Meets.bind (Machine.Meets.bind (Machine.Meets.lift trivial ?_))
      cases hjournal : validateProjectNameMigration targets with
      | error e => exact nofun
      | ok _ =>
        refine meets_write (fun _ _ => rfl) () trivial (fun _ _ h => h) ⟨trivial, ?_⟩
        have hnodup := nodup_of_validate hjournal
        have happly := (applyProjectNameMigration_ok hids hnodup).mpr
          ⟨hvalid, fun target htarget r hr hid => absurd hid (htargets target htarget r hr),
            rfl⟩
        rw [map_migrated_of_ne htargets] at happly
        refine Machine.Meets.bind ((applyJournal_meets (s := { s with journal := some targets })
          hids hnodup happly trivial fun _ _ _ => trivial).mono ?_)
        rintro r t _ ⟨rfl, rfl⟩
        refine Machine.Meets.bind ((putRecord_meets trivial fun _ => trivial).mono ?_)
        rintro r t _ (⟨rfl, _, rfl⟩ | ⟨e, rfl, _⟩)
        · refine meets_write (fun _ _ => rfl) () trivial (fun _ _ h => h) ⟨trivial, fun _ => ?_⟩
          exact place_new (by simpa using hfresh)
        · exact nofun
    next => exact nofun

/-- Runs of parts of the store's programs that come to an end. -/
lemma runs_listRecords (h : listUnlocked s.records = .ok records) :
    machine.Runs listRecords s (some (.ok records)) s := by
  refine .inr ⟨s, s, ⟨rfl, rfl⟩, ?_⟩
  show machine.Runs (Code.lift (listUnlocked s.records)) s _ s
  rw [h]
  exact ⟨rfl, .inr rfl⟩

lemma runs_putRecord (h : record.validate record.projectID = .ok ()) :
    machine.Runs (putRecord record) s (some (.ok ()))
      { s with records := place s.records record } := by
  rw [putRecord, h]
  exact .inr ⟨(), _, rfl, rfl, .inr rfl⟩

lemma runs_writeTarget {current next : List ProjectRecord} {target : MigrationTarget}
    (h : applyTarget records current target = .ok next) :
    machine.Runs (writeTarget records target) { s with records := current } (some (.ok ()))
      { s with records := next } := by
  rw [applyTarget] at h
  rw [writeTarget]
  cases hfind : records.find? (·.projectID = target.projectID) with
  | none =>
    rw [hfind] at h
    cases h
    exact ⟨rfl, .inr rfl⟩
  | some record =>
    rw [hfind] at h
    dsimp only at h ⊢
    by_cases hreached : record.name = target.name ∧ record.sourceKey = target.sourceKey
    · rw [if_pos hreached] at h ⊢
      cases h
      exact ⟨rfl, .inr rfl⟩
    · rw [if_neg hreached] at h ⊢
      obtain ⟨hvalid, hplace⟩ := check_bind.mp h
      cases hplace
      exact runs_putRecord (s := { s with records := current }) hvalid

lemma runs_applyJournal {final : List ProjectRecord}
    (h : applyProjectNameMigration s.records targets = .ok final) :
    machine.Runs (applyJournal targets) s (some (.ok ())) { s with records := final } := by
  obtain ⟨records, hlist, hfold⟩ := of_bind_ok h
  refine Machine.Runs.bind (runs_listRecords hlist) ?_
  have hloop : ∀ (targets : List MigrationTarget) (current : List ProjectRecord),
      targets.foldlM (applyTarget records) current = .ok final →
      machine.Runs (targets.forM (writeTarget records)) { s with records := current }
        (some (.ok ())) { s with records := final } := by
    intro targets
    induction targets with
    | nil =>
      intro current h
      cases h
      exact ⟨rfl, .inr rfl⟩
    | cons target targets ih =>
      intro current h
      obtain ⟨next, hnext, h⟩ := of_bind_ok h
      exact Machine.Runs.bind (runs_writeTarget hnext) (ih next h)
  exact hloop targets s.records hfold

lemma runs_registerPlanned {planned : List ProjectRecord} (final : List ProjectRecord)
    (hne : targets ≠ [])
    (hcanonical : validateCanonicalMigrationTargets (importOrder planned) targets = .ok ())
    (hjournal : validateProjectNameMigration targets = .ok ())
    (happly : applyProjectNameMigration s.records targets = .ok final)
    (hrecord : (record.migrated targets).validate (record.migrated targets).projectID = .ok ()) :
    machine.Runs (registerPlanned planned targets record) s (some (.ok ()))
      ⟨place final (record.migrated targets), s.reservations, none⟩ := by
  rw [registerPlanned, if_neg hne, hcanonical]
  refine Machine.Runs.bind (p := Code.lift (.ok ())) ⟨rfl, .inr rfl⟩ ?_
  refine Machine.Runs.bind (v := ()) (t := { s with journal := some targets }) ?_ ?_
  · rw [writeProjectNameMigration, hjournal]
    exact .inr ⟨(), _, rfl, rfl, .inr rfl⟩
  · refine Machine.Runs.bind (runs_applyJournal happly) (Machine.Runs.bind
      (runs_putRecord hrecord) ?_)
    exact .inr ⟨(), _, rfl, rfl, .inr rfl⟩

/-- A call that finds a new project when nothing is reserved. -/
lemma runs_convergeObserved {t : Disk} (now : ℤ) {observed : ProjectRecord} {sshHost : Bytes}
    {fuel : ℕ} (hnew : s.records.find? (·.projectID = observed.projectID) = none)
    (hreserved : s.reservations = [])
    (hrecord : (observedRecord observed sshHost).validate observed.projectID = .ok ())
    (hlist : listUnlocked s.records = .ok records)
    (hcount : (plannedRecords records (observedRecord observed sshHost) [] sshHost).length ≤ 2 ^ 48)
    (hplan : planProjectNameMigration fuel
      (plannedRecords records (observedRecord observed sshHost) [] sshHost) = some targets)
    (hrun : machine.Runs (registerPlanned
      (plannedRecords records (observedRecord observed sshHost) [] sshHost) targets
      (observedRecord observed sshHost)) s (some (.ok ())) t) :
    machine.Runs (convergeObserved now observed sshHost) s (some (.ok ())) t := by
  have hread : machine.Runs (readRecord observed.projectID) s (some (.ok none)) s := by
    refine .inr ⟨s, s, ⟨rfl, rfl⟩, ?_⟩
    dsimp only [Code.bind]
    rw [hnew]
    exact ⟨rfl, .inr rfl⟩
  have hreservations : machine.Runs (readReservations now) s (some (.ok [])) s := by
    refine .inr ⟨s, s, ⟨rfl, rfl⟩, ?_⟩
    show machine.Runs (pruneReservations now s.reservations >>= _) s _ s
    rw [hreserved]
    exact ⟨rfl, .inr rfl⟩
  refine Machine.Runs.bind hread (Machine.Runs.bind hreservations ?_)
  show machine.Runs (Code.lift ((observedRecord observed sshHost).validate _) >>= _) s _ t
  rw [show (observedRecord observed sshHost).validate (observedRecord observed sshHost).projectID
    = .ok () from hrecord]
  refine Machine.Runs.bind (p := Code.lift (.ok ())) ⟨rfl, .inr rfl⟩
    (Machine.Runs.bind (runs_listRecords hlist) ?_)
  exact .inr ⟨targets, s, ⟨rfl, hcount, fuel, hplan⟩, hrun⟩

/-- A registered project. -/
def registeredRecord : ProjectRecord :=
  legacyRecord (str "legacy-b") (str "Demo") (str "2026-02-01T00:00:00Z")

/-- A project that is found under a name of the same key. -/
def foundRecord (importedAt : Bytes) : ProjectRecord :=
  legacyRecord (str "legacy-a") (str "demo") importedAt

def registeredDisk : Disk := ⟨[registeredRecord], [], none⟩

lemma registeredDisk_unambiguous : Unambiguous registeredDisk.records := by
  refine ⟨?_, ?_, ?_⟩ <;> simp only [registeredDisk, List.forall_mem_singleton, implies_true]
  decide

lemma listUnlocked_registered :
    listUnlocked registeredDisk.records = .ok [registeredRecord] := by decide +kernel

/-- What is planned when the project that is found is the older one. -/
lemma plan_older : planProjectNameMigration 7 (plannedRecords [registeredRecord]
    (observedRecord (foundRecord (str "2026-01-01T00:00:00Z")) (str "yard")) [] (str "yard"))
    = some [⟨str "legacy-b", str "demo-2", []⟩] :=
  plan_pair
    (observedRecord (foundRecord (str "2026-01-01T00:00:00Z")) (str "yard")) registeredRecord
    (str "demo") (str "demo-2") (by decide +kernel) (by decide +kernel)
    (by decide +kernel) (by decide +kernel)

/-- What is planned when the project that is found is the newer one. -/
lemma plan_newer : planProjectNameMigration 7 (plannedRecords [registeredRecord]
    (observedRecord (foundRecord (str "2026-03-01T00:00:00Z")) (str "yard")) [] (str "yard"))
    = some [⟨str "legacy-a", str "Demo-2", []⟩] :=
  plan_pair registeredRecord
    (observedRecord (foundRecord (str "2026-03-01T00:00:00Z")) (str "yard"))
    (str "Demo") (str "Demo-2") (by decide +kernel) (by decide +kernel)
    (by decide +kernel) (by decide +kernel)

end Subyard.State
