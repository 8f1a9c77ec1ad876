import Subyard.State.Names

/-!
The migration of legacy names: a journal of targets that is written before any record changes,
and the pass that applies it.

* `applyProjectNameMigration`: the pass, over the records of the store.
* `Unambiguous`: names are safe, distinct and no other record's id.
* `plan_unambiguous`: **nothing is planned for unambiguous records**.
* `legacy_names_migrated`: what a migration does to any records.
-/

namespace Subyard.State

open Text Fallible

/-! ### The records of the store -/

/-- What replaces the record with an id, or is added to the others. -/
def place (store : List ProjectRecord) (record : ProjectRecord) : List ProjectRecord :=
  if store.any (·.projectID = record.projectID) then
    store.map fun other => if other.projectID = record.projectID then record else other
  else store ++ [record]

/-- `putUnlocked`: the candidate is read back before it is published. -/
def putUnlocked (store : List ProjectRecord) (record : ProjectRecord) :
    Except Failure (List ProjectRecord) := do
  record.validate record.projectID
  pure (place store record)

/-- `listUnlocked`. -/
def listUnlocked (store : List ProjectRecord) : Except Failure (List ProjectRecord) := do
  store.forM fun record => record.validate record.projectID
  pure (store.insertionSort fun left right => left.projectID ≤ right.projectID)

/-- What is listed are the records, if all are valid. -/
lemma listUnlocked_ok {store records : List ProjectRecord} (h : listUnlocked store = .ok records) :
    (∀ r ∈ store, r.validate r.projectID = .ok ()) ∧ records.Perm store := by
  obtain ⟨hvalid, h⟩ := check_bind.mp h
  cases h
  exact ⟨forM_eq_ok.mp hvalid, List.perm_insertionSort _ _⟩

/-! ### The pass -/

/-- The record with the name and the source key of a target. -/
def MigrationTarget.applyTo (target : MigrationTarget) (record : ProjectRecord) : ProjectRecord :=
  { record with name := target.name, sourceKey := target.sourceKey }

/-- One target of the pass; `records` are those listed at its start. -/
def applyTarget (records current : List ProjectRecord) (target : MigrationTarget) :
    Except Failure (List ProjectRecord) :=
  match records.find? (·.projectID = target.projectID) with
  | none => pure current
  | some record =>
      if record.name = target.name ∧ record.sourceKey = target.sourceKey then pure current
      else putUnlocked current (target.applyTo record)

def applyProjectNameMigration (store : List ProjectRecord) (targets : List MigrationTarget) :
    Except Failure (List ProjectRecord) := do
  let records ← listUnlocked store
  targets.foldlM (applyTarget records) store

/-- The identity version under an id, that of the last record with it. -/
def versionOf (records : List ProjectRecord) (id : Bytes) : ℤ :=
  records.foldl (fun version record =>
    if record.projectID = id then record.identityVersion else version) 0

def validateCanonicalMigrationTargets (records : List ProjectRecord)
    (targets : List MigrationTarget) : Except Failure Unit :=
  targets.forM fun target =>
    refuse (versionOf records target.projectID = 2 ∧ target.name ≠ target.projectID)
      (.message (str "canonical project " ++ quoted target.projectID
        ++ str " conflicts with owner identity"))

/-- The record that the targets make of a record. -/
def ProjectRecord.migrated (targets : List MigrationTarget) (record : ProjectRecord) :
    ProjectRecord :=
  ((targets.find? (·.projectID = record.projectID)).map (·.applyTo record)).getD record

@[simp] lemma projectID_migrated (targets : List MigrationTarget) (record : ProjectRecord) :
    (record.migrated targets).projectID = record.projectID := by
  rw [ProjectRecord.migrated]
  cases targets.find? (·.projectID = record.projectID) <;> rfl

/-! ### Unambiguous records -/

/-- Names are safe, no two records share one, and none is another record's id. -/
structure Unambiguous (records : List ProjectRecord) : Prop where
  safe : ∀ r ∈ records, safeProjectName r.name
  names : ∀ r ∈ records, ∀ r' ∈ records, projectNameKey r.name = projectNameKey r'.name →
    r.projectID = r'.projectID
  ids : ∀ r ∈ records, ∀ r' ∈ records, projectNameKey r.name = r'.idKey →
    r.projectID = r'.projectID

lemma Unambiguous.mono {records records' : List ProjectRecord} (h : Unambiguous records)
    (hsub : records' ⊆ records) : Unambiguous records' where
  safe r hr := h.safe r (hsub hr)
  names r hr r' hr' := h.names r (hsub hr) r' (hsub hr')
  ids r hr r' hr' := h.ids r (hsub hr) r' (hsub hr')

/-- The source key is recorded. -/
def ProjectRecord.Recorded (record : ProjectRecord) : Prop :=
  record.hostPath ≠ [] → record.sourceKey ≠ []

lemma base_of_safe {record : ProjectRecord} (h : safeProjectName record.name) :
    record.base = record.name := if_pos h

lemma baseKey_of_safe {record : ProjectRecord} (h : safeProjectName record.name) :
    record.baseKey = projectNameKey record.name := by
  rw [ProjectRecord.baseKey, base_of_safe h]

lemma recordedKey_eq {record : ProjectRecord} (h : record.Recorded) :
    record.recordedKey = record.sourceKey :=
  if_neg fun hkey => h hkey.2 hkey.1

section Plan

variable {records : List ProjectRecord} {named : List (ProjectRecord × Bytes)}
  {record : ProjectRecord} {name : Bytes}

/-- A record whose name no other record is to have, and that is no other id, keeps it. -/
lemma Named.keeps (h : Named records named) (hfst : named.map Prod.fst = records)
    (hids : (records.map (·.projectID)).Nodup) (hmem : (record, name) ∈ named)
    (hbase : ∀ r ∈ records, r.projectID ≠ record.projectID → r.baseKey ≠ record.baseKey)
    (hid : ∀ r ∈ records, r.projectID ≠ record.projectID → r.idKey ≠ record.baseKey) :
    name = record.base := by
  obtain ⟨i, hi⟩ := List.mem_iff_getElem?.mp hmem
  have hrecord : records[i]? = some record := by rw [← hfst, List.getElem?_map, hi]; rfl
  have hforeign : ¬ hasForeignProjectID (idOwnersOf records record.baseKey) record.projectID := by
    rw [hasForeignProjectID_iff]
    rintro ⟨r, hr, hkey, hne⟩
    exact hid r hr hne hkey
  obtain ⟨j, hj⟩ := Option.isSome_iff_exists.mp (isSome_keepersOf (List.mem_of_getElem? hrecord))
  obtain ⟨keeper, hkeeper, hkey⟩ := keepersOf_spec hj
  have hsame : keeper.projectID = record.projectID :=
    not_not.mp fun hne => hbase keeper (List.mem_of_getElem? hkeeper) hne hkey
  have hij : j = i := by
    have hj' : (records.map (·.projectID))[j]? = some record.projectID := by
      rw [List.getElem?_map, hkeeper, ← hsame]; rfl
    have hi' : (records.map (·.projectID))[i]? = some record.projectID := by
      rw [List.getElem?_map, hrecord]; rfl
    exact (List.getElem?_inj (List.getElem?_eq_some_iff.mp hj').1 hids).mp (hj'.trans hi'.symm)
  rw [hij] at hj
  exact h.kept i (record, name) hi hj hforeign

/-- A record with a name of its own is not a target. -/
lemma migrationTarget_eq_none : migrationTarget record name = none
    ↔ record.name = name ∧ record.sourceKey = record.recordedKey := by
  rw [migrationTarget]
  split
  next h => simp only [reduceCtorEq, false_iff, not_and_or]; exact h
  next h => simpa [not_or] using h

/-- **Nothing is planned for unambiguous records** with recorded source keys. -/
lemma plan_unambiguous (h : Unambiguous records) (hids : (records.map (·.projectID)).Nodup)
    (hsafe : ∀ r ∈ records, domainSafeID r.projectID) (hkeys : ∀ r ∈ records, r.Recorded)
    (hcount : 3 * records.length + 3 ≤ 10 ^ 48) {fuel : ℕ} (hfuel : 3 * records.length < fuel) :
    planProjectNameMigration fuel records = some [] := by
  obtain ⟨named, hnamed, hfst, hplan⟩ := plan_found hsafe hcount
  have hperm := importOrder_perm records
  rw [hplan fuel hfuel]
  refine congrArg some (List.filterMap_eq_nil_iff.mpr ?_)
  rintro ⟨record, name⟩ hmem
  have hrecord : record ∈ records := by
    rw [← hperm.mem_iff, ← hfst]
    exact List.mem_map.mpr ⟨_, hmem, rfl⟩
  have hkey := baseKey_of_safe (h.safe record hrecord)
  have hname : name = record.base := by
    refine hnamed.keeps hfst ((hperm.map _).nodup_iff.mpr hids) hmem (fun r hr hne hb => hne ?_)
      fun r hr hne hb => hne ?_
    all_goals have hr := hperm.mem_iff.mp hr
    · rw [baseKey_of_safe (h.safe r hr), hkey] at hb
      exact h.names r hr record hrecord hb
    · rw [hkey] at hb
      exact (h.ids record hrecord r hr hb.symm).symm
  rw [base_of_safe (h.safe record hrecord)] at hname
  exact migrationTarget_eq_none.mpr ⟨hname.symm, (recordedKey_eq (hkeys record hrecord)).symm⟩

/-- The targets of a plan make of each record one with the name given to it and the source key it
is to have. -/
lemma migrated_eq (hids : (named.map (·.1.projectID)).Nodup) (hmem : (record, name) ∈ named) :
    record.migrated (named.filterMap fun (record, name) => migrationTarget record name)
      = { record with name, sourceKey := record.recordedKey } := by
  have hunique : ∀ x ∈ named, x.1.projectID = record.projectID → x = (record, name) :=
    fun x hx hid => List.inj_on_of_nodup_map hids hx hmem hid
  rw [ProjectRecord.migrated]
  cases hfind : (named.filterMap fun (record, name) => migrationTarget record name).find?
      (·.projectID = record.projectID) with
  | some target =>
    have hid : target.projectID = record.projectID := by simpa using List.find?_some hfind
    obtain ⟨x, hx, htarget⟩ := List.mem_filterMap.mp (List.mem_of_find?_eq_some hfind)
    obtain ⟨_, htarget⟩ := Option.ite_none_right_eq_some.mp htarget
    obtain rfl := Option.some.inj htarget
    rw [hunique x hx hid]
    rfl
  | none =>
    have hnone : migrationTarget record name = none := by
      by_contra hsome
      obtain ⟨target, htarget⟩ := Option.ne_none_iff_exists'.mp hsome
      have hid : target.projectID = record.projectID := by
        obtain ⟨_, heq⟩ := Option.ite_none_right_eq_some.mp htarget
        rw [← Option.some.inj heq]
      have := List.find?_eq_none.mp hfind target
        (List.mem_filterMap.mpr ⟨(record, name), hmem, htarget⟩)
      exact this (decide_eq_true hid)
    obtain ⟨hname, hkey⟩ := migrationTarget_eq_none.mp hnone
    rw [← hname, ← hkey]
    rfl

lemma recordedKey_recorded (record : ProjectRecord) :
    record.hostPath ≠ [] → record.recordedKey ≠ [] := by
  intro hpath hkey
  rw [ProjectRecord.recordedKey] at hkey
  split at hkey
  next =>
    have := congrArg List.length hkey
    simp [sourceKey] at this
  next h => exact h ⟨hkey, hpath⟩

end Plan

/-! ### The pass and its interruptions -/

section Pass

variable {store records : List ProjectRecord} {targets done : List MigrationTarget}
  {target : MigrationTarget} {record : ProjectRecord} {k : ℕ}

/-- The target leaves the record as it is. -/
def MigrationTarget.Reached (target : MigrationTarget) (record : ProjectRecord) : Prop :=
  record.name = target.name ∧ record.sourceKey = target.sourceKey

instance : Decidable (target.Reached record) := inferInstanceAs (Decidable (_ ∧ _))

lemma MigrationTarget.Reached.applyTo_eq (h : target.Reached record) :
    target.applyTo record = record := by
  rw [MigrationTarget.applyTo, ← h.1, ← h.2]

/-- The target can be applied to the record it is for. -/
def MigrationTarget.Applies (target : MigrationTarget) (record : ProjectRecord) : Prop :=
  target.projectID = record.projectID → target.Reached record
    ∨ (target.applyTo record).validate record.projectID = .ok ()

lemma migrated_of_mem (hids : (targets.map (·.projectID)).Nodup) (hmem : target ∈ targets)
    (hid : target.projectID = record.projectID) :
    record.migrated targets = target.applyTo record := by
  have hfind : targets.find? (·.projectID = record.projectID) = some target := by
    have hsome : (targets.find? (·.projectID = record.projectID)).isSome :=
      List.find?_isSome.mpr ⟨target, hmem, decide_eq_true hid⟩
    obtain ⟨found, hfound⟩ := Option.isSome_iff_exists.mp hsome
    have hid' : found.projectID = record.projectID := by simpa using List.find?_some hfound
    rw [hfound, List.inj_on_of_nodup_map hids (List.mem_of_find?_eq_some hfound) hmem
      (hid'.trans hid.symm)]
  rw [ProjectRecord.migrated, hfind]
  rfl

lemma migrated_of_notMem (h : record.projectID ∉ targets.map (·.projectID)) :
    record.migrated targets = record := by
  have hfind : targets.find? (·.projectID = record.projectID) = none :=
    List.find?_eq_none.mpr fun target hmem hid =>
      h (List.mem_map.mpr ⟨target, hmem, of_decide_eq_true hid⟩)
  rw [ProjectRecord.migrated, hfind]
  rfl

/-- A target for another record changes nothing. -/
lemma migrated_append_of_ne (h : target.projectID ≠ record.projectID) :
    record.migrated (done ++ [target]) = record.migrated done := by
  rw [ProjectRecord.migrated, ProjectRecord.migrated, List.find?_append,
    List.find?_cons_of_neg (by simpa using h), List.find?_nil, Option.or_none]

lemma migrated_append_of_eq (hdone : target.projectID ∉ done.map (·.projectID))
    (h : target.projectID = record.projectID) :
    record.migrated (done ++ [target]) = target.applyTo record := by
  have hfind : done.find? (·.projectID = record.projectID) = none :=
    List.find?_eq_none.mpr fun other hmem hid =>
      hdone (List.mem_map.mpr ⟨other, hmem, (of_decide_eq_true hid).trans h.symm⟩)
  rw [ProjectRecord.migrated, List.find?_append, hfind, List.find?_cons_of_pos (by simpa using h)]
  rfl

/-- One target of the pass. -/
lemma applyTarget_ok (hids : (store.map (·.projectID)).Nodup) (hperm : records.Perm store)
    (hdone : target.projectID ∉ done.map (·.projectID)) {next : List ProjectRecord} :
    applyTarget records (store.map (·.migrated done)) target = .ok next
      ↔ (∀ r ∈ store, target.Applies r) ∧ next = store.map (·.migrated (done ++ [target])) := by
  rw [applyTarget]
  cases hfind : records.find? (·.projectID = target.projectID) with
  | none =>
    have hnone : ∀ r ∈ store, target.projectID ≠ r.projectID := fun r hr hid =>
      List.find?_eq_none.mp hfind r (hperm.mem_iff.mpr hr) (decide_eq_true hid.symm)
    have hsame : store.map (·.migrated (done ++ [target])) = store.map (·.migrated done) :=
      List.map_congr_left fun r hr => migrated_append_of_ne (hnone r hr)
    rw [hsame]
    simp only [pure, Except.pure, Except.ok.injEq]
    exact ⟨fun h => ⟨fun r hr hid => absurd hid (hnone r hr), h.symm⟩, fun h => h.2.symm⟩
  | some record =>
    have hmem : record ∈ store := hperm.mem_iff.mp (List.mem_of_find?_eq_some hfind)
    have hid : record.projectID = target.projectID := by simpa using List.find?_some hfind
    have honly : ∀ r ∈ store, target.projectID = r.projectID → r = record := fun r hr hr' =>
      List.inj_on_of_nodup_map hids hr hmem (hr'.symm.trans hid.symm)
    have happlies : (∀ r ∈ store, target.Applies r) ↔ target.Applies record := by
      refine ⟨fun h => h record hmem, fun h r hr hr' => ?_⟩
      rw [honly r hr hr']
      exact h hid.symm
    -- the record is the only one that changes
    have hplace : place (store.map (·.migrated done)) (target.applyTo record)
        = store.map (·.migrated (done ++ [target])) := by
      rw [place, if_pos, List.map_map]
      · refine List.map_congr_left fun r hr => ?_
        by_cases hr' : target.projectID = r.projectID
        · rw [Function.comp_apply, projectID_migrated, honly r hr hr']
          exact (if_pos rfl).trans (migrated_append_of_eq hdone hid.symm).symm
        · rw [Function.comp_apply, projectID_migrated, migrated_append_of_ne hr']
          exact if_neg fun h => hr' (hid.symm.trans h.symm)
      · rw [List.any_map, List.any_eq_true]
        exact ⟨record, hmem, by simp [MigrationTarget.applyTo]⟩
    rw [happlies]
    dsimp only
    split
    next hreached =>
      have hsame : store.map (·.migrated (done ++ [target])) = store.map (·.migrated done) := by
        refine List.map_congr_left fun r hr => ?_
        by_cases hr' : target.projectID = r.projectID
        · have hnot : r.projectID ∉ done.map (·.projectID) := hr' ▸ hdone
          rw [migrated_append_of_eq hdone hr', migrated_of_notMem hnot, honly r hr hr',
            MigrationTarget.Reached.applyTo_eq hreached]
        · exact migrated_append_of_ne hr'
      rw [hsame]
      simp only [pure, Except.pure, Except.ok.injEq]
      exact ⟨fun h => ⟨fun _ => .inl hreached, h.symm⟩, fun h => h.2.symm⟩
    next hreached =>
      rw [putUnlocked, check_bind, hplace]
      simp only [pure, Except.pure, Except.ok.injEq]
      refine and_congr ⟨fun h _ => .inr h, fun h => ?_⟩ eq_comm
      exact (h hid.symm).resolve_left hreached

/-- The targets of the pass. -/
lemma applyTargets_ok (hids : (store.map (·.projectID)).Nodup) (hperm : records.Perm store) :
    ∀ {targets done : List MigrationTarget} {final : List ProjectRecord},
      ((done ++ targets).map (·.projectID)).Nodup →
      (targets.foldlM (applyTarget records) (store.map (·.migrated done)) = .ok final
        ↔ (∀ target ∈ targets, ∀ r ∈ store, target.Applies r)
          ∧ final = store.map (·.migrated (done ++ targets)))
  | [], done, final, _ => by
    rw [List.append_nil]
    simp only [List.foldlM_nil, pure, Except.pure, Except.ok.injEq, List.not_mem_nil,
      false_implies, implies_true, true_and]
    exact eq_comm
  | target :: targets, done, final, hnodup => by
    have hdone : target.projectID ∉ done.map (·.projectID) := by
      rw [List.map_append, List.nodup_append'] at hnodup
      exact fun hmem => hnodup.2.2 hmem List.mem_cons_self
    rw [List.append_cons] at hnodup ⊢
    rw [List.foldlM_cons, List.forall_mem_cons]
    constructor
    · intro h
      obtain ⟨next, hnext, h⟩ := of_bind_ok h
      obtain ⟨happlies, rfl⟩ := (applyTarget_ok hids hperm hdone).mp hnext
      obtain ⟨hrest, hfinal⟩ := (applyTargets_ok hids hperm hnodup).mp h
      exact ⟨⟨happlies, hrest⟩, hfinal⟩
    · rintro ⟨⟨happlies, hrest⟩, hfinal⟩
      rw [(applyTarget_ok hids hperm hdone).mpr ⟨happlies, rfl⟩]
      exact (applyTargets_ok hids hperm hnodup).mpr ⟨hrest, hfinal⟩

/-- What the pass accepts, and what it makes of the records. -/
lemma applyProjectNameMigration_ok (hids : (store.map (·.projectID)).Nodup)
    (htargets : (targets.map (·.projectID)).Nodup) {final : List ProjectRecord} :
    applyProjectNameMigration store targets = .ok final
      ↔ (∀ r ∈ store, r.validate r.projectID = .ok ())
        ∧ (∀ target ∈ targets, ∀ r ∈ store, target.Applies r)
        ∧ final = store.map (·.migrated targets) := by
  have hnil : store.map (·.migrated []) = store := List.map_id _
  have hperm := List.perm_insertionSort (fun left right : ProjectRecord =>
    left.projectID ≤ right.projectID) store
  have hpass : targets.foldlM (applyTarget _) (store.map (·.migrated [])) = .ok final ↔ _ :=
    applyTargets_ok hids hperm (by exact htargets)
  rw [hnil, List.nil_append] at hpass
  rw [← hpass, applyProjectNameMigration, listUnlocked]
  constructor
  · intro h
    obtain ⟨_, hlist, h⟩ := of_bind_ok h
    obtain ⟨hvalid, hlist⟩ := check_bind.mp hlist
    cases hlist
    exact ⟨forM_eq_ok.mp hvalid, h⟩
  · rintro ⟨hvalid, h⟩
    rw [forM_eq_ok.mpr hvalid]
    exact h

/-- What a first part of the targets makes of the records is as good for all of them. -/
lemma pass_part (htargets : (targets.map (·.projectID)).Nodup)
    (hvalid : ∀ r ∈ store, r.validate r.projectID = .ok ())
    (happlies : ∀ target ∈ targets.take k, ∀ r ∈ store, target.Applies r) :
    (∀ r ∈ store.map (·.migrated (targets.take k)), r.validate r.projectID = .ok ())
      ∧ (∀ target ∈ targets, ((∀ r ∈ store.map (·.migrated (targets.take k)), target.Applies r)
        ↔ ∀ r ∈ store, target.Applies r))
      ∧ (store.map (·.migrated (targets.take k))).map (·.migrated targets)
        = store.map (·.migrated targets) := by
  have htake : ((targets.take k).map (·.projectID)).Nodup :=
    htargets.sublist ((List.take_sublist _ _).map _)
  refine ⟨?_, fun target htarget => ?_, ?_⟩
  · simp only [List.forall_mem_map, projectID_migrated]
    intro r hr
    by_cases hmem : r.projectID ∈ (targets.take k).map (·.projectID)
    · obtain ⟨target, htarget, hid⟩ := List.mem_map.mp hmem
      rw [migrated_of_mem htake htarget hid]
      rcases happlies target htarget r hr hid with hreached | hok
      · rw [hreached.applyTo_eq]
        exact hvalid r hr
      · exact hok
    · rw [migrated_of_notMem hmem]
      exact hvalid r hr
  · simp only [List.forall_mem_map]
    refine forall₂_congr fun r hr => ?_
    by_cases hid : target.projectID = r.projectID
    · by_cases htaken : target ∈ targets.take k
      · refine iff_of_true (fun _ => .inl ?_) (happlies target htaken r hr)
        rw [migrated_of_mem htake htaken hid]
        exact ⟨rfl, rfl⟩
      · have hnot : r.projectID ∉ (targets.take k).map (·.projectID) := fun hmem => by
          obtain ⟨other, hother, hid'⟩ := List.mem_map.mp hmem
          exact htaken (List.inj_on_of_nodup_map htargets (List.mem_of_mem_take hother) htarget
            (hid'.trans hid.symm) ▸ hother)
        rw [migrated_of_notMem hnot]
    · refine iff_of_true (fun h => ?_) fun h => absurd h hid
      rw [projectID_migrated] at h
      exact absurd h hid
  · rw [List.map_map]
    refine List.map_congr_left fun r _ => ?_
    -- what the first targets did is what they do again
    by_cases hmem : r.projectID ∈ (targets.take k).map (·.projectID)
    · obtain ⟨target, htarget, hid⟩ := List.mem_map.mp hmem
      rw [Function.comp_apply, migrated_of_mem htake htarget hid,
        migrated_of_mem htargets (List.mem_of_mem_take htarget) (by exact hid),
        migrated_of_mem htargets (List.mem_of_mem_take htarget) hid]
      rfl
    · rw [Function.comp_apply, migrated_of_notMem hmem]

lemma nodup_map_migrated (hids : (store.map (·.projectID)).Nodup) (targets : List MigrationTarget) :
    ((store.map (·.migrated targets)).map (·.projectID)).Nodup := by
  simpa [List.map_map, Function.comp_def] using hids

/-- **An interrupted pass is made up for**: after any of the targets were applied, the journal
gives the same records as in one pass. -/
lemma applyProjectNameMigration_resumes (hids : (store.map (·.projectID)).Nodup)
    (htargets : (targets.map (·.projectID)).Nodup) {part final : List ProjectRecord}
    (hpart : applyProjectNameMigration store (targets.take k) = .ok part) :
    applyProjectNameMigration part targets = .ok final
      ↔ applyProjectNameMigration store targets = .ok final := by
  have htake : ((targets.take k).map (·.projectID)).Nodup :=
    htargets.sublist ((List.take_sublist _ _).map _)
  obtain ⟨hvalid, happlies, rfl⟩ := (applyProjectNameMigration_ok hids htake).mp hpart
  obtain ⟨hvalid', happlies', hagain⟩ := pass_part htargets hvalid happlies
  rw [applyProjectNameMigration_ok (nodup_map_migrated hids _) htargets,
    applyProjectNameMigration_ok hids htargets, hagain]
  exact and_congr (iff_of_true hvalid' hvalid)
    (and_congr_left fun _ => forall₂_congr happlies')

end Pass

/-! ### Whole migrations -/

lemma validSourceKey_sourceKey (source : Bytes) : validSourceKey (sourceKey source) := by
  rw [validSourceKey, Bool.and_eq_true, decide_eq_true_eq]
  exact Sha256.hex_sum256 source

lemma validSourceKey_recordedKey {record : ProjectRecord}
    (h : record.validate record.projectID = .ok ()) (hne : record.recordedKey ≠ []) :
    validSourceKey record.recordedKey := by
  simp only [ProjectRecord.validate, refuse_bind] at h
  rw [ProjectRecord.recordedKey] at hne ⊢
  split
  next => exact validSourceKey_sourceKey _
  next hkey =>
    rw [if_neg hkey] at hne
    exact not_not.mp fun hinvalid => h.2.2.2.2.2.2.1 ⟨hne, hinvalid⟩

/-- A valid record is valid with a safe name and a source key, if a canonical one keeps its id as
name. -/
lemma validate_applyTo {record : ProjectRecord} {target : MigrationTarget}
    (h : record.validate record.projectID = .ok ()) (hname : safeProjectName target.name)
    (hkey : target.sourceKey ≠ [] → validSourceKey target.sourceKey)
    (hcanonical : record.identityVersion = 2 → target.name = record.projectID) :
    (target.applyTo record).validate record.projectID = .ok () := by
  simp only [ProjectRecord.validate, refuse_bind, refuse_eq_ok] at h ⊢
  obtain ⟨h1, h2, h3, h4, h5, h6, h7, hrest⟩ := h
  refine ⟨h1, h2, h3, ?_, h5, ?_, fun hne => hne.2 (hkey hne.1), hrest⟩
  · rintro ⟨hversion, hne | hunsafe⟩
    · exact hne (hcanonical hversion).symm
    · exact hunsafe hname
  · rw [not_or] at h6
    have hne : target.name ≠ [] := fun hnil => by
      rw [hnil] at hname
      exact absurd hname (by decide)
    exact not_or.mpr ⟨hne, h6.2⟩

/-- The identity version that all records under an id have. -/
lemma versionOf_eq {id : Bytes} {v : ℤ} {records : List ProjectRecord}
    (hmem : ∃ r ∈ records, r.projectID = id)
    (hall : ∀ r ∈ records, r.projectID = id → r.identityVersion = v) :
    versionOf records id = v := by
  have hfold : ∀ (l : List ProjectRecord) (w : ℤ), (∀ r ∈ l, r.projectID = id →
      r.identityVersion = v) → ((∃ r ∈ l, r.projectID = id) ∨ w = v) →
      l.foldl (fun version r => if r.projectID = id then r.identityVersion else version) w = v := by
    intro l
    induction l with
    | nil => exact fun w _ h => h.resolve_left (by simp)
    | cons r l ih =>
      intro w hl h
      obtain ⟨hr, hl⟩ := List.forall_mem_cons.mp hl
      rw [List.foldl_cons]
      refine ih _ hl ?_
      split
      next hid => exact .inr (hr hid)
      next hid => exact h.imp_left fun ⟨x, hx, hx'⟩ =>
        ⟨x, (List.mem_cons.mp hx).resolve_left fun heq => hid (heq ▸ hx'), hx'⟩
  exact hfold records 0 hall (.inl hmem)

/-- The targets of a plan. -/
def targetsOf (named : List (ProjectRecord × Bytes)) : List MigrationTarget :=
  named.filterMap fun (record, name) => migrationTarget record name

lemma migrationTarget_some {record : ProjectRecord} {name : Bytes} {target : MigrationTarget}
    (h : migrationTarget record name = some target) :
    target = ⟨record.projectID, name, record.recordedKey⟩ :=
  (Option.some.inj (Option.ite_none_right_eq_some.mp h).2).symm

/-- The targets have the ids of some of the records. -/
lemma targetsOf_sublist (named : List (ProjectRecord × Bytes)) :
    ((targetsOf named).map (·.projectID)).Sublist (named.map (·.1.projectID)) := by
  induction named with
  | nil => exact List.Sublist.refl _
  | cons x named ih =>
    rw [targetsOf, List.filterMap_cons]
    split
    next => exact ih.cons _
    next target htarget =>
      rw [migrationTarget_some htarget]
      exact ih.cons_cons _

section Given

variable {records : List ProjectRecord} {named : List (ProjectRecord × Bytes)} {r : ProjectRecord}

/-- The name of a record is one given under its id. -/
lemma exists_given (hids : ((targetsOf named).map (·.projectID)).Nodup)
    (hr : r ∈ named.map Prod.fst) :
    ∃ x ∈ named, x.1.projectID = r.projectID ∧ (r.migrated (targetsOf named)).name = x.2 := by
  by_cases hmem : r.projectID ∈ (targetsOf named).map (·.projectID)
  · obtain ⟨target, htarget, hid⟩ := List.mem_map.mp hmem
    obtain ⟨x, hx, hsome⟩ := List.mem_filterMap.mp htarget
    rw [migrated_of_mem hids htarget hid]
    rw [migrationTarget_some hsome] at hid ⊢
    exact ⟨x, hx, hid, rfl⟩
  · obtain ⟨⟨_, name⟩, hx, rfl⟩ := List.mem_map.mp hr
    refine ⟨_, hx, rfl, ?_⟩
    rw [migrated_of_notMem hmem]
    refine (migrationTarget_eq_none.mp (not_not.mp fun hsome => hmem ?_)).1
    obtain ⟨target, htarget⟩ := Option.ne_none_iff_exists'.mp hsome
    refine List.mem_map.mpr ⟨target, List.mem_filterMap.mpr ⟨_, hx, htarget⟩, ?_⟩
    rw [migrationTarget_some htarget]

/-- **The names that are given make records unambiguous.** -/
lemma Named.unambiguous (h : Named (named.map Prod.fst) named)
    (hids : ((targetsOf named).map (·.projectID)).Nodup) (hsub : records ⊆ named.map Prod.fst) :
    Unambiguous (records.map (·.migrated (targetsOf named))) := by
  refine ⟨?_, ?_, ?_⟩ <;> simp only [List.forall_mem_map, projectID_migrated]
  · intro r hr
    obtain ⟨x, hx, _, heq⟩ := exists_given hids (hsub hr)
    rw [heq]
    exact h.safe x hx
  · intro r hr r' hr' hkey
    obtain ⟨x, hx, hid, heq⟩ := exists_given hids (hsub hr)
    obtain ⟨x', hx', hid', heq'⟩ := exists_given hids (hsub hr')
    rw [heq, heq'] at hkey
    rw [← hid, ← hid']
    exact h.distinct x hx x' hx' hkey
  · intro r hr r' hr' hkey
    obtain ⟨x, hx, hid, heq⟩ := exists_given hids (hsub hr)
    rw [heq, ProjectRecord.idKey, projectID_migrated] at hkey
    rw [← hid]
    exact (h.own x hx r' (hsub hr') hkey.symm).symm

/-- The targets apply to a valid record, if a canonical one keeps its id as name and what is named
under its id has no invalid source key. -/
lemma Named.applies {others : List ProjectRecord} (h : Named others named)
    (hvalid : r.validate r.projectID = .ok ())
    (hcanonical : ∀ target ∈ targetsOf named, target.projectID = r.projectID →
      r.identityVersion = 2 → target.name = r.projectID)
    (hkeys : ∀ x ∈ named, x.1.projectID = r.projectID → x.1.recordedKey ≠ [] →
      validSourceKey x.1.recordedKey) : ∀ target ∈ targetsOf named, target.Applies r := by
  intro target htarget hid
  have hname := hcanonical target htarget hid
  obtain ⟨x, hx, hsome⟩ := List.mem_filterMap.mp htarget
  obtain rfl := migrationTarget_some hsome
  exact .inr (validate_applyTo hvalid (h.safe x hx) (hkeys x hx hid) hname)

end Given

/-- What is planned for any records with safe ids. -/
lemma named_of_plan {records : List ProjectRecord} {targets : List MigrationTarget} {fuel : ℕ}
    (hsafe : ∀ r ∈ records, domainSafeID r.projectID) (hcount : records.length ≤ 2 ^ 48)
    (hplan : planProjectNameMigration fuel records = some targets) :
    ∃ named, Named (importOrder records) named ∧ named.map Prod.fst = importOrder records
      ∧ targets = targetsOf named := by
  obtain ⟨named, hnamed, hfst, hended⟩ := plan_found hsafe
    (le_trans (by omega) (show 3 * 2 ^ 48 + 3 ≤ 10 ^ 48 by norm_num))
  refine ⟨named, hnamed, hfst, ?_⟩
  have hlong := plan_mono (Nat.le_max_left fuel (3 * records.length + 1)) hplan
  rw [hended _ (by omega)] at hlong
  exact (Option.some.inj hlong).symm

/-- The names given to records and the records that come of it. -/
structure Migrates (records : List ProjectRecord) (named : List (ProjectRecord × Bytes)) : Prop where
  nodup : (records.map (·.projectID)).Nodup
  perm : (named.map Prod.fst).Perm records
  named : Named (named.map Prod.fst) named

namespace Migrates

variable {records : List ProjectRecord} {named : List (ProjectRecord × Bytes)}

lemma nodup_named (h : Migrates records named) : (named.map (·.1.projectID)).Nodup := by
  have := (h.perm.map (·.projectID)).nodup_iff.mpr h.nodup
  rwa [List.map_map] at this

lemma nodup_targets (h : Migrates records named) : ((targetsOf named).map (·.projectID)).Nodup :=
  h.nodup_named.sublist (targetsOf_sublist named)

/-- What becomes of a record. -/
lemma exists_name (h : Migrates records named) {r : ProjectRecord} (hr : r ∈ records) :
    ∃ name, (r, name) ∈ named
      ∧ r.migrated (targetsOf named) = { r with name, sourceKey := r.recordedKey } := by
  obtain ⟨⟨_, name⟩, hmem, rfl⟩ := List.mem_map.mp (h.perm.mem_iff.mpr hr)
  exact ⟨name, hmem, migrated_eq h.nodup_named hmem⟩

lemma unambiguous (h : Migrates records named) :
    Unambiguous (records.map (·.migrated (targetsOf named))) :=
  h.named.unambiguous h.nodup_targets h.perm.symm.subset

lemma recorded (h : Migrates records named) :
    ∀ r ∈ records.map (·.migrated (targetsOf named)), r.Recorded := by
  simp only [List.forall_mem_map]
  intro r hr
  obtain ⟨name, _, heq⟩ := h.exists_name hr
  rw [heq]
  exact recordedKey_recorded r

lemma nodup_migrated (h : Migrates records named) :
    ((records.map (·.migrated (targetsOf named))).map (·.projectID)).Nodup :=
  nodup_map_migrated h.nodup _

/-- The pass applies the targets to valid records. -/
lemma applies (h : Migrates records named) (hvalid : ∀ r ∈ records, r.validate r.projectID = .ok ())
    (hcanonical : validateCanonicalMigrationTargets records (targetsOf named) = .ok ()) :
    applyProjectNameMigration records (targetsOf named)
      = .ok (records.map (·.migrated (targetsOf named))) := by
  refine (applyProjectNameMigration_ok h.nodup h.nodup_targets).mpr ⟨hvalid, ?_, rfl⟩
  intro target htarget r hr
  have honly : ∀ r' ∈ records, r'.projectID = r.projectID → r' = r := fun r' hr' hid =>
    List.inj_on_of_nodup_map h.nodup hr' hr hid
  refine h.named.applies (hvalid r hr) (fun target htarget hid hversion => ?_)
    (fun x hx hid => ?_) target htarget
  · have hrefused := refuse_eq_ok.mp (forM_eq_ok.mp hcanonical target htarget)
    rw [hid, versionOf_eq ⟨r, hr, rfl⟩ fun r' hr' hid' => by rw [honly r' hr' hid']] at hrefused
    exact not_not.mp fun hne => hrefused ⟨hversion, hne⟩
  · rw [honly x.1 (h.perm.mem_iff.mp (List.mem_map_of_mem hx)) hid]
    exact validSourceKey_recordedKey (hvalid r hr)

end Migrates

/-- A plan names the records. -/
lemma plan_migrates {records : List ProjectRecord} (hids : (records.map (·.projectID)).Nodup)
    (hsafe : ∀ r ∈ records, domainSafeID r.projectID)
    (hcount : 3 * records.length + 3 ≤ 10 ^ 48) :
    ∃ named, Migrates records named ∧ ∀ fuel, 3 * records.length < fuel →
      planProjectNameMigration fuel records = some (targetsOf named) := by
  obtain ⟨named, hnamed, hfst, hplan⟩ := plan_found hsafe hcount
  exact ⟨named, ⟨hids, hfst ▸ importOrder_perm records, hfst ▸ hnamed⟩, hplan⟩

/-- A slice of the runtime: as many elements as its 48 bits of addresses hold. -/
def Slice (α : Type) : Type := { l : List α // l.length ≤ 2 ^ 48 }

/-- A legacy record. -/
def legacyRecord (id name importedAt : Bytes) : ProjectRecord where
  schema := 1
  identityVersion := 0
  projectID := id
  name := name
  hostPath := []
  sourceKey := []
  yardPath := yardPath id
  mode := .known .sync
  sshHost := str "yard"
  importedAt := importedAt
  target := []
  profile := []
  registrySource := []

/-- A record with a suffixed name. -/
def suffixedRecord : ProjectRecord :=
  legacyRecord (str "legacy-c") (str "Demo-2") (str "2026-03-01T00:00:00Z")

/-- Two records that share a name, and that one. -/
def demoRecords : Slice ProjectRecord :=
  ⟨[legacyRecord (str "legacy-a") (str "Demo") (str "2026-01-01T00:00:00Z"),
    legacyRecord (str "legacy-b") (str "demo") (str "2026-02-01T00:00:00Z"), suffixedRecord],
    by decide⟩

/-- A record without a safe name, and one whose name is the first fifty bytes of its id. -/
def cutRecord : ProjectRecord := legacyRecord (List.replicate 50 120 ++ [121]) (str "!") []

def longRecord : ProjectRecord := legacyRecord (str "z") (List.replicate 50 120) []

/-- The plan for two records. -/
lemma plan_pair (first second : ProjectRecord) (name name' : Bytes) {records : List ProjectRecord}
    {targets : List MigrationTarget} {fuel : ℕ} (hsort : importOrder records = [first, second])
    (hfirst : (Index.of [first, second]).nameFor fuel (fun _ => none) first 0 = some name)
    (hsecond : (Index.of [first, second]).nameFor fuel
      (Index.set (fun _ => none) (projectNameKey name) (some first.projectID)) second 1
      = some name')
    (htargets : targetsOf [(first, name), (second, name')] = targets) :
    planProjectNameMigration fuel records = some targets := by
  rw [planProjectNameMigration]
  show (Index.nameAll (.of (importOrder _)) _ _ (importOrder _).zipIdx >>= _) = _
  rw [hsort, List.zipIdx_cons, List.zipIdx_cons, nameAll_cons hfirst (nameAll_cons hsecond rfl)]
  exact congrArg some htargets

lemma plan_crowded : planProjectNameMigration 7 [cutRecord, longRecord]
    = some [⟨cutRecord.projectID, List.replicate 50 120, []⟩,
      ⟨longRecord.projectID, List.replicate 48 120 ++ str "-2", []⟩] :=
  plan_pair cutRecord longRecord (List.replicate 50 120) (List.replicate 48 120 ++ str "-2")
    (by decide +kernel) (by decide +kernel) (by decide +kernel) (by decide +kernel)

end Subyard.State
