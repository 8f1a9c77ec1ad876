import Subyard.Library.Closure
import Subyard.Telemetry.Store

/-!
The hierarchy of a run: the run with the runs below it, by the parents that runs have recorded.

* `descendantRuns`: the recursive query, its window and the check for a cycle.
* `ValidRuns`: runs are stored under valid identities.
* `hierarchy`: the runs from which a run is reachable by parents.
* `descendantRuns_spec`: **the query returns the hierarchy, or reports a cycle in it**, as long as it
  has a thousand runs at most.
* `wide_exceeds`: a run with a thousand runs below it does not fit into the window.
-/

namespace Subyard.Telemetry

open Text Fallible Relation

/-! ### The query -/

section Query

variable (sqlText : Json → Bytes) (t : Tables) (run : Bytes)

/-- `json_extract(body,'$.parent_run_id')`; `sqlText` is the text of a value that is not a string. -/
def Row.parentRunID (row : Row) : Option Bytes :=
  match row.body.lookup (str "parent_run_id") with
  | none | some .null => none
  | some (.str s) => some s
  | some value => some (sqlText value)

/-- The recursive part of the query. -/
def childRuns : List Bytes :=
  (t.runs.sorted.filter fun x => x.2.parentRunID sqlText = some run).map Prod.fst

/-- `LIMIT`. -/
def selectLimit : ℕ := 1001

def selectedRuns : List Bytes := Closure.collect (childRuns sqlText t) selectLimit [run] [run]

/-- The rows of the query. -/
def hierarchyRows : List (Bytes × Bytes) :=
  (t.runs.sorted.filter fun x => x.1 ∈ selectedRuns sqlText t run).map fun x =>
    (x.1, (x.2.parentRunID sqlText).getD [])

def hierarchyWindow : ℕ := 1000

def windowExceeded : Fault := .plain (str "run hierarchy window exceeded (1000 runs)")

def hierarchyCycle : Fault := .plain (str "run hierarchy cycle")

/-- `parents`. -/
def parentsOf (rows : List (Bytes × Bytes)) : Dict Bytes Bytes :=
  rows.foldl (fun parents x => parents.insert x.1 x.2) ∅

def descendantRuns : Except Fault (List Bytes) := do
  let rows := hierarchyRows sqlText t run
  -- the loop over the rows stops at one that is beyond the window
  refuse (hierarchyWindow < rows.length) windowExceeded
  let parents := parentsOf rows
  refuse (parents.lookup (parents.getD run [])).isSome hierarchyCycle
  pure (rows.map Prod.fst)

end Query

/-! ### Identities -/

/-- Runs are stored under valid identities. -/
def ValidRuns (t : Tables) : Prop := ∀ id ∈ t.runs.keys, validID id

/-! ### Parents -/

section Parents

variable (sqlText : Json → Bytes) (t : Tables)

/-- A stored run with its recorded parent. -/
def Parent (id parent : Bytes) : Prop :=
  ∃ row, t.runs.lookup id = some row ∧ row.parentRunID sqlText = some parent

/-- The runs from which a run is reachable by parents, the run itself included. -/
def hierarchy (run : Bytes) : Set Bytes := {id | ReflTransGen (Parent sqlText t) id run}

/-- A run that comes back to itself. -/
def OnCycle (id : Bytes) : Prop := TransGen (Parent sqlText t) id id

variable {sqlText t} {run id : Bytes}

lemma rightUnique_parent : Relator.RightUnique (Parent sqlText t) := by
  rintro id p q ⟨row, hrow, hp⟩ ⟨row', hrow', hq⟩
  cases hrow.symm.trans hrow'
  exact Option.some.inj (hp.symm.trans hq)

lemma mem_childRuns : id ∈ childRuns sqlText t run ↔ Parent sqlText t id run := by
  simp only [childRuns, List.mem_map, List.mem_filter, decide_eq_true_eq]
  constructor
  · rintro ⟨x, ⟨hx, hparent⟩, rfl⟩
    exact ⟨x.2, Dict.mem_sorted.mp hx, hparent⟩
  · rintro ⟨row, hrow, hparent⟩
    exact ⟨(id, row), ⟨Dict.mem_sorted.mpr hrow, hparent⟩, rfl⟩

lemma reachable_eq_hierarchy :
    Closure.Reachable (childRuns sqlText t) run = hierarchy sqlText t run := by
  ext id
  have hswap : (fun a b => b ∈ childRuns sqlText t a) = Function.swap (Parent sqlText t) := by
    funext a b
    exact propext mem_childRuns
  show ReflTransGen _ run id ↔ _
  rw [hswap, reflTransGen_swap]
  rfl

lemma hierarchy_subset (hrun : run ∈ t.runs.keys) :
    hierarchy sqlText t run ⊆ (t.runs.keys : Set Bytes) := by
  intro id hid
  rcases ReflTransGen.cases_head hid with rfl | ⟨parent, ⟨row, hrow, -⟩, -⟩
  · exact hrun
  · exact Dict.mem_keys_of_lookup hrow

lemma finite_hierarchy (hrun : run ∈ t.runs.keys) : (hierarchy sqlText t run).Finite :=
  t.runs.keys.finite_toSet.subset (hierarchy_subset hrun)

/-- **A cycle in the hierarchy of a run goes through the run.** -/
lemma exists_onCycle_iff :
    (∃ id ∈ hierarchy sqlText t run, OnCycle sqlText t id) ↔ OnCycle sqlText t run :=
  ⟨fun ⟨_, hid, hcycle⟩ => Closure.cyclic_of_reaches rightUnique_parent hcycle hid,
    fun h => ⟨run, .refl, h⟩⟩

end Parents

/-! ### The rows of the query -/

section Rows

variable {sqlText : Json → Bytes} {t : Tables} {run : Bytes}

lemma selectedRuns_subset {id : Bytes} (h : id ∈ selectedRuns sqlText t run) :
    id ∈ hierarchy sqlText t run := by
  rw [← reachable_eq_hierarchy]
  exact Closure.collect_subset h

lemma rows_fst : (hierarchyRows sqlText t run).map Prod.fst
    = (t.runs.sorted.map Prod.fst).filter (· ∈ selectedRuns sqlText t run) := by
  rw [hierarchyRows, List.map_map, List.filter_map]
  rfl

lemma rows_nodup : ((hierarchyRows sqlText t run).map Prod.fst).Nodup := by
  rw [rows_fst]
  exact (Dict.sorted_nodup _).filter _

lemma mem_rows_fst (hrun : run ∈ t.runs.keys) {id : Bytes} :
    id ∈ (hierarchyRows sqlText t run).map Prod.fst ↔ id ∈ selectedRuns sqlText t run := by
  rw [rows_fst, List.mem_filter, decide_eq_true_eq]
  refine and_iff_right_of_imp fun hid => ?_
  obtain ⟨row, hrow⟩ := Dict.exists_lookup (hierarchy_subset hrun (selectedRuns_subset hid))
  exact List.mem_map.mpr ⟨(id, row), Dict.mem_sorted.mpr hrow, rfl⟩

lemma rows_length (hrun : run ∈ t.runs.keys) :
    (hierarchyRows sqlText t run).length = (selectedRuns sqlText t run).length := by
  have hperm : ((hierarchyRows sqlText t run).map Prod.fst).Perm (selectedRuns sqlText t run) :=
    (List.perm_ext_iff_of_nodup rows_nodup Closure.nodup_collect_root).mpr
      fun id => mem_rows_fst hrun
  rw [← hperm.length_eq, List.length_map]

/-- The window is exceeded by a hierarchy that is too large. -/
lemma descendantRuns_of_large (hrun : run ∈ t.runs.keys)
    (hlarge : hierarchyWindow < (hierarchy sqlText t run).ncard) :
    descendantRuns sqlText t run = .error windowExceeded := by
  have hlength : (hierarchyRows sqlText t run).length = selectLimit := by
    rw [rows_length hrun]
    refine Closure.collect_length ?_
    rw [reachable_eq_hierarchy]
    exact hlarge
  rw [descendantRuns, hlength]
  rfl

/-- A hierarchy that fits into the window is selected. -/
lemma mem_selectedRuns (hrun : run ∈ t.runs.keys)
    (hsmall : (hierarchy sqlText t run).ncard ≤ hierarchyWindow) {id : Bytes} :
    id ∈ selectedRuns sqlText t run ↔ id ∈ hierarchy sqlText t run := by
  rw [← reachable_eq_hierarchy] at hsmall ⊢
  refine Closure.mem_collect_iff ?_ (Nat.lt_succ_of_le hsmall)
  rw [reachable_eq_hierarchy]
  exact finite_hierarchy hrun

lemma rows_length_le (hrun : run ∈ t.runs.keys)
    (hsmall : (hierarchy sqlText t run).ncard ≤ hierarchyWindow) :
    (hierarchyRows sqlText t run).length ≤ hierarchyWindow := by
  rw [rows_length hrun, selectedRuns, ← Closure.collect_ncard]
  refine le_trans (Set.ncard_le_ncard (fun id hid => ?_) (finite_hierarchy hrun)) hsmall
  exact selectedRuns_subset hid

lemma lookup_parents {id parent : Bytes} :
    (parentsOf (hierarchyRows sqlText t run)).lookup id = some parent
      ↔ id ∈ selectedRuns sqlText t run ∧ ∃ row, t.runs.lookup id = some row
        ∧ (row.parentRunID sqlText).getD [] = parent := by
  have hmem : (id, parent) ∈ hierarchyRows sqlText t run ↔ id ∈ selectedRuns sqlText t run
      ∧ ∃ row, t.runs.lookup id = some row ∧ (row.parentRunID sqlText).getD [] = parent := by
    simp only [hierarchyRows, List.mem_map, List.mem_filter, decide_eq_true_eq, Prod.mk.injEq]
    constructor
    · rintro ⟨x, ⟨hx, hselected⟩, rfl, rfl⟩
      exact ⟨hselected, x.2, Dict.mem_sorted.mp hx, rfl⟩
    · rintro ⟨hselected, row, hrow, rfl⟩
      exact ⟨(id, row), ⟨Dict.mem_sorted.mpr hrow, hselected⟩, rfl, rfl⟩
  have hnodup : ((hierarchyRows sqlText t run).map Prod.fst).Nodup := rows_nodup
  obtain ⟨hfound, hnot⟩ := Dict.lookup_foldl_insert _ (∅ : Dict Bytes Bytes) hnodup id
  rw [← hmem, parentsOf]
  refine ⟨fun h => ?_, hfound parent⟩
  by_cases hid : id ∈ (hierarchyRows sqlText t run).map Prod.fst
  · obtain ⟨x, hx, rfl⟩ := List.mem_map.mp hid
    have heq := Option.some.inj ((hfound x.2 hx).symm.trans h)
    rwa [← heq]
  · rw [hnot hid, Finmap.lookup_empty] at h
    cases h

/-- **The test of the run's own parent finds every cycle.** -/
lemma parents_isSome_iff (hvalid : ValidRuns t) (hrun : run ∈ t.runs.keys)
    (hsmall : (hierarchy sqlText t run).ncard ≤ hierarchyWindow) :
    ((parentsOf (hierarchyRows sqlText t run)).lookup
        ((parentsOf (hierarchyRows sqlText t run)).getD run [])).isSome
      ↔ OnCycle sqlText t run := by
  have hsome : ∀ {id : Bytes}, ((parentsOf (hierarchyRows sqlText t run)).lookup id).isSome
      ↔ id ∈ hierarchy sqlText t run := by
    intro id
    rw [Option.isSome_iff_exists, ← mem_selectedRuns hrun hsmall]
    refine ⟨fun ⟨parent, h⟩ => (lookup_parents.mp h).1, fun h => ?_⟩
    obtain ⟨row, hrow⟩ := Dict.exists_lookup (hierarchy_subset hrun (selectedRuns_subset h))
    exact ⟨_, lookup_parents.mpr ⟨h, row, hrow, rfl⟩⟩
  obtain ⟨row, hrow⟩ := Dict.exists_lookup hrun
  have hself : run ∈ selectedRuns sqlText t run :=
    (mem_selectedRuns hrun hsmall).mpr ReflTransGen.refl
  rw [Dict.getD_of_lookup (lookup_parents.mpr ⟨hself, row, hrow, rfl⟩), hsome]
  cases hparent : row.parentRunID sqlText with
  | none =>
    refine iff_of_false (fun h => ?_) fun h => ?_
    · -- the empty text is no identity
      exact absurd (hvalid [] (hierarchy_subset hrun h)) (by decide)
    · obtain ⟨parent, ⟨row', hrow', hparent'⟩, -⟩ := TransGen.head'_iff.mp h
      cases hrow.symm.trans hrow'
      rw [hparent] at hparent'
      cases hparent'
  | some parent =>
    have hstep : Parent sqlText t run parent := ⟨row, hrow, hparent⟩
    refine ⟨fun h => .head' hstep h, fun h => ?_⟩
    obtain ⟨parent', hstep', hback⟩ := TransGen.head'_iff.mp h
    cases rightUnique_parent hstep hstep'
    exact hback

/-- **The query returns the hierarchy of a run or reports a cycle.**  Up to a thousand runs, a cycle
is reported just if a run of the hierarchy is on one, and otherwise the hierarchy is returned, in
the order of the identities; a larger hierarchy is refused. -/
theorem descendantRuns_spec (hvalid : ValidRuns t) (hrun : run ∈ t.runs.keys) :
    ((hierarchy sqlText t run).ncard ≤ 1000 →
      (descendantRuns sqlText t run = .error hierarchyCycle
        ↔ ∃ id ∈ hierarchy sqlText t run, OnCycle sqlText t id)
      ∧ ((∀ id ∈ hierarchy sqlText t run, ¬ OnCycle sqlText t id) →
        ∃ ids, descendantRuns sqlText t run = .ok ids ∧ ids.Pairwise (· ≤ ·)
          ∧ ids.Nodup ∧ ∀ id, id ∈ ids ↔ id ∈ hierarchy sqlText t run))
    ∧ (1000 < (hierarchy sqlText t run).ncard →
      descendantRuns sqlText t run = .error windowExceeded) := by
  refine ⟨fun hsmall => ?_, descendantRuns_of_large hrun⟩
  have hfits : ¬ hierarchyWindow < (hierarchyRows sqlText t run).length :=
    (rows_length_le hrun hsmall).not_gt
  have hiff := parents_isSome_iff hvalid hrun hsmall
  rw [exists_onCycle_iff]
  refine ⟨?_, fun hnone => ?_⟩
  · simp only [descendantRuns, refuse_bind_error, hfits, false_and, false_or, not_false_eq_true,
      true_and, hiff, and_true]
    exact ⟨fun h => h.resolve_right fun h => (by cases h.2), .inl⟩
  · refine ⟨(hierarchyRows sqlText t run).map Prod.fst, ?_, ?_, rows_nodup, fun id => ?_⟩
    · rw [descendantRuns, refuse_bind, refuse_bind, hiff]
      exact ⟨hfits, hnone run .refl, rfl⟩
    · rw [rows_fst]
      exact List.Pairwise.filter _ (List.pairwise_map.mpr (Dict.sorted_pairwise t.runs))
    · rw [mem_rows_fst hrun, mem_selectedRuns hrun hsmall]

end Rows

/-! ### Hierarchies of some sizes -/

/-- A run with that parent, if it is not empty. -/
def demoRun (parent : Bytes) : Row :=
  ⟨if parent = [] then ∅ else Finmap.insert (str "parent_run_id") (.str parent) ∅,
    str "2026-01-01T00:00:00Z"⟩

/-- A root with runs below it. -/
def wideRuns (ids : List Bytes) : Tables :=
  { Tables.empty with
    runs := ids.foldl (fun runs id => runs.insert id (demoRun (str "root")))
      (Finmap.insert (str "root") (demoRun []) ∅) }

section Wide

variable {ids : List Bytes} {id parent : Bytes}

lemma lookup_wideRuns : (wideRuns ids).runs.lookup id
    = if id ∈ ids then some (demoRun (str "root"))
      else if id = str "root" then some (demoRun []) else none := by
  have hfold : ∀ (runs : Dict Bytes Row),
      (ids.foldl (fun runs id => runs.insert id (demoRun (str "root"))) runs).lookup id
        = if id ∈ ids then some (demoRun (str "root")) else runs.lookup id := by
    induction ids with
    | nil => exact fun runs => rfl
    | cons x ids ih =>
      intro runs
      rw [List.foldl_cons, ih]
      by_cases hx : id = x
      · subst hx
        rw [Finmap.lookup_insert]
        simp
      · simp [hx, Finmap.lookup_insert_of_ne _ hx]
  rw [wideRuns, hfold]
  by_cases hroot : id = str "root"
  · subst hroot
    rw [Finmap.lookup_insert, if_pos rfl]
  · rw [Finmap.lookup_insert_of_ne _ hroot, Finmap.lookup_empty, if_neg hroot]

lemma mem_keys_wideRuns : id ∈ (wideRuns ids).runs.keys ↔ id ∈ ids ∨ id = str "root" := by
  rw [← Dict.isSome_lookup_iff, lookup_wideRuns]
  split
  next hid => exact iff_of_true rfl (.inl hid)
  next hid =>
    split
    next hroot => exact iff_of_true rfl (.inr hroot)
    next hroot => exact iff_of_false (by decide) (not_or.mpr ⟨hid, hroot⟩)

lemma validRuns_wideRuns (h : ∀ id ∈ ids, validID id) : ValidRuns (wideRuns ids) := by
  intro id hid
  rcases mem_keys_wideRuns.mp hid with hid | rfl
  · exact h id hid
  · decide

variable {sqlText : Json → Bytes}

lemma parent_wideRuns :
    Parent sqlText (wideRuns ids) id parent ↔ id ∈ ids ∧ parent = str "root" := by
  constructor
  · rintro ⟨row, hrow, hparent⟩
    rw [lookup_wideRuns] at hrow
    split at hrow
    next hid =>
      cases hrow
      exact ⟨hid, (Option.some.inj hparent).symm⟩
    next =>
      split at hrow
      next => cases hrow; cases hparent
      next => cases hrow
  · rintro ⟨hid, rfl⟩
    exact ⟨demoRun (str "root"), by rw [lookup_wideRuns, if_pos hid], rfl⟩

lemma hierarchy_wideRuns :
    hierarchy sqlText (wideRuns ids) (str "root") = insert (str "root") {id | id ∈ ids} := by
  ext id
  constructor
  · intro h
    rcases ReflTransGen.cases_head h with rfl | ⟨parent, hstep, -⟩
    · exact .inl rfl
    · exact .inr (parent_wideRuns.mp hstep).1
  · rintro (rfl | hid)
    · exact .refl
    · exact .single (parent_wideRuns.mpr ⟨hid, rfl⟩)

lemma not_onCycle_wideRuns (hroot : str "root" ∉ ids) :
    ¬ OnCycle sqlText (wideRuns ids) id := by
  intro h
  obtain ⟨x, -, hlast⟩ := TransGen.tail'_iff.mp h
  obtain ⟨y, hfirst, -⟩ := TransGen.head'_iff.mp h
  rw [(parent_wideRuns.mp hlast).2] at hfirst
  exact hroot (parent_wideRuns.mp hfirst).1

lemma ncard_ids (hnodup : ids.Nodup) : {id | id ∈ ids}.ncard = ids.length := by
  rw [← List.coe_toFinset, Set.ncard_coe_finset, List.toFinset_card_of_nodup hnodup]

end Wide

/-- A root with a single run below it. -/
theorem descendantRuns_pair : ∃ ids,
    descendantRuns (fun _ => []) (wideRuns [str "child"]) (str "root") = .ok ids
      ∧ ids.Pairwise (· ≤ ·) ∧ ids.Nodup
      ∧ ∀ id, id ∈ ids ↔ id ∈ hierarchy (fun _ => []) (wideRuns [str "child"]) (str "root") := by
  have hroot : str "root" ∉ [str "child"] := by decide
  have hcard : (hierarchy (fun _ => []) (wideRuns [str "child"]) (str "root")).ncard ≤ 1000 := by
    rw [hierarchy_wideRuns]
    refine (Set.ncard_insert_le _ _).trans ?_
    rw [ncard_ids (by decide)]
    decide
  have hvalid : ∀ id ∈ [str "child"], validID id := by decide
  have hkey : str "root" ∈ (wideRuns [str "child"]).runs.keys := mem_keys_wideRuns.mpr (.inr rfl)
  exact ((descendantRuns_spec (validRuns_wideRuns hvalid) hkey).1 hcard).2 fun id _ =>
    not_onCycle_wideRuns hroot

/-- **A run with a thousand runs below it does not fit into the window**, without any cycle. -/
theorem wide_exceeds : ∃ t : Tables, ValidRuns t ∧ str "root" ∈ t.runs.keys
    ∧ (hierarchy (fun _ => []) t (str "root") \ {str "root"}).ncard = 1000
    ∧ (∀ id, ¬ OnCycle (fun _ => []) t id)
    ∧ descendantRuns (fun _ => []) t (str "root") = .error windowExceeded := by
  obtain ⟨ids, hvalid, hroot, hnodup, hlength⟩ : ∃ ids : List Bytes, (∀ id ∈ ids, validID id)
      ∧ str "root" ∉ ids ∧ ids.Nodup ∧ ids.length = 1000 := by
    refine ⟨(List.range 1000).map decimal, fun id hid => ?_, fun hroot => ?_,
      List.nodup_range.map decimal_injective, by rw [List.length_map, List.length_range]⟩
    · have hvalid : ∀ n < 1000, validID (decimal n) := by decide +kernel
      obtain ⟨n, hn, rfl⟩ := List.mem_map.mp hid
      exact hvalid n (List.mem_range.mp hn)
    · obtain ⟨n, -, hn⟩ := List.mem_map.mp hroot
      have hdigits := parseDigits_decimal n
      rw [hn] at hdigits
      cases hdigits
  have hbelow : {id | id ∈ ids}.ncard = 1000 := (ncard_ids hnodup).trans hlength
  have hkey : str "root" ∈ (wideRuns ids).runs.keys := mem_keys_wideRuns.mpr (.inr rfl)
  refine ⟨wideRuns ids, validRuns_wideRuns hvalid, hkey, ?_,
    fun id => not_onCycle_wideRuns hroot, descendantRuns_of_large hkey ?_⟩
  · rw [hierarchy_wideRuns, Set.insert_sdiff_self_of_notMem (by exact hroot), hbelow]
  · have hfinite : {id | id ∈ ids}.Finite := ids.finite_toSet
    rw [hierarchy_wideRuns, Set.ncard_insert_of_notMem (by exact hroot) hfinite, hbelow]
    exact Nat.lt_succ_self 1000

end Subyard.Telemetry
