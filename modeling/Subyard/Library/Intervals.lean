import Mathlib.MeasureTheory.Measure.Lebesgue.Basic

/-!
Closed intervals of points in time, merged from the left.

* `push`, `merge`: an interval is joined with the last one if it starts no later than that ends, and
  is a new last one otherwise; the last one stands first.
* `covered`: the points of the line that some interval contains.
* `volume_covered_eq`: **of intervals in the order of their starts, the lengths of the merged ones
  add up to the measure of their union.**
-/

open MeasureTheory

namespace Intervals

/-- The start and the end. -/
abbrev Window := ℤ × ℤ

def push : List Window → Window → List Window
  | [], w => [w]
  | last :: rest, w =>
      if w.1 ≤ last.2 then (last.1, max last.2 w.2) :: rest else w :: last :: rest

def merge (windows : List Window) : List Window := windows.foldl push []

def total (windows : List Window) : ℤ := (windows.map fun w => w.2 - w.1).sum

/-- The points that some interval contains. -/
def covered (windows : List Window) : Set ℝ := {x | ∃ w ∈ windows, (w.1 : ℝ) ≤ x ∧ x ≤ w.2}

lemma covered_nil : covered [] = ∅ := by
  ext x
  simp [covered]

lemma covered_cons (w : Window) (windows : List Window) :
    covered (w :: windows) = Set.Icc (w.1 : ℝ) w.2 ∪ covered windows := by
  ext x
  simp [covered]

/-! ### Merging -/

/-- Intervals that do not meet, the last one first. -/
structure Separate (windows : List Window) : Prop where
  ordered : ∀ w ∈ windows, w.1 ≤ w.2
  apart : windows.Pairwise fun later earlier => earlier.2 < later.1

variable {acc windows : List Window} {w : Window}

lemma Separate.tail {last : Window} (h : Separate (last :: acc)) : Separate acc :=
  ⟨fun v hv => h.ordered v (List.mem_cons_of_mem _ hv), (List.pairwise_cons.mp h.apart).2⟩

lemma Separate.push (h : Separate acc) (hw : w.1 ≤ w.2) : Separate (push acc w) := by
  cases acc with
  | nil => exact ⟨by simpa [Intervals.push] using hw, List.pairwise_singleton _ _⟩
  | cons last rest =>
    obtain ⟨hlast, hrest⟩ := List.pairwise_cons.mp h.apart
    have hordered := h.ordered last List.mem_cons_self
    rw [Intervals.push]
    split
    next =>
      refine ⟨fun v hv => ?_, List.pairwise_cons.mpr ⟨hlast, hrest⟩⟩
      rcases List.mem_cons.mp hv with rfl | hv
      · exact hordered.trans (le_max_left _ _)
      · exact h.ordered v (List.mem_cons_of_mem _ hv)
    next hapart =>
      have hlt := not_le.mp hapart
      refine ⟨fun v hv => ?_, List.pairwise_cons.mpr ⟨fun v hv => ?_, h.apart⟩⟩
      · rcases List.mem_cons.mp hv with rfl | hv
        · exact hw
        · exact h.ordered v hv
      · rcases List.mem_cons.mp hv with rfl | hv
        · exact hlt
        · exact (hlast v hv).trans (hordered.trans_lt hlt)

/-- An interval that starts no earlier than the last one is added to what is covered. -/
lemma covered_push (hstart : ∀ v ∈ acc, v.1 ≤ w.1) (hw : w.1 ≤ w.2) :
    covered (push acc w) = covered acc ∪ Set.Icc (w.1 : ℝ) w.2 := by
  cases acc with
  | nil => rw [push, covered_cons, Set.union_comm]
  | cons last rest =>
    rw [push]
    split
    next hmeet =>
      have hfirst : (last.1 : ℝ) ≤ w.1 := by exact_mod_cast hstart last List.mem_cons_self
      have hmeet : (w.1 : ℝ) ≤ last.2 := by exact_mod_cast hmeet
      have hw : (w.1 : ℝ) ≤ w.2 := by exact_mod_cast hw
      have hjoin : Set.Icc (last.1 : ℝ) last.2 ∪ Set.Icc (w.1 : ℝ) w.2
          = Set.Icc (last.1 : ℝ) (max last.2 w.2) := by
        rw [Set.Icc_union_Icc' hmeet (hfirst.trans hw), min_eq_left hfirst]
      rw [covered_cons, covered_cons, Set.union_right_comm, hjoin]
      push_cast
      rfl
    next => rw [covered_cons, Set.union_comm]

/-- What merging makes of intervals in the order of their starts. -/
lemma merge_spec (hordered : ∀ w ∈ windows, w.1 ≤ w.2)
    (hsorted : windows.Pairwise fun w w' => w.1 ≤ w'.1) :
    Separate (merge windows) ∧ covered (merge windows) = covered windows := by
  have hfold : ∀ (rest acc : List Window), (∀ w ∈ rest, w.1 ≤ w.2) →
      rest.Pairwise (fun w w' => w.1 ≤ w'.1) → Separate acc →
      (∀ v ∈ acc, ∀ w ∈ rest, v.1 ≤ w.1) →
      Separate (rest.foldl push acc)
        ∧ covered (rest.foldl push acc) = covered acc ∪ covered rest := by
    intro rest
    induction rest with
    | nil =>
      intro acc _ _ hacc _
      exact ⟨hacc, by rw [covered_nil, Set.union_empty]; rfl⟩
    | cons w rest ih =>
      intro acc hordered hsorted hacc hstart
      obtain ⟨hw, hordered⟩ := List.forall_mem_cons.mp hordered
      obtain ⟨hfirst, hsorted⟩ := List.pairwise_cons.mp hsorted
      have hstart' : ∀ v ∈ acc, v.1 ≤ w.1 := fun v hv => hstart v hv w List.mem_cons_self
      -- a start among the new ones is an old one or that of `w`
      have hpush : ∀ v ∈ push acc w, ∀ w' ∈ rest, v.1 ≤ w'.1 := by
        intro v hv w' hw'
        have hold : ∀ u ∈ acc, u.1 ≤ w'.1 := fun u hu =>
          hstart u hu w' (List.mem_cons_of_mem _ hw')
        cases acc with
        | nil =>
          rw [List.mem_singleton.mp hv]
          exact hfirst w' hw'
        | cons last acc =>
          rw [push] at hv
          split at hv <;> rcases List.mem_cons.mp hv with rfl | hv
          · exact hold last List.mem_cons_self
          · exact hold v (List.mem_cons_of_mem _ hv)
          · exact hfirst w' hw'
          · exact hold v hv
      obtain ⟨hsep, hcov⟩ := ih (push acc w) hordered hsorted (hacc.push hw) hpush
      refine ⟨hsep, ?_⟩
      rw [List.foldl_cons, hcov, covered_push hstart' hw, covered_cons, Set.union_assoc]
  obtain ⟨hsep, hcov⟩ := hfold windows [] hordered hsorted ⟨nofun, List.Pairwise.nil⟩ nofun
  rw [covered_nil, Set.empty_union] at hcov
  exact ⟨hsep, hcov⟩

/-! ### Measure -/

lemma total_nonneg (h : ∀ w ∈ windows, w.1 ≤ w.2) : 0 ≤ total windows := by
  refine List.sum_nonneg fun x hx => ?_
  obtain ⟨w, hw, rfl⟩ := List.mem_map.mp hx
  exact sub_nonneg.mpr (h w hw)

lemma measurableSet_covered (windows : List Window) : MeasurableSet (covered windows) := by
  induction windows with
  | nil =>
    rw [covered_nil]
    exact MeasurableSet.empty
  | cons w windows ih =>
    rw [covered_cons]
    exact measurableSet_Icc.union ih

/-- The lengths of separate intervals add up. -/
lemma Separate.volume_covered (h : Separate windows) :
    volume (covered windows) = ENNReal.ofReal (total windows) := by
  induction windows with
  | nil => simp [covered_nil, total]
  | cons w windows ih =>
    have hdisjoint : Disjoint (Set.Icc (w.1 : ℝ) w.2) (covered windows) := by
      rw [Set.disjoint_left]
      rintro x ⟨hx, _⟩ ⟨v, hv, _, hx'⟩
      have hlt : (v.2 : ℝ) < w.1 := by
        exact_mod_cast (List.pairwise_cons.mp h.apart).1 v hv
      exact absurd (hx.trans hx') (not_le.mpr hlt)
    have hw : (0 : ℝ) ≤ (w.2 : ℝ) - w.1 := by
      have := h.ordered w List.mem_cons_self
      exact sub_nonneg.mpr (by exact_mod_cast this)
    have hrest : (0 : ℝ) ≤ total windows := by exact_mod_cast total_nonneg h.tail.ordered
    rw [covered_cons, measure_union hdisjoint (measurableSet_covered windows), ih h.tail,
      Real.volume_Icc, ← ENNReal.ofReal_add hw hrest]
    congr 1
    simp [total]

/-- **The merged lengths are the measure of the union.** -/
theorem volume_covered_eq (hordered : ∀ w ∈ windows, w.1 ≤ w.2)
    (hsorted : windows.Pairwise fun w w' => w.1 ≤ w'.1) :
    volume (covered windows) = ENNReal.ofReal (total (merge windows)) := by
  obtain ⟨hsep, hcov⟩ := merge_spec hordered hsorted
  rw [← hcov]
  exact hsep.volume_covered

end Intervals
