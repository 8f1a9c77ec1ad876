import Mathlib.Data.List.Dedup
import Mathlib.Data.Set.Card
import Mathlib.Logic.Relation
import Mathlib.Tactic

/-!
The elements that are reachable from one, collected with a queue.

* `collect`: elements are taken out of the queue up to a limit; an element enters the queue once.
* `mem_collect_iff`: what is collected are the reachable elements, if they are fewer than the limit.
* `collect_length`: if they are not, as many are collected as the limit allows.
* `cyclic_of_reaches`: where every element has one successor at most, what is reachable from an
  element on a cycle is on it too.
-/

namespace Subyard.Closure

open Relation

section Collect

variable {α : Type} [DecidableEq α] (next : α → List α)

/-- At most `limit` elements of the queue and what they lead to; `seen` has been in the queue. -/
def collect : ℕ → List α → List α → List α
  | 0, _, _ => []
  | _ + 1, [], _ => []
  | limit + 1, x :: queue, seen =>
      let found := ((next x).filter (· ∉ seen)).dedup
      x :: collect limit (queue ++ found) (seen ++ found)

variable {next} {limit : ℕ} {queue seen taken : List α}

lemma reaches_of_mem_collect {x : α} (h : x ∈ collect next limit queue seen) :
    ∃ y ∈ queue, ReflTransGen (fun a b => b ∈ next a) y x := by
  induction limit generalizing queue seen with
  | zero => cases h
  | succ limit ih =>
    cases queue with
    | nil => cases h
    | cons y queue =>
      rcases List.mem_cons.mp h with rfl | h
      · exact ⟨x, by simp, .refl⟩
      · obtain ⟨z, hz, hreach⟩ := ih h
        rcases List.mem_append.mp hz with hz | hz
        · exact ⟨z, by simp [hz], hreach⟩
        · have hnext : z ∈ next y := (List.mem_filter.mp (List.mem_dedup.mp hz)).1
          exact ⟨y, by simp, .head hnext hreach⟩

lemma collect_length_le : (collect next limit queue seen).length ≤ limit := by
  induction limit generalizing queue seen with
  | zero => exact le_rfl
  | succ limit ih =>
    cases queue with
    | nil => exact Nat.zero_le _
    | cons y queue => exact Nat.succ_le_succ ih

/-- An element is collected once, if what has been seen has been taken or is in the queue. -/
lemma nodup_collect (hseen : ∀ x, x ∈ seen ↔ x ∈ taken ∨ x ∈ queue)
    (hnodup : (taken ++ queue).Nodup) : (taken ++ collect next limit queue seen).Nodup := by
  induction limit generalizing queue seen taken with
  | zero => exact hnodup.sublist ((List.nil_sublist queue).append_left taken)
  | succ limit ih =>
    cases queue with
    | nil => exact hnodup
    | cons y queue =>
      rw [collect, List.append_cons]
      refine ih (fun x => ?_) ?_
      · simp only [List.mem_append, hseen, List.mem_cons]
        tauto
      · rw [← List.append_assoc, List.append_assoc taken, List.singleton_append]
        refine List.Nodup.append hnodup (List.nodup_dedup _) fun x hx hfound => ?_
        have hnew := (List.mem_filter.mp (List.mem_dedup.mp hfound)).2
        rw [decide_eq_true_eq, hseen] at hnew
        exact hnew (List.mem_append.mp hx)

/-- Below the limit, the queue is emptied and nothing that is led to is left out. -/
lemma closed_collect (h : (collect next limit queue seen).length < limit) :
    (∀ x ∈ queue, x ∈ collect next limit queue seen)
      ∧ ∀ x ∈ collect next limit queue seen, ∀ y ∈ next x,
        y ∈ seen ∨ y ∈ collect next limit queue seen := by
  induction limit generalizing queue seen with
  | zero => cases h
  | succ limit ih =>
    cases queue with
    | nil => exact ⟨by simp, by simp [collect]⟩
    | cons z queue =>
      obtain ⟨hqueue, hclosed⟩ := ih (Nat.lt_of_succ_lt_succ h)
      refine ⟨fun x hx => ?_, fun x hx y hy => ?_⟩
      · rcases List.mem_cons.mp hx with rfl | hx
        · exact List.mem_cons_self
        · exact List.mem_cons_of_mem _ (hqueue x (List.mem_append_left _ hx))
      · rcases List.mem_cons.mp hx with rfl | hx
        · by_cases hy' : y ∈ seen
          · exact .inl hy'
          · refine .inr (List.mem_cons_of_mem _ (hqueue y (List.mem_append_right _ ?_)))
            exact List.mem_dedup.mpr (List.mem_filter.mpr ⟨hy, by simpa using hy'⟩)
        · rcases hclosed x hx y hy with hy | hy
          · rcases List.mem_append.mp hy with hy | hy
            · exact .inl hy
            · exact .inr (List.mem_cons_of_mem _ (hqueue y (List.mem_append_right _ hy)))
          · exact .inr (List.mem_cons_of_mem _ hy)

section Root

variable {root : α}

lemma nodup_collect_root : (collect next limit [root] [root]).Nodup := by
  have h : ([] ++ collect next limit [root] [root]).Nodup :=
    nodup_collect (by simp) (by simp)
  exact h

lemma mem_collect_of_lt (h : (collect next limit [root] [root]).length < limit) {x : α}
    (hx : ReflTransGen (fun a b => b ∈ next a) root x) :
    x ∈ collect next limit [root] [root] := by
  obtain ⟨hqueue, hclosed⟩ := closed_collect h
  have hroot := hqueue root (by simp)
  induction hx with
  | refl => exact hroot
  | tail _ hstep ih =>
    rcases hclosed _ ih _ hstep with hseen | hmem
    · rw [List.mem_singleton.mp hseen]
      exact hroot
    · exact hmem

/-- What is reachable. -/
def Reachable (next : α → List α) (root : α) : Set α :=
  {x | ReflTransGen (fun a b => b ∈ next a) root x}

lemma collect_subset : {x | x ∈ collect next limit [root] [root]} ⊆ Reachable next root := by
  intro x hx
  obtain ⟨y, hy, hreach⟩ := reaches_of_mem_collect hx
  rw [List.mem_singleton.mp hy] at hreach
  exact hreach

lemma collect_ncard :
    {x | x ∈ collect next limit [root] [root]}.ncard
      = (collect next limit [root] [root]).length := by
  have h : {x | x ∈ collect next limit [root] [root]}
      = ((collect next limit [root] [root]).toFinset : Set α) := by
    ext x
    simp
  rw [h, Set.ncard_coe_finset, List.toFinset_card_of_nodup nodup_collect_root]

/-- **Below the limit, the reachable elements are collected.** -/
theorem mem_collect_iff (hfinite : (Reachable next root).Finite)
    (hlimit : (Reachable next root).ncard < limit) {x : α} :
    x ∈ collect next limit [root] [root] ↔ x ∈ Reachable next root := by
  refine ⟨fun hx => collect_subset hx, fun hx => mem_collect_of_lt ?_ hx⟩
  rw [← collect_ncard]
  exact (Set.ncard_le_ncard collect_subset hfinite).trans_lt hlimit

/-- Otherwise the limit is reached. -/
theorem collect_length (hlimit : limit ≤ (Reachable next root).ncard) :
    (collect next limit [root] [root]).length = limit := by
  by_contra hne
  have hlt := lt_of_le_of_ne collect_length_le hne
  have hall : Reachable next root = {x | x ∈ collect next limit [root] [root]} :=
    Set.Subset.antisymm (fun x hx => mem_collect_of_lt hlt hx) collect_subset
  rw [hall, collect_ncard] at hlimit
  exact absurd hlimit hlt.not_ge

end Root

end Collect

section Functional

variable {α : Type} {r : α → α → Prop}

/-- Where every element has one successor at most, one comes back from wherever a cycle leads. -/
lemma returns_of_cyclic (hr : Relator.RightUnique r) {x y : α} (hcycle : TransGen r x x)
    (hreach : ReflTransGen r x y) : ReflTransGen r y x := by
  induction hreach with
  | refl => exact .refl
  | tail _ hstep ih =>
    obtain ⟨z, hz, hback⟩ := TransGen.head'_iff.mp (TransGen.trans_right ih hcycle)
    rwa [hr hstep hz]

/-- What is reachable from an element on a cycle is on it too. -/
theorem cyclic_of_reaches (hr : Relator.RightUnique r) {x y : α} (hcycle : TransGen r x x)
    (hreach : ReflTransGen r x y) : TransGen r y y :=
  TransGen.trans_right (returns_of_cyclic hr hcycle hreach) (TransGen.trans_left hcycle hreach)

end Functional

end Subyard.Closure
