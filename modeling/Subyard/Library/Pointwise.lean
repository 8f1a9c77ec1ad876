import Mathlib.Tactic
import Mathlib.Data.List.Forall2
import Mathlib.Data.List.Perm.Basic
import Mathlib.Data.List.ReduceOption

/-!
Lists that are related element by element, and the change of one element.

* `trans`, `of_perm`, `exists_left`, `exists_right`, `map_eq`: composing the relation, reordering
  one side, following an element, comparing two maps.
* `update`: the list with the first element that passes a test replaced, as a loop does that
  looks an entry up and writes through the pointer it found; `forall₂_update` relates the two
  lists if the change of the element that was found is an instance of the relation.
-/

namespace Pointwise

open List

variable {α β γ : Type*} {R : α → β → Prop} {as : List α} {bs : List β}

lemma trans {S : β → γ → Prop} {T : α → γ → Prop} {cs : List γ}
    (hRS : ∀ a b c, R a b → S b c → T a c) (hab : Forall₂ R as bs) (hbc : Forall₂ S bs cs) :
    Forall₂ T as cs := by
  induction hab generalizing cs with
  | nil =>
    cases hbc
    exact .nil
  | cons hr _ ih =>
    cases hbc with
    | cons hs hbc => exact .cons (hRS _ _ _ hr hs) (ih hbc)

/-- Reordering the right side reorders the left. -/
lemma of_perm {cs : List β} (h : Forall₂ R as bs) (hperm : bs ~ cs) :
    ∃ ds, as ~ ds ∧ Forall₂ R ds cs := by
  have hcomp : Relation.Comp (Forall₂ R) Perm as cs := ⟨bs, h, hperm⟩
  rw [forall₂_comp_perm_eq_perm_comp_forall₂] at hcomp
  exact hcomp

/-- An element on the right comes from one on the left. -/
lemma exists_left (h : Forall₂ R as bs) {b : β} (hb : b ∈ bs) : ∃ a ∈ as, R a b := by
  obtain ⟨i, hi, rfl⟩ := mem_iff_getElem.mp hb
  have hi' : i < as.length := h.length_eq ▸ hi
  exact ⟨as[i], getElem_mem hi', h.get hi' hi⟩

/-- An element on the left has its counterpart on the right. -/
lemma exists_right (h : Forall₂ R as bs) {a : α} (ha : a ∈ as) : ∃ b ∈ bs, R a b :=
  exists_left h.flip ha

lemma map_eq {f : α → γ} {g : β → γ} (h : Forall₂ (fun a b => f a = g b) as bs) :
    as.map f = bs.map g := by
  induction h with
  | nil => rfl
  | cons hab _ ih => rw [map_cons, map_cons, hab, ih]

/-- Replace the first element that passes `p`. -/
def update (p : α → Bool) (f : α → α) : List α → List α
  | [] => []
  | x :: xs => if p x then f x :: xs else x :: update p f xs

variable {p : α → Bool} {f : α → α}

lemma forall₂_update {R : α → α → Prop} (hrefl : ∀ x, R x x) {xs : List α}
    (hf : ∀ x, xs.find? p = some x → R x (f x)) : Forall₂ R xs (update p f xs) := by
  induction xs with
  | nil => exact .nil
  | cons x xs ih =>
    rw [update]
    split
    · rename_i hx
      exact .cons (hf x (by simp [hx])) (forall₂_same.mpr fun y _ => hrefl y)
    · rename_i hx
      exact .cons (hrefl x) (ih fun y hy => hf y (by rw [find?_cons_of_neg hx]; exact hy))

/-- The changed element is in the list. -/
lemma mem_update {xs : List α} {x : α} (hx : xs.find? p = some x) : f x ∈ update p f xs := by
  induction xs with
  | nil => cases hx
  | cons y ys ih =>
    rw [update]
    split
    · rename_i hy
      obtain rfl : y = x := by simpa [hy] using hx
      exact mem_cons_self ..
    · rename_i hy
      rw [find?_cons_of_neg hy] at hx
      exact mem_cons_of_mem y (ih hx)

/-- Where at most one element is meant, all that are meant may be changed. -/
lemma update_eq_map {xs : List α} (hone : xs.Pairwise fun x y => ¬ (p x ∧ p y)) :
    update p f xs = xs.map fun x => if p x then f x else x := by
  induction xs with
  | nil => rfl
  | cons x xs ih =>
    obtain ⟨hx, hxs⟩ := List.pairwise_cons.mp hone
    rw [update, List.map_cons]
    by_cases hp : p x
    · rw [if_pos hp, if_pos hp]
      congr 1
      refine (List.map_id xs).symm.trans (List.map_congr_left fun y hy => ?_)
      rw [if_neg fun hpy => hx y hy ⟨hp, hpy⟩]
      rfl
    · rw [if_neg hp, if_neg hp, ih hxs]

end Pointwise
