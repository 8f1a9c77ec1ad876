import Mathlib.Data.Finset.Card
import Mathlib.Tactic

/-!
The search for a free name among numbered candidates.

* `search`: the first candidate from a number on that is available, with a bound on the steps; a
  candidate may not exist.
* `search_found`: candidates with different keys are found to be available within as many steps
  as there are keys taken, and one.
-/

namespace Fresh

variable {α κ : Type}

/-- The first available candidate from the number `n` on. -/
def search (candidate : ℕ → Option α) (available : α → Bool) : (fuel n : ℕ) → Option α
  | 0, _ => none
  | fuel + 1, n =>
      match candidate n with
      | none => none
      | some c => if available c then some c else search candidate available fuel (n + 1)

variable {candidate : ℕ → Option α} {available : α → Bool}

/-- What is found is an available candidate. -/
lemma search_spec {c : α} : ∀ {fuel n : ℕ}, search candidate available fuel n = some c →
    available c ∧ ∃ i < fuel, candidate (n + i) = some c
  | fuel + 1, n, h => by
    rw [search] at h
    split at h
    next => cases h
    next c' hc' =>
      split at h
      next hav =>
        cases h
        exact ⟨hav, 0, Nat.succ_pos _, hc'⟩
      next =>
        obtain ⟨hav, i, hlt, hi⟩ := search_spec h
        exact ⟨hav, i + 1, Nat.succ_lt_succ hlt, by rw [← hi]; congr 1; omega⟩

/-- A search that finds nothing passed over every candidate. -/
lemma search_eq_none : ∀ {fuel n : ℕ}, (∀ i < fuel, (candidate (n + i)).isSome) →
    search candidate available fuel n = none →
    ∀ i < fuel, ∀ c, candidate (n + i) = some c → ¬ available c
  | 0, n, _, _ => fun i hi => absurd hi (Nat.not_lt_zero i)
  | fuel + 1, n, hsome, h => by
    rw [search] at h
    have hzero := hsome 0 (Nat.succ_pos _)
    split at h
    next hc => rw [Nat.add_zero, hc] at hzero; cases hzero
    next c' hc' =>
      split at h
      next => cases h
      next hav =>
        have hshift : ∀ i, n + 1 + i = n + (i + 1) := fun i => by omega
        have hrest := search_eq_none (fun i hi => by rw [hshift]; exact hsome _ (by omega)) h
        intro i hi c hc
        cases i with
        | zero =>
          rw [Nat.add_zero, hc'] at hc
          cases hc
          exact hav
        | succ i => exact hrest i (by omega) c (by rw [hshift]; exact hc)

/-- A longer search finds the same. -/
lemma search_mono {c : α} : ∀ {fuel fuel' n : ℕ}, fuel ≤ fuel' →
    search candidate available fuel n = some c → search candidate available fuel' n = some c
  | fuel + 1, fuel' + 1, n, hle, h => by
    rw [search] at h ⊢
    cases hc : candidate n with
    | none =>
      rw [hc] at h
      cases h
    | some c' =>
      rw [hc] at h
      dsimp only at h ⊢
      by_cases hav : available c'
      · rwa [if_pos hav] at h ⊢
      · rw [if_neg hav] at h ⊢
        exact search_mono (Nat.le_of_succ_le_succ hle) h

/-- **A free name is found**: the keys of the candidates are distinct, and those of candidates
that are not available are among fewer than the candidates tried. -/
theorem search_found (key : α → κ) (taken : Finset κ) {fuel n : ℕ}
    (hsome : ∀ i < fuel, (candidate (n + i)).isSome)
    (hkeys : ∀ i < fuel, ∀ j < fuel, ∀ c d, candidate (n + i) = some c →
      candidate (n + j) = some d → key c = key d → i = j)
    (htaken : ∀ c, ¬ available c → key c ∈ taken) (hcard : taken.card < fuel) :
    ∃ c, search candidate available fuel n = some c := by
  by_contra hnone
  have hnone : search candidate available fuel n = none :=
    Option.eq_none_iff_forall_ne_some.mpr fun c hc => hnone ⟨c, hc⟩
  have hpassed := search_eq_none hsome hnone
  choose c hc using fun i (hi : i < fuel) => Option.isSome_iff_exists.mp (hsome i hi)
  -- the keys passed over are as many as the steps
  have hcount : fuel ≤ taken.card := by
    have hinj := Finset.card_le_card_of_injOn (s := (Finset.univ : Finset (Fin fuel)))
      (fun i => key (c i i.2)) (fun i _ => htaken _ (hpassed i i.2 _ (hc i i.2)))
      (fun i _ j _ hij => Fin.ext (hkeys i i.2 j j.2 _ _ (hc i i.2) (hc j j.2) hij))
    rwa [Finset.card_univ, Fintype.card_fin] at hinj
  omega

end Fresh
