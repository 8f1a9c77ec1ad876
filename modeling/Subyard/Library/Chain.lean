import Mathlib.Tactic

/-!
Chains of hashes: each link is the hash of a payload made of the link before it and an entry.

* `payloads`: the payloads that are hashed along a chain.
* `eq_of_foldl_eq`: **chains of the same length that end alike are alike**, if the hash has no
  collision among the payloads of both.
* `filter_split`: a filter of a list splits where a condition ends.
-/

namespace Chain

variable {D M P : Type} (F : P → D) (payload : D → M → P)

/-- The payloads that are hashed along a chain. -/
def payloads : D → List M → List P
  | _, [] => []
  | d, m :: ms => payload d m :: payloads (F (payload d m)) ms

lemma payloads_concat (d : D) (ms : List M) (m : M) :
    payloads F payload d (ms ++ [m])
      = payloads F payload d ms
        ++ [payload (ms.foldl (fun d m => F (payload d m)) d) m] := by
  induction ms generalizing d with
  | nil => rfl
  | cons x ms ih => rw [List.cons_append, payloads, ih, payloads]; rfl

/-- **Chains of the same length that end alike are alike**, if the hash is injective on their
payloads and a payload tells what it was made of. -/
lemma eq_of_foldl_eq {V : D → Prop} {W : M → Prop} (hV : ∀ p, V (F p))
    (hpayload : ∀ d d' m m', V d → V d' → W m → W m' → payload d m = payload d' m' →
      d = d' ∧ m = m') :
    ∀ (ms ms' : List M) (d d' : D), V d → V d' → (∀ m ∈ ms, W m) → (∀ m ∈ ms', W m) →
      ms.length = ms'.length →
      Set.InjOn F {p | p ∈ payloads F payload d ms ∨ p ∈ payloads F payload d' ms'} →
      ms.foldl (fun d m => F (payload d m)) d = ms'.foldl (fun d m => F (payload d m)) d' →
      ms = ms' := by
  intro ms
  have hfold : ∀ (l : List M) (d : D), V d → V (l.foldl (fun d m => F (payload d m)) d) := by
    intro l
    induction l with
    | nil => exact fun d hd => hd
    | cons x l ih => exact fun d _ => ih _ (hV _)
  -- From the end: the last payloads are equal, so the digests before them are.
  induction ms using List.reverseRecOn with
  | nil =>
    intro ms' d d' _ _ _ _ hlen _ _
    exact (List.eq_nil_of_length_eq_zero hlen.symm).symm
  | append_singleton ms m ih =>
    intro ms' d d' hd hd' hW hW' hlen hinj heq
    rcases List.eq_nil_or_concat ms' with rfl | ⟨ms', m', rfl⟩
    · simp at hlen
    rw [List.concat_eq_append] at *
    rw [List.foldl_append, List.foldl_append, List.foldl_cons, List.foldl_cons, List.foldl_nil,
      List.foldl_nil] at heq
    rw [payloads_concat, payloads_concat] at hinj
    obtain ⟨hprevious, hlast⟩ := hpayload _ _ m m' (hfold ms d hd) (hfold ms' d' hd')
      (hW m (by simp)) (hW' m' (by simp)) (hinj (by simp) (by simp) heq)
    have hrest := ih ms' d d' hd hd' (fun x hx => hW x (by simp [hx]))
      (fun x hx => hW' x (by simp [hx])) (by simpa using hlen)
      (hinj.mono fun p hp => hp.imp (by simp +contextual) (by simp +contextual)) hprevious
    rw [hrest, hlast]

/-- A filter splits at a condition that holds only up to some point of the list. -/
lemma filter_split {p q : M → Bool} {l : List M}
    (h : l.Pairwise fun a b => p a → p b → q b → q a) :
    l.filter p = l.filter (fun a => p a && q a) ++ l.filter (fun a => p a && !q a) := by
  induction l with
  | nil => rfl
  | cons a l ih =>
    obtain ⟨hfirst, hrest⟩ := List.pairwise_cons.mp h
    by_cases hp : p a
    · by_cases hq : q a
      · simp [hp, hq, ih hrest]
      · have hnone : l.filter (fun b => p b && q b) = [] := by
          refine List.filter_eq_nil_iff.mpr fun b hb hpq => ?_
          rw [Bool.and_eq_true] at hpq
          exact hq (hfirst b hb hp hpq.1 hpq.2)
        have := ih hrest
        rw [hnone, List.nil_append] at this
        simp [hp, hq, hnone, this]
    · simp [hp, ih hrest]

end Chain
