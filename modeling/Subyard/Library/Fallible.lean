import Mathlib.Tactic

/-!
Computations that may fail: the guard `refuse` and the inversion of a success.

A success of a sequence is a success of each part (`of_bind_ok`), a failure of the second part
is one of the whole (`bind_fails`), and a guard that did not fail says that its condition is
false (`refuse_bind`).  `Agree` compares two computations that succeed together.
-/

namespace Fallible

variable {ε α β : Type} {p : Prop} {e : ε} {x : Except ε α} {f : α → Except ε β} {b : β}
  {l : List α}

/-- Fail with `e` if `p` holds. -/
def refuse (p : Prop) [Decidable p] (e : ε) : Except ε Unit := if p then .error e else .ok ()

@[simp] lemma refuse_eq_ok [Decidable p] {u : Unit} : refuse p e = .ok u ↔ ¬ p := by
  by_cases h : p <;> simp [refuse, h]

lemma exists_of_isOk (h : x.isOk) : ∃ a, x = .ok a := by
  cases x with
  | ok a => exact ⟨a, rfl⟩
  | error e => cases h

/-- A sequence that succeeds succeeded in both parts. -/
lemma of_bind_ok (h : (x >>= f) = .ok b) : ∃ a, x = .ok a ∧ f a = .ok b :=
  match x, h with
  | .ok a, h => ⟨a, rfl, h⟩

/-- A sequence whose second part fails in any case fails. -/
lemma bind_fails (h : ∀ a, ∃ e, f a = .error e) : ∃ e, (x >>= f) = .error e :=
  match x with
  | .ok a => h a
  | .error e => ⟨e, rfl⟩

/-- A guarded computation succeeds when the guard is passed. -/
@[simp] lemma refuse_bind [Decidable p] {f : Unit → Except ε β} :
    (refuse p e >>= f) = .ok b ↔ ¬ p ∧ f () = .ok b := by
  refine ⟨fun h => ?_, fun ⟨hp, hf⟩ => ?_⟩
  · obtain ⟨_, hp, hf⟩ := of_bind_ok h
    exact ⟨refuse_eq_ok.mp hp, hf⟩
  · rw [show refuse p e = .ok () from refuse_eq_ok.mpr hp]
    exact hf

/-- A guard against two conditions is two guards. -/
lemma refuse_or {q : Prop} [Decidable p] [Decidable q] (e : ε) :
    refuse (p ∨ q) e = (refuse p e >>= fun _ => refuse q e) := by
  by_cases hp : p
  · simp only [refuse, hp, true_or, if_true]
    rfl
  · simp only [refuse, hp, false_or, if_false]
    rfl

/-- A sequence of a check and what follows it. -/
lemma check_bind {x : Except ε Unit} {f : Unit → Except ε β} :
    (x >>= f) = .ok b ↔ x = .ok () ∧ f () = .ok b := by
  refine ⟨fun h => ?_, fun ⟨hx, hf⟩ => by rw [hx]; exact hf⟩
  obtain ⟨_, hx, hf⟩ := of_bind_ok h
  exact ⟨hx, hf⟩

/-- A sequence that fails failed in one of its parts. -/
lemma of_bind_error (h : (x >>= f) = .error e) : x = .error e ∨ ∃ a, x = .ok a ∧ f a = .error e :=
  match x, h with
  | .ok a, h => .inr ⟨a, rfl, h⟩
  | .error _, h => .inl (congrArg Except.error (Except.error.inj h))

lemma refuse_eq_error [Decidable p] {e' : ε} : refuse p e = .error e' ↔ p ∧ e = e' := by
  by_cases h : p <;> simp [refuse, h]

lemma refuse_bind_error [Decidable p] {e' : ε} {f : Unit → Except ε β} :
    (refuse p e >>= f) = .error e' ↔ (p ∧ e = e') ∨ (¬ p ∧ f () = .error e') := by
  by_cases h : p
  · rw [refuse, if_pos h]
    simp only [h, true_and, not_true_eq_false, false_and, or_false]
    exact ⟨fun heq => Except.error.inj heq, fun heq => congrArg Except.error heq⟩
  · rw [refuse, if_neg h]
    simp only [h, false_and, not_false_eq_true, true_and, false_or]
    exact Iff.rfl

lemma mapError_eq_ok {ε' : Type} {f : ε → ε'} {a : α} : x.mapError f = .ok a ↔ x = .ok a := by
  cases x with
  | ok b => exact ⟨fun h => congrArg _ (Except.ok.inj h), fun h => congrArg _ (Except.ok.inj h)⟩
  | error e => exact ⟨fun h => (by cases h), fun h => (by cases h)⟩

/-- A check of every element succeeds when each check does. -/
lemma forM_eq_ok {f : α → Except ε Unit} : l.forM f = .ok () ↔ ∀ x ∈ l, f x = .ok () := by
  induction l with
  | nil => exact ⟨fun _ _ h => (by cases h), fun _ => rfl⟩
  | cons x l ih =>
    rw [List.forall_mem_cons, ← ih]
    refine ⟨fun h => ?_, fun ⟨hx, hl⟩ => ?_⟩
    · obtain ⟨_, hx, hl⟩ := of_bind_ok h
      exact ⟨hx, hl⟩
    · rw [show (x :: l).forM f = (f x >>= fun _ => l.forM f) from rfl, hx]
      exact hl

/-- A computation of every element succeeds when each one does. -/
lemma mapM_eq_ok {r : List β} : l.mapM f = .ok r ↔ List.Forall₂ (fun x y => f x = .ok y) l r := by
  induction l generalizing r with
  | nil =>
    rw [List.mapM_nil, List.forall₂_nil_left_iff]
    exact ⟨fun h => (Except.ok.inj h).symm, fun h => congrArg Except.ok h.symm⟩
  | cons x l ih =>
    rw [List.mapM_cons, List.forall₂_cons_left_iff]
    constructor
    · intro h
      obtain ⟨y, hy, h⟩ := of_bind_ok h
      obtain ⟨ys, hys, h⟩ := of_bind_ok h
      exact ⟨y, ys, hy, ih.mp hys, (Except.ok.inj h).symm⟩
    · rintro ⟨y, ys, hy, hys, rfl⟩
      rw [hy, ih.mpr hys]
      rfl

/-- A loop of which every step establishes `Q` of its element and keeps `Q` of the others. -/
lemma foldlM_establishes {f : β → α → Except ε β} {Q : β → α → Prop}
    (hstep : ∀ b x b', f b x = .ok b' → Q b' x ∧ ∀ y, Q b y → Q b' y) {b' : β}
    (h : l.foldlM f b = .ok b') : (∀ x ∈ l, Q b' x) ∧ ∀ y, Q b y → Q b' y := by
  induction l generalizing b with
  | nil =>
    cases h
    exact ⟨by simp, fun _ hy => hy⟩
  | cons x l ih =>
    rw [List.foldlM_cons] at h
    obtain ⟨c, hx, h⟩ := of_bind_ok h
    obtain ⟨hl, hkeep⟩ := ih h
    exact ⟨List.forall_mem_cons.mpr ⟨hkeep x (hstep b x c hx).1, hl⟩,
      fun y hy => hkeep y ((hstep b x c hx).2 y hy)⟩

/-- A loop that collects one element after the other, each checked by itself and against those
before it. -/
lemma foldlM_collect {f : List β → α → Except ε (List β)} {A : α → Prop} {g : α → β}
    {C : β → β → Prop}
    (hf : ∀ acc x acc', f acc x = .ok acc' ↔ A x ∧ (∀ y ∈ acc, C y (g x)) ∧ acc' = acc ++ [g x])
    {r : List β} : l.foldlM f [] = .ok r ↔ (∀ x ∈ l, A x) ∧ (l.map g).Pairwise C ∧ r = l.map g := by
  have hloop : ∀ (l : List α) (acc : List β), l.foldlM f acc = .ok r ↔
      (∀ x ∈ l, A x) ∧ (∀ y ∈ acc, ∀ x ∈ l, C y (g x)) ∧ (l.map g).Pairwise C
        ∧ r = acc ++ l.map g := by
    intro l
    induction l with
    | nil =>
      intro acc
      rw [List.foldlM_nil]
      simp only [List.not_mem_nil, false_implies, implies_true, List.map_nil,
        List.Pairwise.nil, List.append_nil, true_and]
      exact ⟨fun h => (Except.ok.inj h).symm, fun h => congrArg Except.ok h.symm⟩
    | cons x l ih =>
      intro acc
      rw [List.foldlM_cons]
      constructor
      · intro h
        obtain ⟨acc', hx, h⟩ := of_bind_ok h
        obtain ⟨hA, hC, rfl⟩ := (hf acc x acc').mp hx
        obtain ⟨hAl, hCl, hpair, rfl⟩ := (ih _).mp h
        refine ⟨List.forall_mem_cons.mpr ⟨hA, hAl⟩, fun y hy z hz => ?_,
          List.pairwise_cons.mpr ⟨fun z hz => ?_, hpair⟩, by simp⟩
        · rcases List.mem_cons.mp hz with rfl | hz
          · exact hC y hy
          · exact hCl y (List.mem_append_left _ hy) z hz
        · obtain ⟨w, hw, rfl⟩ := List.mem_map.mp hz
          exact hCl (g x) (by simp) w hw
      · rintro ⟨hA, hC, hpair, rfl⟩
        obtain ⟨hAx, hAl⟩ := List.forall_mem_cons.mp hA
        obtain ⟨hfirst, hpair⟩ := List.pairwise_cons.mp hpair
        rw [(hf acc x _).mpr ⟨hAx, fun y hy => hC y hy x (by simp), rfl⟩]
        refine (ih _).mpr ⟨hAl, fun y hy z hz => ?_, hpair, by simp⟩
        rcases List.mem_append.mp hy with hy | hy
        · exact hC y hy z (List.mem_cons_of_mem _ hz)
        · obtain rfl := List.mem_singleton.mp hy
          exact hfirst (g z) (List.mem_map_of_mem hz)
  rw [hloop]
  simp

/-! ### Two computations side by side -/

section Agree

variable {ε' γ δ : Type} {R : α → β → Prop}

/-- Two computations succeed together, with results in relation. -/
def Agree (R : α → β → Prop) (x : Except ε α) (y : Except ε' β) : Prop :=
  (∃ a b, x = .ok a ∧ y = .ok b ∧ R a b) ∨ ((∃ e, x = .error e) ∧ ∃ e, y = .error e)

lemma Agree.ok {a : α} {b : β} (h : R a b) :
    Agree R (.ok a : Except ε α) (.ok b : Except ε' β) := .inl ⟨a, b, rfl, rfl, h⟩

lemma Agree.error {e : ε} {e' : ε'} :
    Agree R (.error e : Except ε α) (.error e' : Except ε' β) := .inr ⟨⟨e, rfl⟩, e', rfl⟩

/-- They succeed together. -/
lemma Agree.iff {x : Except ε α} {y : Except ε' β} (h : Agree R x y) :
    (∃ a, x = .ok a) ↔ ∃ b, y = .ok b := by
  rcases h with ⟨a, b, rfl, rfl, -⟩ | ⟨⟨e, rfl⟩, e', rfl⟩
  · exact ⟨fun _ => ⟨b, rfl⟩, fun _ => ⟨a, rfl⟩⟩
  · exact ⟨fun ⟨_, h⟩ => (by cases h), fun ⟨_, h⟩ => (by cases h)⟩

lemma Agree.rel {a : α} {b : β} (h : Agree R (.ok a : Except ε α) (.ok b : Except ε' β)) :
    R a b := by
  rcases h with ⟨a', b', ha, hb, hr⟩ | ⟨⟨e, he⟩, -⟩
  · cases ha
    cases hb
    exact hr
  · cases he

lemma Agree.bind {Q : γ → δ → Prop} {x : Except ε α} {y : Except ε' β} {f : α → Except ε γ}
    {g : β → Except ε' δ} (h : Agree R x y) (hfg : ∀ a b, R a b → Agree Q (f a) (g b)) :
    Agree Q (x >>= f) (y >>= g) := by
  rcases h with ⟨a, b, rfl, rfl, hr⟩ | ⟨⟨e, rfl⟩, e', rfl⟩
  · exact hfg a b hr
  · exact .error

lemma Agree.refuse {p q : Prop} [Decidable p] [Decidable q] {e : ε} {e' : ε'} (h : p ↔ q) :
    Agree (fun _ _ => True) (refuse p e) (refuse q e') := by
  by_cases hp : p
  · rw [Fallible.refuse, Fallible.refuse, if_pos hp, if_pos (h.mp hp)]
    exact .error
  · rw [Fallible.refuse, Fallible.refuse, if_neg hp, if_neg (fun hq => hp (h.mpr hq))]
    exact .ok trivial

/-- Two loops over lists in relation. -/
lemma Agree.foldlM {S : γ → δ → Prop} {f : α → γ → Except ε α} {g : β → δ → Except ε' β}
    (hstep : ∀ a b c d, R a b → S c d → Agree R (f a c) (g b d)) {cs : List γ} {ds : List δ}
    (h : List.Forall₂ S cs ds) {a : α} {b : β} (hab : R a b) :
    Agree R (cs.foldlM f a) (ds.foldlM g b) := by
  induction h generalizing a b with
  | nil => exact .ok hab
  | cons hcd _ ih => exact (hstep _ _ _ _ hab hcd).bind fun a b hr => ih hr

end Agree

/-- Elements that do nothing may be left out of a loop. -/
lemma foldlM_filter {f : β → α → Except ε β} {p : α → Bool}
    (hskip : ∀ b a, ¬ p a → f b a = .ok b) (l : List α) (b : β) :
    l.foldlM f b = (l.filter p).foldlM f b := by
  induction l generalizing b with
  | nil => rfl
  | cons a l ih =>
    by_cases hp : p a
    · rw [List.filter_cons_of_pos hp, List.foldlM_cons, List.foldlM_cons]
      exact congrArg _ (funext ih)
    · rw [List.filter_cons_of_neg hp, List.foldlM_cons, hskip b a hp]
      exact ih b

end Fallible
