import Mathlib.Tactic

/-!
Sequential code that may be interrupted between any two of its actions, or in the middle of one.

* `Code`: a tree of atomic actions, a monad with failure.
* `Machine.Runs`: a run from a state to a state, which ends with an outcome or is interrupted.
* `Machine.Meets`: an invariant that holds at every point where the code can be interrupted, and
  a postcondition of its outcome; `Meets.bind` composes, `Meets.sound` is adequacy.
* `Code.Only`: code that takes actions of one kind only; `Runs.of_only`, the frame rule.
* `exec`: the outcome on a machine that answers in one way only, `Machine.ofFun`.
-/

namespace Interrupt

/-- Code: `act` takes an atomic action and goes on with the answer. -/
inductive Code (A : Type) (R : A → Type) (ε α : Type) : Type
  | ret (value : α)
  | fail (error : ε)
  | act (action : A) (next : R action → Code A R ε α)

variable {A : Type} {R : A → Type} {ε α β σ : Type}

namespace Code

/-- Sequencing; a failure ends the code. -/
def bind (f : α → Code A R ε β) : Code A R ε α → Code A R ε β
  | .ret v => f v
  | .fail e => .fail e
  | .act a k => .act a fun r => bind f (k r)

instance : Monad (Code A R ε) where
  pure := .ret
  bind p f := p.bind f

/-- Fail with `e` if `p` holds. -/
def refuse (p : Prop) [Decidable p] (e : ε) : Code A R ε Unit := if p then .fail e else .ret ()

/-- Code that is left out unless `p` holds. -/
def when (p : Prop) [Decidable p] (c : Code A R ε Unit) : Code A R ε Unit :=
  if p then c else .ret ()

/-- A computation without actions. -/
def lift : Except ε α → Code A R ε α
  | .ok v => .ret v
  | .error e => .fail e

/-- Some run of the code takes the action. -/
def Does (a : A) : Code A R ε α → Prop
  | .ret _ => False
  | .fail _ => False
  | .act b k => b = a ∨ ∃ r, Does a (k r)

variable {a : A}

/-- The actions of a sequence are those of its parts. -/
lemma Does.of_bind {f : α → Code A R ε β} : ∀ {p : Code A R ε α}, Does a (p >>= f) →
    p.Does a ∨ ∃ v, (f v).Does a
  | .ret v, h => .inr ⟨v, h⟩
  | .fail _, h => h.elim
  | .act _ _, h => by
    rcases h with rfl | ⟨r, h⟩
    · exact .inl (.inl rfl)
    · exact (Does.of_bind h).imp_left fun h => .inr ⟨r, h⟩

lemma not_does_lift (x : Except ε α) : ¬ (lift x : Code A R ε α).Does a := by
  cases x <;> exact id

lemma not_does_refuse {p : Prop} [Decidable p] {e : ε} :
    ¬ (refuse p e : Code A R ε Unit).Does a := by
  unfold refuse
  split <;> exact id

/-- Every action of the code is one of `P`. -/
def Only (P : A → Prop) (p : Code A R ε α) : Prop := ∀ a, p.Does a → P a

namespace Only

variable {P : A → Prop}

lemma ret (v : α) : Only P (.ret v : Code A R ε α) := fun _ h => h.elim

lemma fail (e : ε) : Only P (.fail e : Code A R ε α) := fun _ h => h.elim

lemma lift (x : Except ε α) : Only P (.lift x : Code A R ε α) :=
  fun _ h => absurd h (not_does_lift x)

lemma refuse {p : Prop} [Decidable p] {e : ε} : Only P (.refuse p e : Code A R ε Unit) :=
  fun _ h => absurd h not_does_refuse

lemma bind {p : Code A R ε α} {f : α → Code A R ε β} (hp : Only P p) (hf : ∀ v, Only P (f v)) :
    Only P (p >>= f) := by
  intro a h
  rcases h.of_bind with h | ⟨v, h⟩
  · exact hp a h
  · exact hf v a h

lemma act {k : R a → Code A R ε α} (ha : P a) (hk : ∀ r, Only P (k r)) : Only P (.act a k) := by
  rintro b (rfl | ⟨r, h⟩)
  · exact ha
  · exact hk r b h

lemma when {p : Prop} [Decidable p] {c : Code A R ε Unit} (h : p → Only P c) :
    Only P (.when p c) := by
  unfold Code.when
  split
  · exact h ‹_›
  · exact .ret _

lemma forM {f : α → Code A R ε PUnit} {l : List α} (h : ∀ x ∈ l, Only P (f x)) :
    Only P (l.forM f) := by
  induction l with
  | nil => exact .ret _
  | cons x l ih => exact .bind (h x (by simp)) fun _ => ih fun y hy => h y (by simp [hy])

end Only

end Code

/-! ### Runs -/

/-- What the actions do, and what an action that is interrupted may leave. -/
structure Machine (σ A : Type) (R : A → Type) where
  effect : (a : A) → σ → R a → σ → Prop
  torn : (a : A) → σ → σ → Prop

namespace Machine

variable (M : Machine σ A R)

/-- A run; an outcome of `none` is an interruption. -/
def Runs : Code A R ε α → σ → Option (Except ε α) → σ → Prop
  | .ret v, s, out, s' => s' = s ∧ (out = none ∨ out = some (.ok v))
  | .fail e, s, out, s' => s' = s ∧ (out = none ∨ out = some (.error e))
  | .act a k, s, out, s' =>
      (out = none ∧ (s' = s ∨ M.torn a s s'))
        ∨ ∃ r t, M.effect a s r t ∧ Runs (k r) t out s'

variable {M} in
/-- Runs compose. -/
lemma Runs.bind {f : α → Code A R ε β} {out : Option (Except ε β)} {t u : σ} {v : α} :
    ∀ {p : Code A R ε α} {s : σ}, M.Runs p s (some (.ok v)) t → M.Runs (f v) t out u →
      M.Runs (p >>= f) s out u
  | .ret _, _, ⟨ht, hv⟩, h => by
    cases hv.resolve_left nofun
    subst ht
    exact h
  | .fail _, _, ⟨_, hv⟩, _ => by cases hv.resolve_left nofun
  | .act _ _, _, hrun, h => by
    obtain ⟨hnone, _⟩ | ⟨r, t', heffect, hrun⟩ := hrun
    · cases hnone
    · exact .inr ⟨r, t', heffect, hrun.bind h⟩

variable {M} in
/-- **The frame rule.**  What every action of the code does to the state, the code does. -/
lemma Runs.of_only {P : A → Prop} {T : σ → σ → Prop} (hrefl : ∀ s, T s s)
    (htrans : ∀ {s t u}, T s t → T t u → T s u)
    (heffect : ∀ a, P a → ∀ s r t, M.effect a s r t → T s t)
    (htorn : ∀ a, P a → ∀ s t, M.torn a s t → T s t) {out : Option (Except ε α)} {s' : σ} :
    ∀ {p : Code A R ε α} {s : σ}, p.Only P → M.Runs p s out s' → T s s'
  | .ret _, s, _, ⟨hs, _⟩ => hs ▸ hrefl s
  | .fail _, s, _, ⟨hs, _⟩ => hs ▸ hrefl s
  | .act a k, s, hp, hrun => by
    have ha := hp a (.inl rfl)
    obtain ⟨_, rfl | h⟩ | ⟨r, t, h, hrun⟩ := hrun
    · exact hrefl _
    · exact htorn a ha s s' h
    · exact htrans (heffect a ha s r t h)
        (of_only hrefl htrans heffect htorn (fun b hb => hp b (.inr ⟨r, hb⟩)) hrun)

/-- `inv` holds wherever the code can be interrupted, and `post` of its outcome. -/
def Meets (inv : σ → Prop) (post : Except ε α → σ → Prop) : Code A R ε α → σ → Prop
  | .ret v, s => inv s ∧ post (.ok v) s
  | .fail e, s => inv s ∧ post (.error e) s
  | .act a k, s =>
      inv s ∧ (∀ s', M.torn a s s' → inv s')
        ∧ ∀ r s', M.effect a s r s' → Meets inv post (k r) s'

variable {M} {inv : σ → Prop} {post post' : Except ε α → σ → Prop}

/-- **Adequacy.** -/
theorem Meets.sound : ∀ {p : Code A R ε α} {s s' : σ} {out : Option (Except ε α)},
    M.Meets inv post p s → M.Runs p s out s' →
    inv s' ∧ ∀ r, out = some r → post r s'
  | .ret v, s, s', out, h, ⟨hs, hout⟩ => by
    subst hs
    refine ⟨h.1, fun r hr => ?_⟩
    rcases hout with rfl | rfl
    · cases hr
    · cases hr
      exact h.2
  | .fail e, s, s', out, h, ⟨hs, hout⟩ => by
    subst hs
    refine ⟨h.1, fun r hr => ?_⟩
    rcases hout with rfl | rfl
    · cases hr
    · cases hr
      exact h.2
  | .act a k, s, s', out, h, hrun => by
    obtain ⟨hinv, htorn, hnext⟩ := h
    rcases hrun with ⟨rfl, rfl | hs⟩ | ⟨r, t, heffect, hrun⟩
    · exact ⟨hinv, fun r hr => by cases hr⟩
    · exact ⟨htorn s' hs, fun r hr => by cases hr⟩
    · exact sound (hnext r t heffect) hrun

/-- The rule of consequence. -/
lemma Meets.mono (hpost : ∀ r s, inv s → post r s → post' r s) :
    ∀ {p : Code A R ε α} {s : σ}, M.Meets inv post p s → M.Meets inv post' p s
  | .ret _, s, h => ⟨h.1, hpost _ s h.1 h.2⟩
  | .fail _, s, h => ⟨h.1, hpost _ s h.1 h.2⟩
  | .act _ _, _, ⟨hinv, htorn, hnext⟩ =>
    ⟨hinv, htorn, fun r s' heffect => mono hpost (hnext r s' heffect)⟩

/-- The rule of sequencing. -/
lemma Meets.bind {f : α → Code A R ε β} {post : Except ε β → σ → Prop} :
    ∀ {p : Code A R ε α} {s : σ},
      M.Meets inv (fun r s => match r with
        | .ok v => M.Meets inv post (f v) s
        | .error e => post (.error e) s) p s →
      M.Meets inv post (p >>= f) s
  | .ret _, _, h => h.2
  | .fail _, _, h => h
  | .act _ _, _, ⟨hinv, htorn, hnext⟩ =>
    ⟨hinv, htorn, fun r s' heffect => Meets.bind (hnext r s' heffect)⟩

lemma Meets.refuse {p : Prop} [Decidable p] {e : ε} {post : Except ε Unit → σ → Prop} {s : σ}
    (hinv : inv s) (hfail : p → post (.error e) s) (hpass : ¬ p → post (.ok ()) s) :
    M.Meets inv post (Code.refuse p e) s := by
  rw [Code.refuse]
  split
  · exact ⟨hinv, hfail ‹_›⟩
  · exact ⟨hinv, hpass ‹_›⟩

lemma Meets.lift {x : Except ε α} {s : σ} (hinv : inv s) (h : post x s) :
    M.Meets inv post (Code.lift x) s := by
  cases x with
  | ok v => exact ⟨hinv, h⟩
  | error e => exact ⟨hinv, h⟩

end Machine

/-! ### Machines that answer in one way -/

/-- The outcome of the code if it is not interrupted. -/
def exec (f : (a : A) → σ → R a × σ) : Code A R ε α → σ → Except ε α × σ
  | .ret v, s => (.ok v, s)
  | .fail e, s => (.error e, s)
  | .act a k, s => exec f (k (f a s).1) (f a s).2

/-- The machine on which each action has one effect. -/
def Machine.ofFun (f : (a : A) → σ → R a × σ) (torn : (a : A) → σ → σ → Prop) :
    Machine σ A R where
  effect a s r s' := f a s = (r, s')
  torn := torn

variable {f : (a : A) → σ → R a × σ} {torn : (a : A) → σ → σ → Prop}

/-- On such a machine the code runs to its outcome, and to no other. -/
lemma runs_ofFun : ∀ {p : Code A R ε α} {s s' : σ} {r : Except ε α},
    (Machine.ofFun f torn).Runs p s (some r) s' ↔ exec f p s = (r, s')
  | .ret v, s, s', r => by
    simp only [Machine.Runs, exec, Prod.mk.injEq, reduceCtorEq, false_or, Option.some.injEq]
    exact ⟨fun h => ⟨h.2.symm, h.1.symm⟩, fun h => ⟨h.2.symm, h.1.symm⟩⟩
  | .fail e, s, s', r => by
    simp only [Machine.Runs, exec, Prod.mk.injEq, reduceCtorEq, false_or, Option.some.injEq]
    exact ⟨fun h => ⟨h.2.symm, h.1.symm⟩, fun h => ⟨h.2.symm, h.1.symm⟩⟩
  | .act a k, s, s', r => by
    rw [exec, ← runs_ofFun (p := k (f a s).1)]
    constructor
    · rintro (⟨h, _⟩ | ⟨r', t, heffect, hrun⟩)
      · cases h
      · have heq : f a s = (r', t) := heffect
        rw [heq]
        exact hrun
    · exact fun h => .inr ⟨_, _, rfl, h⟩

/-- What code guarantees it guarantees of its outcome. -/
lemma Machine.Meets.exec {inv : σ → Prop} {post : Except ε α → σ → Prop} {p : Code A R ε α}
    {s : σ} (h : (Machine.ofFun f torn).Meets inv post p s) :
    inv (exec f p s).2 ∧ post (exec f p s).1 (exec f p s).2 := by
  obtain ⟨hinv, hpost⟩ := h.sound (runs_ofFun.mpr (Prod.mk.eta (p := Interrupt.exec f p s)).symm)
  exact ⟨hinv, hpost _ rfl⟩

/-- One action of the code. -/
lemma Machine.Meets.act {inv : σ → Prop} {post : Except ε α → σ → Prop} {a : A}
    {k : R a → Code A R ε α} {s t : σ} {r : R a} (hstep : f a s = (r, t)) (hinv : inv s)
    (htorn : ∀ s', torn a s s' → inv s') (hnext : (Machine.ofFun f torn).Meets inv post (k r) t) :
    (Machine.ofFun f torn).Meets inv post (.act a k) s := by
  refine ⟨hinv, htorn, fun r' s' heffect => ?_⟩
  obtain ⟨rfl, rfl⟩ := Prod.mk.inj (hstep.symm.trans heffect)
  exact hnext

end Interrupt
