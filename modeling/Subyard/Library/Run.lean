import Mathlib.Tactic

/-!
Runs of a deterministic machine: a state, a list of inputs, a step function.

* `run`: the state after a list of inputs, `AllSteps`: a condition that every step of the run
  meets in the state it starts from.
* `invariant`: what holds at the start and is kept by every step that meets the condition holds
  after every such run.
-/

namespace Run

variable {σ ε : Type*} {step : σ → ε → σ}

/-- The state after a list of inputs. -/
def run (step : σ → ε → σ) (s : σ) (es : List ε) : σ := es.foldl step s

/-- Every step of the run meets `ok` in the state it starts from. -/
def AllSteps (step : σ → ε → σ) (ok : σ → ε → Prop) : σ → List ε → Prop
  | _, [] => True
  | s, e :: es => ok s e ∧ AllSteps step ok (step s e) es

/-- The condition can be evaluated along a concrete run. -/
instance AllSteps.decidable {ok : σ → ε → Prop} [∀ s e, Decidable (ok s e)] (s : σ) :
    ∀ es : List ε, Decidable (AllSteps step ok s es) := fun es =>
  match es with
  | [] => isTrue trivial
  | e :: es =>
      have : Decidable (AllSteps step ok (step s e) es) := AllSteps.decidable (step s e) es
      inferInstanceAs (Decidable (ok s e ∧ AllSteps step ok (step s e) es))

@[simp] lemma run_nil (s : σ) : run step s [] = s := rfl

@[simp] lemma run_cons (s : σ) (e : ε) (es : List ε) :
    run step s (e :: es) = run step (step s e) es := rfl

lemma run_append (s : σ) (es fs : List ε) :
    run step s (es ++ fs) = run step (run step s es) fs := List.foldl_append ..

lemma allSteps_append {ok : σ → ε → Prop} {s : σ} {es fs : List ε} :
    AllSteps step ok s (es ++ fs)
      ↔ AllSteps step ok s es ∧ AllSteps step ok (run step s es) fs := by
  induction es generalizing s with
  | nil => simp [AllSteps]
  | cons e es ih => simp only [List.cons_append, AllSteps, run_cons, ih, and_assoc]

/-- A condition that always holds is met along every run. -/
lemma allSteps_of_forall {ok : σ → ε → Prop} (h : ∀ s e, ok s e) (s : σ) :
    ∀ es : List ε, AllSteps step ok s es
  | [] => trivial
  | e :: es => ⟨h s e, allSteps_of_forall h (step s e) es⟩

/-- The invariant rule. -/
theorem invariant {P : σ → ε → Prop} {I : σ → Prop}
    (hstep : ∀ s e, I s → P s e → I (step s e)) {s : σ} {es : List ε} (h : I s)
    (hok : AllSteps step P s es) : I (run step s es) := by
  induction es generalizing s with
  | nil => exact h
  | cons e es ih => exact ih (hstep s e h hok.1) hok.2

end Run
