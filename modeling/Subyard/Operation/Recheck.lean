import Subyard.Library.Pointwise
import Subyard.Operation.Plan

/-!
The check of fresh operation steps against the approved ones, `CheckOperationSteps`.

* `checkOperationSteps`: the check; `checkOperationSteps_ok` says what it accepts: both lists are
  well formed, and each fresh step resolves the approved step in its place (`Resolves`).
* `Resolves.trans`: a step may be resolved in turns.
* `precedes_of_valid`: in a well-formed list every dependency of a step is the id of an earlier one.
* `approval_composes`: **approvals compose**, and no fresh step does work that was not approved.
-/

namespace Subyard.Operation

open Text Fallible

/-- The errors of the check: those of `ValidateOperationSteps`, and `ErrPlanStale`. -/
inductive CheckFault
  | invalid (fault : Fault)
  | planStale (message : Bytes)
deriving DecidableEq, Repr

/-- The body of the loop of `CheckOperationSteps`. -/
def checkStep (before after : OperationStep) : Except CheckFault Unit := do
  refuse (before.id ≠ after.id ∨ before.target ≠ after.target ∨ before.desired ≠ after.desired
      ∨ before.verify ≠ after.verify ∨ before.consequence ≠ after.consequence
      ∨ before.preconditions ≠ after.preconditions ∨ before.dependsOn ≠ after.dependsOn)
    (.planStale (str "operation step \"" ++ before.id ++ str "\" scope changed"))
  -- Steps that are skipped go on to the next one.
  refuse (after.decision ≠ .skip ∧ (before.decision = .skip ∨ before.decision = .apply
      ∧ (after.decision ≠ .apply ∨ before.observed ≠ after.observed)))
    (.planStale (str "operation step \"" ++ before.id ++ str "\" requires new work"))

def checkOperationSteps (approved fresh : List OperationStep) : Except CheckFault Unit := do
  (validateOperationSteps approved).mapError .invalid
  (validateOperationSteps fresh).mapError .invalid
  refuse (approved.length ≠ fresh.length) (.planStale (str "operation step set changed"))
  (approved.zip fresh).forM fun pair => checkStep pair.1 pair.2

/-- The fresh step is the approved one, or what is left of it. -/
structure Resolves (before after : OperationStep) : Prop where
  id : before.id = after.id
  target : before.target = after.target
  desired : before.desired = after.desired
  verify : before.verify = after.verify
  consequence : before.consequence = after.consequence
  preconditions : before.preconditions = after.preconditions
  dependsOn : before.dependsOn = after.dependsOn
  performed : after.decision ≠ .skip → before.decision ≠ .skip
  observed : after.decision ≠ .skip → before.decision = .apply →
    after.decision = .apply ∧ before.observed = after.observed

lemma checkStep_ok {before after : OperationStep} :
    checkStep before after = .ok () ↔ Resolves before after := by
  rw [checkStep, refuse_bind, refuse_eq_ok]
  constructor
  · rintro ⟨hscope, hwork⟩
    push Not at hscope hwork
    obtain ⟨hid, htarget, hdesired, hverify, hconsequence, hpreconditions, hdependsOn⟩ := hscope
    exact ⟨hid, htarget, hdesired, hverify, hconsequence, hpreconditions, hdependsOn,
      fun hskip => (hwork hskip).1, fun hskip => (hwork hskip).2⟩
  · intro h
    push Not
    exact ⟨⟨h.id, h.target, h.desired, h.verify, h.consequence, h.preconditions, h.dependsOn⟩,
      fun hskip => ⟨h.performed hskip, h.observed hskip⟩⟩

lemma Resolves.trans {a b c : OperationStep} (hab : Resolves a b) (hbc : Resolves b c) :
    Resolves a c where
  id := hab.id.trans hbc.id
  target := hab.target.trans hbc.target
  desired := hab.desired.trans hbc.desired
  verify := hab.verify.trans hbc.verify
  consequence := hab.consequence.trans hbc.consequence
  preconditions := hab.preconditions.trans hbc.preconditions
  dependsOn := hab.dependsOn.trans hbc.dependsOn
  performed hskip := hab.performed (hbc.performed hskip)
  observed hskip happly := by
    obtain ⟨hb, hseen⟩ := hab.observed (hbc.performed hskip) happly
    obtain ⟨hc, hseen'⟩ := hbc.observed hskip hb
    exact ⟨hc, hseen.trans hseen'⟩

lemma checkOperationSteps_ok {approved fresh : List OperationStep} :
    checkOperationSteps approved fresh = .ok () ↔ validateOperationSteps approved = .ok ()
      ∧ validateOperationSteps fresh = .ok () ∧ List.Forall₂ Resolves approved fresh := by
  rw [checkOperationSteps, check_bind, mapError_eq_ok, check_bind, mapError_eq_ok, refuse_bind,
    not_not, forM_eq_ok, List.forall₂_iff_zip]
  simp only [Prod.forall, checkStep_ok]

/-! ### Dependencies -/

lemma mem_of_checkDependencies {seen : List Bytes} : ∀ {dependencies rest : List Bytes},
    checkDependencies seen dependencies rest = .ok () → ∀ d ∈ rest, d ∈ seen
  | _, [], _, _, hd => absurd hd List.not_mem_nil
  | _, _ :: _, h, d, hd => by
    obtain ⟨hseen, h⟩ := refuse_bind.mp h
    rcases List.mem_cons.mp hd with rfl | hd
    · exact not_not.mp (not_or.mp hseen).1
    · exact mem_of_checkDependencies h d hd

lemma mem_of_validateStep {seen : List Bytes} {step : OperationStep}
    (h : validateStep seen step = .ok ()) : ∀ d ∈ step.dependsOn, d ∈ seen := by
  rw [validateStep, refuse_bind, refuse_bind, check_bind, refuse_bind, refuse_bind, check_bind] at h
  exact mem_of_checkDependencies h.2.2.2.2.2.2

/-- A dependency was seen before, or is the id of a step before it. -/
lemma precedes_of_validateSteps {step : OperationStep} {rest : List OperationStep} :
    ∀ {seen : List Bytes} {before : List OperationStep},
    validateSteps seen (before ++ step :: rest) = .ok () →
    ∀ d ∈ step.dependsOn, d ∈ seen ∨ ∃ earlier ∈ before, earlier.id = d
  | _, [], h, d, hd => .inl (mem_of_validateStep (check_bind.mp h).1 d hd)
  | _, first :: before, h, d, hd => by
    obtain ⟨-, h⟩ := check_bind.mp h
    rcases precedes_of_validateSteps h d hd with hseen | ⟨earlier, hearlier, heq⟩
    · rcases List.mem_cons.mp hseen with rfl | hseen
      · exact .inr ⟨first, List.mem_cons_self, rfl⟩
      · exact .inl hseen
    · exact .inr ⟨earlier, List.mem_cons_of_mem _ hearlier, heq⟩

/-- In a well-formed list every dependency of a step is the id of an earlier one. -/
lemma precedes_of_valid {before rest : List OperationStep} {step : OperationStep}
    (h : validateOperationSteps (before ++ step :: rest) = .ok ()) :
    ∀ d ∈ step.dependsOn, ∃ earlier ∈ before, earlier.id = d := by
  intro d hd
  rw [validateOperationSteps, refuse_bind] at h
  rcases precedes_of_validateSteps h.2 d hd with hseen | hearlier
  · exact absurd hseen List.not_mem_nil
  · exact hearlier

/-! ### Composition -/

/-- **Approvals compose.**  What is accepted in two turns is accepted at once, and whenever fresh
steps are accepted, each that is not skipped stands in the place of an approved step that is not
skipped either, with the same scope, after all that it depends on. -/
theorem approval_composes (a b c : List OperationStep) :
    (checkOperationSteps a b = .ok () → checkOperationSteps b c = .ok () →
        checkOperationSteps a c = .ok ())
      ∧ (checkOperationSteps a b = .ok () → ∀ before step rest, b = before ++ step :: rest →
        step.decision ≠ .skip → ∃ before' approved rest', a = before' ++ approved :: rest'
          ∧ before'.length = before.length ∧ approved.decision ≠ .skip
          ∧ approved.id = step.id ∧ approved.target = step.target
          ∧ approved.desired = step.desired ∧ approved.verify = step.verify
          ∧ approved.preconditions = step.preconditions ∧ approved.dependsOn = step.dependsOn
          ∧ ∀ d ∈ step.dependsOn, (∃ earlier ∈ before', earlier.id = d)
            ∧ ∃ earlier ∈ before, earlier.id = d) := by
  constructor
  · intro hab hbc
    obtain ⟨ha, -, hab⟩ := checkOperationSteps_ok.mp hab
    obtain ⟨-, hc, hbc⟩ := checkOperationSteps_ok.mp hbc
    exact checkOperationSteps_ok.mpr ⟨ha, hc, Pointwise.trans (fun _ _ _ h h' => h.trans h') hab hbc⟩
  · rintro hab before step rest rfl hskip
    obtain ⟨ha, hb, hab⟩ := checkOperationSteps_ok.mp hab
    have hbefore := List.forall₂_take_append _ _ _ hab
    obtain ⟨approved, rest', hstep, -, hlast⟩ :=
      List.forall₂_cons_right_iff.mp (List.forall₂_drop_append _ _ _ hab)
    have hsplit : a = a.take before.length ++ approved :: rest' := by
      rw [← hlast, List.take_append_drop]
    rw [hsplit] at ha
    refine ⟨_, approved, rest', hsplit, hbefore.length_eq, hstep.performed hskip, hstep.id,
      hstep.target, hstep.desired, hstep.verify, hstep.preconditions, hstep.dependsOn,
      fun d hd => ⟨precedes_of_valid ha d ?_, precedes_of_valid hb d hd⟩⟩
    rw [hstep.dependsOn]
    exact hd

/-- A step with or without work left. -/
example (decision : StepDecision) (h : decision = .apply ∨ decision = .skip) :
    checkOperationSteps [⟨str "a", str "t", str "old", str "new", .conditional, [], [], str "v", []⟩]
      [⟨str "a", str "t", str "x", str "new", decision, [], [], str "v", []⟩] = .ok () := by
  rcases h with rfl | rfl <;> rfl

end Subyard.Operation
