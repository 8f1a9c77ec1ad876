import Subyard.History.Registry
import Subyard.Library.Lines
import Subyard.Library.Path
import Mathlib.Data.List.Destutter

/-!
Operation plans and the registry of actions: what a plan says, when its steps are well formed,
which confirmation an assessed action needs, and when two plans are the same.

* `OperationStep`, `validateOperationSteps`, `equalOperationSteps`: the steps of a plan.
* `ActionRegistry`: the actions that are known, each in the form `normalizeDefinition` leaves
  (`ActionDefinition.Normal`), so that a registry with another definition cannot be built.
* `ActionRegistry.assess`, `ActionRegistry.resolve`: from an action and what it would change to an
  assessment, and from an assessment to the policy that governs it.
* `equalActionPlan_iff`: the field by field comparison of two plans is equality.

The values of the enumerations are texts in the source and come from plans that need not be the
orchestrator's own: each has a constructor for a text that is none of the constants.
-/

namespace Subyard.Operation

open Text Lines Fallible

/-- The errors of the package: one that wraps `ErrActionPolicyInvalid`, `ErrDeclined`, an error
of a port, any other one. -/
inductive Fault
  | policyInvalid (message : Bytes)
  | declined
  | port (text : Bytes)
  | plain (message : Bytes)
deriving DecidableEq, Repr

def actionPolicyInvalid (message : String) (subject : Bytes := []) : Fault :=
  .policyInvalid (str message ++ subject)

/-! ### Steps -/

inductive StepDecision
  | apply
  | skip
  | conditional
  | other (text : Bytes)
deriving DecidableEq, Repr

/-- `OperationStep`: an authorised effect. -/
structure OperationStep where
  id : Bytes
  target : Bytes
  observed : Bytes
  desired : Bytes
  decision : StepDecision
  preconditions : List Bytes
  dependsOn : List Bytes
  verify : Bytes
  consequence : Bytes
deriving DecidableEq, Repr

def operationStepText (value : Bytes) : Bool :=
  value ≠ [] && value.length ≤ 512 && valid value && trimSpace value = value
    && !Path.containsControl value

/-- The loop over the dependencies of a step: each is the id of an earlier step, none is named
twice. -/
def checkDependencies (seen : List Bytes) : List Bytes → List Bytes → Except Fault Unit
  | _, [] => .ok ()
  | dependencies, dependency :: rest => do
      refuse (dependency ∉ seen ∨ dependency ∈ dependencies)
        (actionPolicyInvalid "operation step dependency must precede its step")
      checkDependencies seen (dependency :: dependencies) rest

/-- The body of the loop of `ValidateOperationSteps`. -/
def validateStep (seen : List Bytes) (step : OperationStep) : Except Fault Unit := do
  refuse (¬ domainSafeID step.id ∨ step.id ∈ seen)
    (actionPolicyInvalid "invalid or duplicate operation step ID")
  refuse (step.decision ≠ .apply ∧ step.decision ≠ .skip ∧ step.decision ≠ .conditional)
    (actionPolicyInvalid "invalid operation step decision")
  [step.target, step.observed, step.desired, step.verify].forM fun value =>
    refuse (¬ operationStepText value) (actionPolicyInvalid "invalid operation step fact")
  refuse (step.consequence ≠ [] ∧ ¬ operationStepText step.consequence)
    (actionPolicyInvalid "invalid operation step consequence")
  refuse (64 < step.preconditions.length ∨ 64 < step.dependsOn.length)
    (actionPolicyInvalid "too many operation step guards")
  step.preconditions.forM fun guard =>
    refuse (¬ operationStepText guard) (actionPolicyInvalid "invalid operation step precondition")
  checkDependencies seen [] step.dependsOn

/-- The loop of `ValidateOperationSteps` with the ids it has seen. -/
def validateSteps : List Bytes → List OperationStep → Except Fault Unit
  | _, [] => .ok ()
  | seen, step :: rest => do
      validateStep seen step
      validateSteps (step.id :: seen) rest

def validateOperationSteps (steps : List OperationStep) : Except Fault Unit := do
  refuse (256 < steps.length) (actionPolicyInvalid "too many operation steps")
  validateSteps [] steps

def OperationStep.equal (a b : OperationStep) : Bool :=
  a.id = b.id && a.target = b.target && a.observed = b.observed && a.desired = b.desired
    && a.decision = b.decision && a.verify = b.verify && a.consequence = b.consequence
    && a.preconditions = b.preconditions && a.dependsOn = b.dependsOn

def equalOperationSteps (left right : List OperationStep) : Bool :=
  left.isEqv right OperationStep.equal

lemma OperationStep.equal_iff {a b : OperationStep} : a.equal b ↔ a = b := by
  cases a
  cases b
  simp only [equal, Bool.and_eq_true, decide_eq_true_eq, mk.injEq]
  tauto

lemma equalOperationSteps_iff {left right : List OperationStep} :
    equalOperationSteps left right ↔ left = right := by
  induction left generalizing right with
  | nil => cases right <;> simp [equalOperationSteps]
  | cons a left ih =>
    cases right with
    | nil => simp [equalOperationSteps]
    | cons b right =>
      rw [equalOperationSteps, List.isEqv_cons_cons, Bool.and_eq_true, OperationStep.equal_iff,
        List.cons.injEq]
      exact and_congr_right fun _ => ih

/-! ### Actions -/

abbrev ActionID := Bytes

inductive ActionEffect
  | read
  | session
  | boundedWrite
  | mutation
  | destruction
  | other (text : Bytes)
deriving DecidableEq, Repr

inductive ActionImpact
  | localMetadata
  | yardRuntime
  | hostOS
  | hostNetwork
  | hostIncus
  | security
  | trust
  | access
  | externalSystem
  | sharedWorkload
  | persistentData
  | other (text : Bytes)
deriving DecidableEq, Repr

/-- The texts of the impacts, by which they are sorted. -/
def ActionImpact.text : ActionImpact → Bytes
  | localMetadata => str "local-metadata"
  | yardRuntime => str "yard-runtime"
  | hostOS => str "host-os"
  | hostNetwork => str "host-network"
  | hostIncus => str "host-incus"
  | security => str "security"
  | trust => str "trust"
  | access => str "access"
  | externalSystem => str "external-system"
  | sharedWorkload => str "shared-workload"
  | persistentData => str "persistent-data"
  | other text => text

inductive RecoveryClass
  | notNeeded
  | reversible
  | recreatable
  | irreversible
  | other (text : Bytes)
deriving DecidableEq, Repr

inductive ActionConfirmationPolicy
  | never
  | promptDefaultYes
  | promptDefaultNo
deriving DecidableEq, Repr

inductive ConfirmationDefault
  | yes
  | no
  | other (text : Bytes)
deriving DecidableEq, Repr

structure ActionAssessment where
  action : ActionID
  effect : ActionEffect
  changed : Bool
  impacts : List ActionImpact
  recovery : RecoveryClass
  consequences : List Bytes
deriving DecidableEq, Repr

structure ConfirmationRequest where
  summary : Bytes
  consequences : List Bytes
  default : ConfirmationDefault
deriving DecidableEq, Repr

structure ActionDefinition where
  action : ActionID
  summary : Bytes
  effect : ActionEffect
  impacts : List ActionImpact
  recovery : RecoveryClass
deriving DecidableEq, Repr

structure ActionDelta where
  changed : Bool
  consequences : List Bytes

def safeText (value : Bytes) : Bool := trimSpace value ≠ [] && !Path.containsControl value

def isStateChanging (effect : ActionEffect) : Bool := effect = .mutation || effect = .destruction

def validActionEffect : ActionEffect → Bool
  | .other _ => false
  | _ => true

def validActionImpact : ActionImpact → Bool
  | .other _ => false
  | _ => true

def validRecoveryClass : RecoveryClass → Bool
  | .other _ => false
  | _ => true

/-- The order of `slices.Sort` on impacts. -/
abbrev byText (a b : ActionImpact) : Prop := a.text ≤ b.text

def normalizeImpacts (impacts : List ActionImpact) : Except Fault (List ActionImpact) := do
  impacts.forM fun impact =>
    refuse (¬ validActionImpact impact) (actionPolicyInvalid "invalid action impact " impact.text)
  pure ((impacts.insertionSort byText).destutter (· ≠ ·))

def normalizeConsequences (consequences : List Bytes) : Except Fault (List Bytes) := do
  consequences.forM fun consequence =>
    refuse (¬ safeText consequence) (actionPolicyInvalid "invalid action consequence")
  pure (consequences.map trimSpace)

def normalizeDefinition (definition : ActionDefinition) : Except Fault ActionDefinition := do
  refuse (¬ domainSafeID definition.action)
    (actionPolicyInvalid "invalid action ID " definition.action)
  refuse (¬ safeText definition.summary)
    (actionPolicyInvalid "invalid summary for action " definition.action)
  refuse (¬ validActionEffect definition.effect)
    (actionPolicyInvalid "invalid effect for action " definition.action)
  refuse (¬ validRecoveryClass definition.recovery)
    (actionPolicyInvalid "invalid recovery for action " definition.action)
  let impacts ← normalizeImpacts definition.impacts
  refuse (¬ isStateChanging definition.effect ∧ definition.recovery ≠ .notNeeded)
    (actionPolicyInvalid "effect requires not-needed recovery")
  refuse (isStateChanging definition.effect ∧ impacts = [])
    (actionPolicyInvalid "effect requires an impact")
  refuse (isStateChanging definition.effect ∧ definition.recovery = .notNeeded)
    (actionPolicyInvalid "effect requires a recovery class")
  pure { definition with summary := trimSpace definition.summary, impacts }

/-- A definition that normalisation leaves. -/
def ActionDefinition.Normal (definition : ActionDefinition) : Prop :=
  ∃ given, normalizeDefinition given = .ok definition

/-- `ActionRegistry`: its field is not exported, so each definition went through
`normalizeDefinition` and stands under its own id. -/
structure ActionRegistry where
  definitions : Dict ActionID ActionDefinition
  normal : ∀ action definition, definitions.lookup action = some definition →
    definition.Normal ∧ definition.action = action

def validateAssessment (definition : ActionDefinition) (assessment : ActionAssessment) :
    Except Fault Unit := do
  refuse (¬ domainSafeID assessment.action ∨ assessment.action ≠ definition.action
      ∨ assessment.effect ≠ definition.effect ∨ assessment.recovery ≠ definition.recovery)
    (actionPolicyInvalid "assessment metadata does not match action " definition.action)
  let impacts ← normalizeImpacts assessment.impacts
  refuse (impacts ≠ definition.impacts)
    (actionPolicyInvalid "assessment impacts do not match action " definition.action)
  let consequences ← normalizeConsequences assessment.consequences
  refuse (consequences ≠ assessment.consequences)
    (actionPolicyInvalid "assessment consequences are not normalized")
  refuse (assessment.changed ∧ isStateChanging assessment.effect ∧ consequences = [])
    (actionPolicyInvalid "changed action requires a consequence: " assessment.action)

namespace ActionRegistry

variable (registry : ActionRegistry)

def assess (action : ActionID) (delta : ActionDelta) : Except Fault ActionAssessment := do
  refuse (¬ domainSafeID action) (actionPolicyInvalid "invalid action ID " action)
  (registry.definitions.lookup action).elim
    (.error (actionPolicyInvalid "unknown action " action)) fun definition => do
      let consequences ← normalizeConsequences delta.consequences
      refuse (delta.changed ∧ isStateChanging definition.effect ∧ consequences = [])
        (actionPolicyInvalid "changed action requires a consequence: " action)
      pure {
        action := definition.action
        effect := definition.effect
        changed := delta.changed
        impacts := definition.impacts
        recovery := definition.recovery
        consequences }

/-- The end of `Resolve`: the policy of an assessment that matches its definition. -/
def policyOf (definition : ActionDefinition) (assessment : ActionAssessment) :
    Except Fault (ActionConfirmationPolicy × Option ConfirmationRequest) :=
  if ¬ assessment.changed then .ok (.never, none)
  else if definition.effect = .read ∨ definition.effect = .session
      ∨ definition.effect = .boundedWrite then .ok (.never, none)
  else
    match definition.recovery with
    | .reversible | .recreatable =>
        .ok (.promptDefaultYes, some ⟨definition.summary, assessment.consequences, .yes⟩)
    | .irreversible =>
        .ok (.promptDefaultNo, some ⟨definition.summary, assessment.consequences, .no⟩)
    | _ => .error (actionPolicyInvalid "invalid recovery for action " assessment.action)

def resolve (assessment : ActionAssessment) :
    Except Fault (ActionConfirmationPolicy × Option ConfirmationRequest) :=
  (registry.definitions.lookup assessment.action).elim
    (.error (actionPolicyInvalid "unknown action " assessment.action)) fun definition => do
      validateAssessment definition assessment
      policyOf definition assessment

end ActionRegistry

/-! ### Plans -/

inductive CommandEffect
  | read
  | mutate
  | other (text : Bytes)
deriving DecidableEq, Repr

inductive ConfirmationPolicy
  | never
  | promptDefaultYes
  | promptDefaultNo
  | other (text : Bytes)
deriving DecidableEq, Repr

inductive RemotePolicy
  | onController
  | onOwner
  | denied
  | other (text : Bytes)
deriving DecidableEq, Repr

inductive ExecutionTarget
  | localController
  | localOwner
  | remoteOwner
  | other (text : Bytes)
deriving DecidableEq, Repr

structure CommandPolicy where
  name : Bytes
  effect : CommandEffect
  confirmation : ConfirmationPolicy
  remotePolicy : RemotePolicy
  consequences : List Bytes

/-- `OperationPlan`: the time of its creation is an instant. -/
structure OperationPlan where
  operationID : Bytes
  command : Bytes
  effect : CommandEffect
  confirmation : ConfirmationPolicy
  target : ExecutionTarget
  consequences : List Bytes
  steps : List OperationStep
  assessment : Option ActionAssessment
  confirmationRequest : Option ConfirmationRequest
  confirmed : Bool
  createdAt : ℤ
deriving DecidableEq, Repr

def commandEffect (effect : ActionEffect) : CommandEffect :=
  if effect = .read then .read else .mutate

/-- The conversion between the two types of policies, which have the same texts. -/
def confirmationPolicy : ActionConfirmationPolicy → ConfirmationPolicy
  | .never => .never
  | .promptDefaultYes => .promptDefaultYes
  | .promptDefaultNo => .promptDefaultNo

def validConfirmationPolicy : ConfirmationPolicy → Bool
  | .other _ => false
  | _ => true

/-- The default of the prompt a policy asks for. -/
def confirmationDefault : ConfirmationPolicy → Option ConfirmationDefault
  | .promptDefaultNo => some .no
  | .promptDefaultYes => some .yes
  | _ => none

def equalRequest : Option ConfirmationRequest → Option ConfirmationRequest → Bool
  | some left, some right =>
      left.summary = right.summary && left.default = right.default
        && left.consequences = right.consequences
  | none, none => true
  | _, _ => false

def equalAssessment : Option ActionAssessment → Option ActionAssessment → Bool
  | some left, some right =>
      left.action = right.action && left.effect = right.effect && left.changed = right.changed
        && left.impacts = right.impacts && left.recovery = right.recovery
        && left.consequences = right.consequences
  | none, none => true
  | _, _ => false

def equalActionPlan (left right : OperationPlan) : Bool :=
  left.operationID = right.operationID && left.command = right.command
    && left.effect = right.effect && left.confirmation = right.confirmation
    && left.target = right.target && equalOperationSteps left.steps right.steps
    && left.consequences = right.consequences && equalAssessment left.assessment right.assessment
    && equalRequest left.confirmationRequest right.confirmationRequest
    && left.confirmed = right.confirmed && left.createdAt = right.createdAt

lemma equalRequest_iff : ∀ {left right : Option ConfirmationRequest},
    equalRequest left right ↔ left = right
  | none, none => by simp [equalRequest]
  | none, some _ => by simp [equalRequest]
  | some _, none => by simp [equalRequest]
  | some ⟨_, _, _⟩, some ⟨_, _, _⟩ => by
    simp only [equalRequest, Bool.and_eq_true, decide_eq_true_eq, Option.some.injEq,
      ConfirmationRequest.mk.injEq]
    tauto

lemma equalAssessment_iff : ∀ {left right : Option ActionAssessment},
    equalAssessment left right ↔ left = right
  | none, none => by simp [equalAssessment]
  | none, some _ => by simp [equalAssessment]
  | some _, none => by simp [equalAssessment]
  | some ⟨_, _, _, _, _, _⟩, some ⟨_, _, _, _, _, _⟩ => by
    simp only [equalAssessment, Bool.and_eq_true, decide_eq_true_eq, Option.some.injEq,
      ActionAssessment.mk.injEq]
    tauto

/-- Two plans that compare equal are equal. -/
lemma equalActionPlan_iff {left right : OperationPlan} :
    equalActionPlan left right ↔ left = right := by
  cases left
  cases right
  simp only [equalActionPlan, Bool.and_eq_true, decide_eq_true_eq, OperationPlan.mk.injEq,
    equalOperationSteps_iff, equalAssessment_iff, equalRequest_iff]
  tauto

end Subyard.Operation
