import Subyard.Library.Open
import Subyard.Library.Path
import Subyard.Release.Basic

/-!
The records of a release transition: the pair of releases, the journal with its steps and the
evidence of each, and what is asked of them.

* `JournalRecord.validate`, `EvidenceRecord.validate`: the checks, with their errors.
* `JournalRecord.Valid`: what they ask for.
* `JournalRecord.validate_ok`: **the checks accept exactly the valid journals**.
-/

namespace Subyard.Release

open Text Fallible History

/-! ### Names -/

abbrev ReleaseID := Bytes

abbrev TransactionID := Bytes

abbrev PlanToken := Bytes

inductive Direction
  | activateTarget | activatePrevious
deriving DecidableEq, Repr

inductive Decision
  | preserve | transform | canonicalize | reset | quarantine | block
deriving DecidableEq, Repr

inductive JournalCheckpoint
  | authorized | migrating | activationIntent | targetActive | reconciling | complete
deriving DecidableEq, Repr

inductive StepCheckpoint
  | intent | evidence | applied | verified
deriving DecidableEq, Repr

inductive EvidenceCheckpoint
  | captured | applied | verified
deriving DecidableEq, Repr

/-- `SourceIngressRequestKind`. -/
inductive SourceIngressKind
  | preGoV1
deriving DecidableEq, Repr

instance : Named Direction where
  members := [.activateTarget, .activatePrevious]
  name
    | .activateTarget => str "activate-target"
    | .activatePrevious => str "activate-previous"
  complete a := by cases a <;> decide
  injective a b h := by cases a <;> cases b <;> first | rfl | exact absurd h (by decide)

instance : Named Decision where
  members := [.preserve, .transform, .canonicalize, .reset, .quarantine, .block]
  name
    | .preserve => str "preserve"
    | .transform => str "transform"
    | .canonicalize => str "canonicalize"
    | .reset => str "reset"
    | .quarantine => str "quarantine"
    | .block => str "block"
  complete a := by cases a <;> decide
  injective a b h := by cases a <;> cases b <;> first | rfl | exact absurd h (by decide)

instance : Named JournalCheckpoint where
  members := [.authorized, .migrating, .activationIntent, .targetActive, .reconciling, .complete]
  name
    | .authorized => str "authorized"
    | .migrating => str "migrating"
    | .activationIntent => str "activation-intent"
    | .targetActive => str "target-active"
    | .reconciling => str "reconciling"
    | .complete => str "complete"
  complete a := by cases a <;> decide
  injective a b h := by cases a <;> cases b <;> first | rfl | exact absurd h (by decide)

instance : Named StepCheckpoint where
  members := [.intent, .evidence, .applied, .verified]
  name
    | .intent => str "intent"
    | .evidence => str "evidence"
    | .applied => str "applied"
    | .verified => str "verified"
  complete a := by cases a <;> decide
  injective a b h := by cases a <;> cases b <;> first | rfl | exact absurd h (by decide)

instance : Named EvidenceCheckpoint where
  members := [.captured, .applied, .verified]
  name
    | .captured => str "captured"
    | .applied => str "applied"
    | .verified => str "verified"
  complete a := by cases a <;> decide
  injective a b h := by cases a <;> cases b <;> first | rfl | exact absurd h (by decide)

instance : Named SourceIngressKind where
  members := [.preGoV1]
  name _ := str "pre-go-source-v1"
  complete a := by cases a; decide
  injective _ _ _ := rfl

/-! ### Records -/

structure Goal where
  target : ReleaseID
  direction : Open Direction
deriving DecidableEq

structure ReleasePair where
  from' : ReleaseID
  previous : Option ReleaseID
  target : ReleaseID
deriving DecidableEq, Repr

structure ReleaseLinks where
  active : ReleaseID
  previous : Option ReleaseID
deriving DecidableEq, Repr

structure SourceIngressRequest where
  schemaVersion : ℤ
  kind : Open SourceIngressKind
  sourceRoot : Bytes
  dataHome : Bytes
  binDir : Bytes
  rc : Bytes
  loginRC : Bytes
deriving DecidableEq

structure EvidenceRecord where
  schemaVersion : ℤ
  transaction : TransactionID
  releases : ReleasePair
  step : Bytes
  expected : Fingerprint
  desired : Fingerprint
  observed : Fingerprint
  recovery : Fingerprint
  checkpoint : Open EvidenceCheckpoint
deriving DecidableEq

structure JournalStep where
  id : Bytes
  migration : Bytes
  resource : Bytes
  decision : Open Decision
  expected : Fingerprint
  desired : Fingerprint
  checkpoint : Open StepCheckpoint
  evidence : Option EvidenceRecord
deriving DecidableEq

/-- The list of steps may be absent, which is not the same text as an empty one. -/
structure JournalRecord where
  schemaVersion : ℤ
  transaction : TransactionID
  goal : Goal
  releases : ReleasePair
  authorizationPlan : PlanToken
  resumePlan : PlanToken
  artifactDigest : Fingerprint
  registryDigest : Fingerprint
  catalogDigest : Fingerprint
  observationScope : Fingerprint
  authorizationDigest : Fingerprint
  intentDigest : Fingerprint
  sourceIngress : Option SourceIngressRequest
  checkpoint : Open JournalCheckpoint
  steps : Option (List JournalStep)
deriving DecidableEq

/-- The steps there are. -/
def JournalRecord.stepList (record : JournalRecord) : List JournalStep := record.steps.getD []

/-! ### Checks of texts -/

def validateReleaseID (value : ReleaseID) (field : String) : Except Failure Unit :=
  validateSafeID value field

def validateTransactionID (value : TransactionID) : Except Failure Unit :=
  validateSafeID value "transaction ID"

/-- The text of a token after its kind is a fingerprint. -/
def validToken (kind : String) (value : PlanToken) : Bool :=
  (str kind).isPrefixOf value && validFingerprint (value.drop (str kind).length)

def validatePlanToken (value : PlanToken) : Except Failure Unit :=
  refuse (¬ validToken "plan-v1-" value) (.invalid (str "plan token is invalid"))

def validateResumePlanToken (value : PlanToken) : Except Failure Unit :=
  refuse (¬ validToken "resume-v1-" value) (.invalid (str "resume plan token is invalid"))

lemma validateSafeID_ok {value : Bytes} {field : String} :
    validateSafeID value field = .ok () ↔ safeID value := by
  rw [validateSafeID, refuse_eq_ok, not_or, not_not, not_lt, safeID, Bool.and_eq_true,
    decide_eq_true_eq]

lemma validateFingerprint_ok {value : Fingerprint} {field : String} :
    validateFingerprint value field = .ok () ↔ validFingerprint value := by
  rw [validateFingerprint, refuse_eq_ok, not_not]

/-! ### Goals and pairs -/

def Goal.validate (goal : Goal) : Except Failure Unit := do
  validateReleaseID goal.target "target release"
  refuse (¬ goal.direction.isKnown)
    (.invalid (str "unknown release direction " ++ quoted goal.direction.text))

def Goal.Valid (goal : Goal) : Prop := safeID goal.target ∧ goal.direction.isKnown

lemma Goal.validate_ok {goal : Goal} : goal.validate = .ok () ↔ goal.Valid := by
  rw [Goal.validate, check_bind, validateReleaseID, validateSafeID_ok, refuse_eq_ok, not_not]
  rfl

/-- The check of the optional release beside another one. -/
def checkPrevious (previous : Option ReleaseID) (other : ReleaseID) (field same : String) :
    Except Failure Unit :=
  match previous with
  | none => .ok ()
  | some previous => do
      validateReleaseID previous field
      refuse (previous = other) (.invalid (str same))

lemma checkPrevious_ok {previous : Option ReleaseID} {other : ReleaseID} {field same : String} :
    checkPrevious previous other field same = .ok ()
      ↔ ∀ p ∈ previous, safeID p ∧ p ≠ other := by
  cases previous with
  | none => simp [checkPrevious]
  | some p =>
    rw [checkPrevious, check_bind, validateReleaseID, validateSafeID_ok, refuse_eq_ok]
    simp

def ReleasePair.validate (pair : ReleasePair) : Except Failure Unit := do
  validateReleaseID pair.from' "source release"
  validateReleaseID pair.target "target release"
  checkPrevious pair.previous pair.from' "previous release"
    "previous release equals the source release"

def ReleasePair.Valid (pair : ReleasePair) : Prop :=
  safeID pair.from' ∧ safeID pair.target ∧ ∀ p ∈ pair.previous, safeID p ∧ p ≠ pair.from'

lemma ReleasePair.validate_ok {pair : ReleasePair} : pair.validate = .ok () ↔ pair.Valid := by
  rw [ReleasePair.validate, check_bind, check_bind, validateReleaseID, validateReleaseID,
    validateSafeID_ok, validateSafeID_ok, checkPrevious_ok]
  rfl

def ReleaseLinks.validate (links : ReleaseLinks) : Except Failure Unit := do
  validateReleaseID links.active "active release"
  checkPrevious links.previous links.active "previous link release"
    "active and previous links resolve to the same release"

def ReleaseLinks.Valid (links : ReleaseLinks) : Prop :=
  safeID links.active ∧ ∀ p ∈ links.previous, safeID p ∧ p ≠ links.active

lemma ReleaseLinks.validate_ok {links : ReleaseLinks} : links.validate = .ok () ↔ links.Valid := by
  rw [ReleaseLinks.validate, check_bind, validateReleaseID, validateSafeID_ok, checkPrevious_ok]
  rfl

/-! ### Source ingress -/

/-- What is asked of a path. -/
def validRolePath (path : Bytes) : Bool :=
  path ≠ [] && path.length ≤ 4096 && Path.isAbs path && path ≠ [47]
    && Path.clean path = path && !Path.containsControl path

/-- `validateSourceIngressRolePath`, with the name its caller adds. -/
def validateSourceIngressRolePath (role : String) (path : Bytes) : Except Bytes Unit :=
  refuse (¬ validRolePath path)
    (str role ++ str " is invalid: path must be clean, absolute, non-root, and bounded")

namespace SourceIngressRequest

def validate (request : SourceIngressRequest) : Except Bytes Unit := do
  refuse (request.schemaVersion ≠ 1 ∨ request.kind ≠ .known .preGoV1)
    (str "unknown source ingress descriptor schema or kind")
  validateSourceIngressRolePath "source root" request.sourceRoot
  validateSourceIngressRolePath "data home" request.dataHome
  validateSourceIngressRolePath "launcher directory" request.binDir
  validateSourceIngressRolePath "interactive shell rc" request.rc
  validateSourceIngressRolePath "login shell rc" request.loginRC

/-- The paths in their order. -/
def paths (request : SourceIngressRequest) : List Bytes :=
  [request.sourceRoot, request.dataHome, request.binDir, request.rc, request.loginRC]

def Valid (request : SourceIngressRequest) : Prop :=
  request.schemaVersion = 1 ∧ request.kind = .known .preGoV1
    ∧ ∀ path ∈ request.paths, validRolePath path

lemma validate_ok {request : SourceIngressRequest} :
    request.validate = .ok () ↔ request.Valid := by
  rw [validate, refuse_bind, check_bind, check_bind, check_bind, check_bind]
  simp only [validateSourceIngressRolePath, refuse_eq_ok, not_or, not_not, Valid, paths,
    List.forall_mem_cons, List.not_mem_nil, false_imp_iff, implies_true, and_true, and_assoc]

end SourceIngressRequest

/-- The check of the optional descriptor in a journal. -/
def checkIngress (ingress : Option SourceIngressRequest) : Except Failure Unit :=
  match ingress with
  | none => .ok ()
  | some request => request.validate.mapError fun message =>
      .invalid (str "journal source ingress descriptor is invalid: " ++ message)

lemma checkIngress_ok {ingress : Option SourceIngressRequest} :
    checkIngress ingress = .ok () ↔ ∀ request ∈ ingress, request.Valid := by
  cases ingress with
  | none => simp [checkIngress]
  | some request =>
    rw [checkIngress, mapError_eq_ok, SourceIngressRequest.validate_ok]
    simp

/-! ### Evidence -/

namespace EvidenceRecord

/-- The optional fingerprint of what a step can be recovered from. -/
def checkRecovery (recovery : Fingerprint) : Except Failure Unit :=
  if recovery = [] then .ok () else validateFingerprint recovery "recovery fingerprint"

def checkObserved (record : EvidenceRecord) : Except Failure Unit :=
  match record.checkpoint with
  | .known .captured => refuse (record.observed ≠ record.expected)
      (.invalid (str "captured evidence does not match expected-before"))
  | .known .applied | .known .verified => refuse (record.observed ≠ record.desired)
      (.invalid (str "post-apply evidence does not match desired-after"))
  | .other text _ => .error (.invalid (str "unknown evidence checkpoint " ++ quoted text))

def validate (record : EvidenceRecord) : Except Failure Unit := do
  refuse (record.schemaVersion ≠ 2)
    (.invalid (str "unsupported evidence schema " ++ Json.number record.schemaVersion))
  validateTransactionID record.transaction
  record.releases.validate
  validateSafeID record.step "evidence step ID"
  validateFingerprint record.expected "evidence expected fingerprint"
  validateFingerprint record.desired "evidence desired fingerprint"
  validateFingerprint record.observed "evidence observed fingerprint"
  checkRecovery record.recovery
  record.checkObserved

/-- The fingerprint that was seen is the one of its checkpoint. -/
def Observed (record : EvidenceRecord) : Prop :=
  (record.checkpoint = .known .captured ∧ record.observed = record.expected)
    ∨ ((record.checkpoint = .known .applied ∨ record.checkpoint = .known .verified)
      ∧ record.observed = record.desired)

lemma checkObserved_ok {record : EvidenceRecord} :
    record.checkObserved = .ok () ↔ record.Observed := by
  rw [checkObserved, Observed]
  rcases record.checkpoint with (_ | _ | _) | ⟨text, h⟩ <;> simp

@[mk_iff]
structure Valid (record : EvidenceRecord) : Prop where
  schema : record.schemaVersion = 2
  transaction : safeID record.transaction
  releases : record.releases.Valid
  step : safeID record.step
  expected : validFingerprint record.expected
  desired : validFingerprint record.desired
  fingerprint : validFingerprint record.observed
  recovery : record.recovery = [] ∨ validFingerprint record.recovery
  observed : record.Observed

lemma checkRecovery_ok {recovery : Fingerprint} :
    checkRecovery recovery = .ok () ↔ recovery = [] ∨ validFingerprint recovery := by
  rw [checkRecovery]
  split
  · next h => simp [h]
  · next h => simp [h, validateFingerprint_ok]

lemma validate_ok {record : EvidenceRecord} : record.validate = .ok () ↔ record.Valid := by
  rw [validate, refuse_bind, valid_iff]
  simp only [check_bind, not_not, validateTransactionID, validateSafeID_ok,
    ReleasePair.validate_ok, validateFingerprint_ok, checkRecovery_ok, checkObserved_ok]

end EvidenceRecord

/-! ### Journals -/

/-- The JSON of what the intent digest binds of a step. -/
def intentJSON (step : JournalStep) : Json :=
  .obj [(str "id", .str step.id), (str "migration", .str step.migration),
    (str "resource", .str step.resource), (str "decision", .str step.decision.text),
    (str "expected", .str step.expected), (str "desired", .str step.desired)]

def bindJournalIntent (authorizationPlan resumePlan : PlanToken) (observationScope : Fingerprint)
    (steps : List JournalStep) : Fingerprint :=
  fingerprintPayload (Json.render (.obj
    [(str "authorizationPlan", .str authorizationPlan), (str "resumePlan", .str resumePlan),
      (str "observationScope", .str observationScope),
      (str "steps", .arr (steps.map intentJSON))]))

/-- The evidence checkpoint a step checkpoint asks for. -/
def StepCheckpoint.wants : StepCheckpoint → Option EvidenceCheckpoint
  | .intent => none
  | .evidence => some .captured
  | .applied => some .applied
  | .verified => some .verified

def journalAfterMigrations : Open JournalCheckpoint → Bool
  | .known .activationIntent | .known .targetActive | .known .reconciling | .known .complete => true
  | _ => false

namespace JournalRecord

/-- What the evidence of a step has to agree with. -/
def matchesEvidence (journal : JournalRecord) (step : JournalStep) (evidence : EvidenceRecord) :
    Bool :=
  evidence.transaction = journal.transaction && evidence.releases = journal.releases
    && evidence.step = step.id && evidence.expected = step.expected
    && evidence.desired = step.desired

/-- The end of `validateStepEvidence`, for a step that needs evidence. -/
def checkEvidence (journal : JournalRecord) (step : JournalStep) (want : EvidenceCheckpoint) :
    Except Failure Unit :=
  match step.evidence with
  | none => .error (.invalid (str "step " ++ quoted step.id ++ str " is missing evidence"))
  | some evidence => do
      evidence.validate
      refuse (¬ journal.matchesEvidence step evidence)
        (.invalid (str "step " ++ quoted step.id
          ++ str " evidence does not match its exact journal intent"))
      refuse (evidence.checkpoint ≠ .known want)
        (.invalid (str "step " ++ quoted step.id
          ++ str " evidence checkpoint does not match journal checkpoint"))

/-- `validateStepEvidence`, after the check that the checkpoint is a known one. -/
def validateStepEvidence (journal : JournalRecord) (step : JournalStep) : Except Failure Unit :=
  match step.checkpoint with
  | .other text _ => .error (.invalid (str "journal step " ++ quoted step.id
      ++ str " has unknown checkpoint " ++ quoted text))
  | .known checkpoint =>
      match checkpoint.wants with
      | none => refuse step.evidence.isSome
          (.invalid (str "intent-only step " ++ quoted step.id ++ str " has premature evidence"))
      | some want => journal.checkEvidence step want

/-- The check of one step. -/
def validateStep (journal : JournalRecord) (seen : List Bytes) (step : JournalStep) :
    Except Failure Unit := do
  validateSafeID step.id "journal step ID"
  refuse (step.id ∈ seen) (.invalid (str "duplicate journal step " ++ quoted step.id))
  validateSafeID step.migration "journal migration ID"
  validateSafeID step.resource "journal resource ID"
  refuse (¬ step.decision.isKnown ∨ step.decision = .known .block)
    (.invalid (str "journal step " ++ quoted step.id ++ str " has invalid decision "
      ++ quoted step.decision.text))
  validateFingerprint step.expected "expected step fingerprint"
  validateFingerprint step.desired "desired step fingerprint"
  journal.validateStepEvidence step
  refuse (journalAfterMigrations journal.checkpoint ∧ step.checkpoint ≠ .known .verified)
    (.invalid (str "journal activation starts before step " ++ quoted step.id
      ++ str " is verified"))

/-- The loop over the steps; `seen` are the ids of those before. -/
def validateSteps (journal : JournalRecord) (seen : List Bytes) :
    List JournalStep → Except Failure Unit
  | [] => .ok ()
  | step :: steps => do
      journal.validateStep seen step
      validateSteps journal (step.id :: seen) steps

/-- `Validate`. -/
def validate (record : JournalRecord) : Except Failure Unit := do
  refuse (record.schemaVersion ≠ 2)
    (.invalid (str "unsupported journal schema " ++ Json.number record.schemaVersion))
  validateTransactionID record.transaction
  record.goal.validate
  record.releases.validate
  refuse (record.goal.target ≠ record.releases.target)
    (.invalid (str "journal goal does not match the exact release pair"))
  validatePlanToken record.authorizationPlan
  validateResumePlanToken record.resumePlan
  refuse (record.authorizationPlan = record.resumePlan)
    (.invalid (str "authorization and resume plans must be independently bound"))
  validateFingerprint record.artifactDigest "artifact digest"
  validateFingerprint record.registryDigest "registry digest"
  validateFingerprint record.catalogDigest "catalog digest"
  validateFingerprint record.observationScope "observation scope"
  validateFingerprint record.authorizationDigest "authorization digest"
  checkIngress record.sourceIngress
  refuse (¬ record.checkpoint.isKnown)
    (.invalid (str "unknown journal checkpoint " ++ quoted record.checkpoint.text))
  refuse (record.stepList.length > 256) (.invalid (str "journal has too many steps"))
  record.validateSteps [] record.stepList
  validateFingerprint record.intentDigest "journal intent digest"
  refuse (record.intentDigest ≠ bindJournalIntent record.authorizationPlan record.resumePlan
      record.observationScope record.stepList)
    (.invalid (str "journal step intent does not match its authorized plan binding"))

/-! ### Valid journals -/

/-- The evidence of a step is the one its checkpoint asks for. -/
def Evidenced (journal : JournalRecord) (step : JournalStep) (checkpoint : StepCheckpoint) : Prop :=
  match checkpoint.wants with
  | none => step.evidence = none
  | some want => ∃ evidence, step.evidence = some evidence ∧ evidence.Valid
      ∧ journal.matchesEvidence step evidence ∧ evidence.checkpoint = .known want

/-- What is asked of a step. -/
structure ValidStep (journal : JournalRecord) (step : JournalStep) : Prop where
  id : safeID step.id
  migration : safeID step.migration
  resource : safeID step.resource
  decision : step.decision.isKnown ∧ step.decision ≠ .known .block
  expected : validFingerprint step.expected
  desired : validFingerprint step.desired
  evidenced : ∃ checkpoint, step.checkpoint = .known checkpoint ∧ journal.Evidenced step checkpoint
  verified : journalAfterMigrations journal.checkpoint → step.checkpoint = .known .verified

/-- What is asked of a journal. -/
@[mk_iff]
structure Valid (record : JournalRecord) : Prop where
  schema : record.schemaVersion = 2
  transaction : safeID record.transaction
  goal : record.goal.Valid
  releases : record.releases.Valid
  target : record.goal.target = record.releases.target
  authorizationPlan : validToken "plan-v1-" record.authorizationPlan
  resumePlan : validToken "resume-v1-" record.resumePlan
  independent : record.authorizationPlan ≠ record.resumePlan
  artifact : validFingerprint record.artifactDigest
  registry : validFingerprint record.registryDigest
  catalog : validFingerprint record.catalogDigest
  scope : validFingerprint record.observationScope
  authorization : validFingerprint record.authorizationDigest
  ingress : ∀ request ∈ record.sourceIngress, request.Valid
  checkpoint : record.checkpoint.isKnown
  bounded : record.stepList.length ≤ 256
  steps : ∀ step ∈ record.stepList, record.ValidStep step
  distinct : (record.stepList.map (·.id)).Nodup
  intent : validFingerprint record.intentDigest
  bound : record.intentDigest = bindJournalIntent record.authorizationPlan record.resumePlan
    record.observationScope record.stepList

variable {record : JournalRecord}

lemma checkEvidence_ok {step : JournalStep} {want : EvidenceCheckpoint} :
    record.checkEvidence step want = .ok () ↔ ∃ evidence, step.evidence = some evidence
      ∧ evidence.Valid ∧ record.matchesEvidence step evidence
      ∧ evidence.checkpoint = .known want := by
  rw [checkEvidence.eq_def]
  cases step.evidence with
  | none => simp
  | some evidence =>
    simp only [check_bind, refuse_eq_ok, not_not, EvidenceRecord.validate_ok,
      Option.some.injEq, exists_eq_left']

lemma validateStepEvidence_ok {step : JournalStep} :
    record.validateStepEvidence step = .ok ()
      ↔ ∃ checkpoint, step.checkpoint = .known checkpoint ∧ record.Evidenced step checkpoint := by
  rw [validateStepEvidence.eq_def]
  cases step.checkpoint with
  | other text h => simp
  | known checkpoint =>
    simp only [Open.known.injEq, exists_eq_left']
    rw [Evidenced]
    cases checkpoint.wants with
    | none => simp
    | some want => exact checkEvidence_ok

lemma validateStep_ok {seen : List Bytes} {step : JournalStep} :
    record.validateStep seen step = .ok () ↔ step.id ∉ seen ∧ record.ValidStep step := by
  rw [validateStep]
  simp only [check_bind, refuse_eq_ok, validateSafeID_ok, validateFingerprint_ok,
    validateStepEvidence_ok, not_or, not_and, not_not]
  exact ⟨fun ⟨h1, h2, h3, h4, h5, h6, h7, h8, h9⟩ => ⟨h2, h1, h3, h4, h5, h6, h7, h8, h9⟩,
    fun ⟨h2, h1, h3, h4, h5, h6, h7, h8, h9⟩ => ⟨h1, h2, h3, h4, h5, h6, h7, h8, h9⟩⟩

/-- The loop accepts valid steps with different ids. -/
lemma validateSteps_ok {steps : List JournalStep} {seen : List Bytes} :
    record.validateSteps seen steps = .ok ()
      ↔ (∀ step ∈ steps, step.id ∉ seen ∧ record.ValidStep step)
        ∧ (steps.map (·.id)).Nodup := by
  induction steps generalizing seen with
  | nil => simp [validateSteps]
  | cons step steps ih =>
    rw [validateSteps, check_bind, validateStep_ok, ih, List.map_cons, List.nodup_cons,
      List.forall_mem_cons]
    constructor
    · rintro ⟨hstep, hsteps, hnodup⟩
      refine ⟨⟨hstep, fun step' hmem => ⟨?_, (hsteps step' hmem).2⟩⟩, ?_, hnodup⟩
      · exact fun hseen => (hsteps step' hmem).1 (List.mem_cons_of_mem _ hseen)
      · intro hmem
        obtain ⟨step', hstep', hid⟩ := List.mem_map.mp hmem
        exact (hsteps step' hstep').1 (hid ▸ List.mem_cons_self)
    · rintro ⟨⟨hstep, hsteps⟩, hnot, hnodup⟩
      refine ⟨hstep, fun step' hmem => ⟨fun hseen => ?_, (hsteps step' hmem).2⟩, hnodup⟩
      rcases List.mem_cons.mp hseen with hid | hseen
      · exact hnot (List.mem_map.mpr ⟨step', hmem, hid⟩)
      · exact (hsteps step' hmem).1 hseen

/-- **The checks accept exactly the valid journals.** -/
theorem validate_ok : record.validate = .ok () ↔ record.Valid := by
  rw [validate, valid_iff]
  simp only [check_bind, refuse_eq_ok, not_not, validateTransactionID,
    validatePlanToken, validateResumePlanToken, validateSafeID_ok, Goal.validate_ok,
    ReleasePair.validate_ok, validateFingerprint_ok, checkIngress_ok, validateSteps_ok,
    List.not_mem_nil, not_false_eq_true, true_and, not_lt, and_assoc]

end JournalRecord

end Subyard.Release
