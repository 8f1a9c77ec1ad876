import Subyard.Library.Dict
import Subyard.Release.Journal

/-!
The public state of a release transition, derived from what was observed.

* `evaluate`: the cascade of checks.
* `TransitionFacts.Bound`: the journal is complete and bound to the current facts.
* `readiness_sound`: **nothing but a verified fixed point with the target active, and a journal
  that is complete and bound if there is one, is reported as ready**.
-/

namespace Subyard.Release

open Text Fallible History

/-! ### Outcomes -/

inductive PublicStatus
  | ready | migrationRequired | recovering | operatorActionRequired
deriving DecidableEq, Repr

/-- The codes `Evaluate` answers with. -/
inductive OutcomeCode
  | ready | transitionRequired | recoveryPending | planStale | migrationStale | activationAmbiguous
  | recoveryAmbiguous | journalInvalid
deriving DecidableEq, Repr

/-- An outcome without warnings; whatever is answered sets the status, code, message and retry. -/
structure Outcome where
  status : PublicStatus := .operatorActionRequired
  reachedGoal : Bool := false
  active : ReleaseID := []
  previous : Option ReleaseID := none
  target : ReleaseID := []
  code : OutcomeCode := .ready
  message : Bytes := []
  retry : Bytes := []
  transaction : Option TransactionID := none
deriving DecidableEq, Repr

def readyOutcome (outcome : Outcome) : Outcome :=
  { outcome with
    status := .ready
    reachedGoal := true
    code := .ready
    message := str "the target release is active and the transition is verified"
    retry := [] }

def operatorOutcome (outcome : Outcome) (code : OutcomeCode) (message : String) : Outcome :=
  { outcome with
    status := .operatorActionRequired
    code := code
    message := str message
    retry := str "run yard update --check" }

def migrationRequiredOutcome (outcome : Outcome) : Outcome :=
  { outcome with
    status := .migrationRequired
    code := .transitionRequired
    message := str "the inspected release transition has not started"
    retry := str "run yard update" }

def recoveringOutcome (outcome : Outcome) : Outcome :=
  { outcome with
    status := .recovering
    code := .recoveryPending
    message := str "the authorized release transition can resume from observed facts"
    retry := str "run yard update" }

/-! ### Links -/

namespace ReleaseLinks

/-- The links before an activation. -/
def initial (links : ReleaseLinks) (pair : ReleasePair) : Bool :=
  links.active = pair.from' && links.previous = pair.previous

/-- The links with the target prepared beside the active release. -/
def staged (links : ReleaseLinks) (pair : ReleasePair) : Bool :=
  links.active = pair.from' && links.previous = some pair.target

/-- The links after an activation. -/
def activated (links : ReleaseLinks) (pair : ReleasePair) : Bool :=
  links.active = pair.target && links.previous = some pair.from'

end ReleaseLinks

def linksAllowed (checkpoint : Open JournalCheckpoint)
    (initial staged activated sameRelease : Bool) : Bool :=
  if sameRelease then initial
  else
    match checkpoint with
    | .known .authorized | .known .migrating => initial
    | .known .activationIntent => initial || staged || activated
    | .known .targetActive | .known .reconciling | .known .complete => activated
    | .other _ _ => false

/-! ### Intents and observations -/

structure PlannerStepIntent where
  id : Bytes
  migration : Bytes
  resource : Bytes
  decision : Open Decision
  expected : Fingerprint
  desired : Fingerprint
deriving DecidableEq

/-- The intent a step of a journal was made for. -/
def JournalStep.intent (step : JournalStep) : PlannerStepIntent :=
  ⟨step.id, step.migration, step.resource, step.decision, step.expected, step.desired⟩

/-- The loop of `validatePlannerIntents`; `seen` are the ids of the intents before. -/
def validatePlannerIntents (seen : List Bytes) : List PlannerStepIntent → Except Failure Unit
  | [] => .ok ()
  | intent :: intents => do
      validateSafeID intent.id "planner step intent ID"
      refuse (intent.id ∈ seen)
        (.invalid (str "duplicate planner step intent " ++ quoted intent.id))
      validateSafeID intent.migration "planner migration ID"
      validateSafeID intent.resource "planner resource ID"
      refuse (¬ intent.decision.isKnown ∨ intent.decision = .known .block)
        (.invalid (str "planner step intent " ++ quoted intent.id ++ str " has invalid decision "
          ++ quoted intent.decision.text))
      validateFingerprint intent.expected "planner expected fingerprint"
      validateFingerprint intent.desired "planner desired fingerprint"
      validatePlannerIntents (intent.id :: seen) intents

def plannerIntentsMatchJournal (intents : List PlannerStepIntent) (steps : List JournalStep) :
    Bool :=
  intents.length = steps.length
    && (intents.zip steps).all fun (intent, step) => intent = step.intent

structure StepObservation where
  step : Bytes
  fingerprint : Fingerprint
deriving DecidableEq

/-- One round of the loop over the observations. -/
def addObservation (steps : List JournalStep) (actual : Dict Bytes Fingerprint)
    (observation : StepObservation) : Except OutcomeCode (Dict Bytes Fingerprint) := do
  refuse (¬ safeID observation.step ∨ ¬ validFingerprint observation.fingerprint)
    .recoveryAmbiguous
  refuse (¬ steps.any fun step => step.id = observation.step) .recoveryAmbiguous
  refuse ((actual.lookup observation.step).isSome) .recoveryAmbiguous
  pure (actual.insert observation.step observation.fingerprint)

/-- One round of the loop over the steps: one that is not verified has one of its fingerprints. -/
def checkObservation (actual : Dict Bytes Fingerprint) (step : JournalStep) :
    Except OutcomeCode Unit :=
  if step.checkpoint = .known .verified then .ok ()
  else
    match actual.lookup step.id with
    | none => .error .recoveryAmbiguous
    | some fingerprint =>
        refuse (fingerprint ≠ step.expected ∧ fingerprint ≠ step.desired) .migrationStale

def validateObservedSteps (steps : List JournalStep) (observations : List StepObservation) :
    Except OutcomeCode Unit := do
  let actual ← observations.foldlM (addObservation steps) ∅
  steps.forM (checkObservation actual)

/-! ### The evaluation -/

structure TransitionFacts where
  goal : Goal
  releases : ReleasePair
  links : ReleaseLinks
  journal : Option JournalRecord
  steps : List StepObservation
  currentPlan : PlanToken
  currentIntents : List PlannerStepIntent
  verifiedAuthorizationPlan : PlanToken
  currentArtifactDigest : Fingerprint
  currentRegistryDigest : Fingerprint
  currentCatalogDigest : Fingerprint
  currentAuthorizationDigest : Fingerprint
  fixedPointVerified : Bool
deriving DecidableEq

namespace TransitionFacts

def validCurrentBindings (facts : TransitionFacts) : Bool :=
  validToken "resume-v1-" facts.currentPlan
    && validToken "plan-v1-" facts.verifiedAuthorizationPlan
    && validFingerprint facts.currentArtifactDigest
    && validFingerprint facts.currentRegistryDigest
    && validFingerprint facts.currentCatalogDigest
    && validFingerprint facts.currentAuthorizationDigest

/-- The plans and digests of the journal are not the current ones. -/
def stale (facts : TransitionFacts) (journal : JournalRecord) : Bool :=
  facts.verifiedAuthorizationPlan ≠ journal.authorizationPlan
    || facts.currentPlan ≠ journal.resumePlan
    || facts.currentArtifactDigest ≠ journal.artifactDigest
    || facts.currentRegistryDigest ≠ journal.registryDigest
    || facts.currentCatalogDigest ≠ journal.catalogDigest
    || facts.currentAuthorizationDigest ≠ journal.authorizationDigest

/-- The releases differ and the target is prepared. -/
def staged (facts : TransitionFacts) : Bool :=
  facts.releases.from' ≠ facts.releases.target && facts.links.staged facts.releases

/-- `Evaluate` without a journal. -/
def evaluateFresh (facts : TransitionFacts) (base : Outcome) : Outcome :=
  if facts.fixedPointVerified
      && ((facts.releases.from' = facts.releases.target && facts.links.initial facts.releases)
        || facts.links.activated facts.releases) then
    readyOutcome base
  else if facts.links.initial facts.releases then migrationRequiredOutcome base
  else if facts.links.activated facts.releases then
    operatorOutcome base .recoveryAmbiguous
      "the active target has no trusted completion evidence"
  else
    operatorOutcome base .activationAmbiguous
      "release links do not match a known transition checkpoint"

/-- The outcome for observed resources that do not fit. -/
def observedOutcome (base : Outcome) (code : OutcomeCode) : Outcome :=
  operatorOutcome base code
    (if code = .recoveryAmbiguous then "observed migration resources are incomplete or foreign"
    else "an observed migration resource does not match a journaled checkpoint")

/-- The last answer of `Evaluate`. -/
def finalOutcome (facts : TransitionFacts) (journal : JournalRecord) (base : Outcome) : Outcome :=
  if journal.checkpoint = .known .complete && facts.fixedPointVerified then readyOutcome base
  else recoveringOutcome base

/-- `Evaluate` with a journal; the error is the outcome of a check that fails. -/
def evaluateJournal (facts : TransitionFacts) (journal : JournalRecord) (base : Outcome) :
    Except Outcome Outcome := do
  refuse (journal.validate ≠ .ok () ∨ journal.goal ≠ facts.goal
      ∨ journal.releases ≠ facts.releases)
    (operatorOutcome base .journalInvalid "release transition journal is invalid or foreign")
  let base := { base with transaction := some journal.transaction }
  refuse (¬ facts.validCurrentBindings)
    (operatorOutcome base .journalInvalid "current release transition bindings are invalid")
  refuse (facts.stale journal)
    (operatorOutcome base .planStale "the authorized release transition plan is stale")
  refuse (validatePlannerIntents [] facts.currentIntents ≠ .ok ())
    (operatorOutcome base .journalInvalid "current planner step intents are invalid")
  refuse (¬ plannerIntentsMatchJournal facts.currentIntents journal.stepList)
    (operatorOutcome base .planStale
      "current planner step intents do not match the authorized journal")
  refuse (¬ linksAllowed journal.checkpoint (facts.links.initial facts.releases) facts.staged
      (facts.links.activated facts.releases) (facts.releases.from' = facts.releases.target))
    (operatorOutcome base .activationAmbiguous
      "release links do not match the journaled activation checkpoint")
  (validateObservedSteps journal.stepList facts.steps).mapError (observedOutcome base)
  pure (facts.finalOutcome journal base)

/-- `Evaluate` after the checks of the facts themselves. -/
def evaluateValid (facts : TransitionFacts) : Except Outcome Outcome :=
  let base : Outcome :=
    { active := facts.links.active
      previous := facts.links.previous
      target := facts.goal.target }
  match facts.journal with
  | none => .ok (facts.evaluateFresh base)
  | some journal => facts.evaluateJournal journal base

def evaluateFacts (facts : TransitionFacts) : Except Outcome Outcome := do
  refuse (facts.goal.validate ≠ .ok ())
    (operatorOutcome {} .journalInvalid "release goal is invalid")
  refuse (facts.releases.validate ≠ .ok () ∨ facts.goal.target ≠ facts.releases.target)
    (operatorOutcome {} .journalInvalid "release pair is invalid")
  refuse (facts.links.validate ≠ .ok ())
    (operatorOutcome {} .activationAmbiguous "release links are ambiguous")
  facts.evaluateValid

end TransitionFacts

/-- `Evaluate`. -/
def evaluate (facts : TransitionFacts) : Outcome :=
  match facts.evaluateFacts with
  | .ok outcome => outcome
  | .error outcome => outcome

/-! ### Readiness -/

namespace TransitionFacts

variable {facts : TransitionFacts} {journal : JournalRecord} {base : Outcome}

/-- The journal is complete, belongs to the goal and the releases, and is bound to the current
plans, digests and intents. -/
structure Bound (facts : TransitionFacts) (journal : JournalRecord) : Prop where
  valid : journal.validate = .ok ()
  complete : journal.checkpoint = .known .complete
  verified : ∀ step ∈ journal.stepList, step.checkpoint = .known .verified
  goal : journal.goal = facts.goal
  releases : journal.releases = facts.releases
  authorizationPlan : journal.authorizationPlan = facts.verifiedAuthorizationPlan
  resumePlan : journal.resumePlan = facts.currentPlan
  artifact : journal.artifactDigest = facts.currentArtifactDigest
  registry : journal.registryDigest = facts.currentRegistryDigest
  catalog : journal.catalogDigest = facts.currentCatalogDigest
  authorization : journal.authorizationDigest = facts.currentAuthorizationDigest
  intents : journal.stepList.map (·.intent) = facts.currentIntents

/-- An outcome is a demand for the operator if the checks end with it. -/
def Demands (x : Except Outcome Outcome) : Prop :=
  ∀ outcome, x = .error outcome → outcome.status = .operatorActionRequired

lemma Demands.ok (outcome : Outcome) : Demands (.ok outcome) := fun _ h => by cases h

lemma Demands.refuse {p : Prop} [Decidable p] {code : OutcomeCode} {message : String}
    {f : Unit → Except Outcome Outcome} (h : Demands (f ())) :
    Demands (refuse p (operatorOutcome base code message) >>= f) := by
  intro outcome houtcome
  rcases refuse_bind_error.mp houtcome with ⟨_, rfl⟩ | ⟨_, hrest⟩
  · rfl
  · exact h outcome hrest

lemma demands_journal : Demands (facts.evaluateJournal journal base) := by
  refine .refuse (.refuse (.refuse (.refuse (.refuse (.refuse ?_)))))
  intro outcome houtcome
  rcases of_bind_error houtcome with herror | ⟨_, _, herror⟩
  · cases hobserved : validateObservedSteps journal.stepList facts.steps with
    | ok _ =>
      rw [hobserved] at herror
      cases herror
    | error code =>
      rw [hobserved] at herror
      cases herror
      rfl
  · cases herror

lemma demands_facts : Demands facts.evaluateFacts := by
  refine .refuse (.refuse (.refuse ?_))
  rw [evaluateValid]
  cases facts.journal with
  | none => exact .ok _
  | some journal => exact demands_journal

lemma intents_of_match {intents : List PlannerStepIntent} {steps : List JournalStep}
    (h : plannerIntentsMatchJournal intents steps) : steps.map (·.intent) = intents := by
  rw [plannerIntentsMatchJournal, Bool.and_eq_true, decide_eq_true_eq] at h
  obtain ⟨hlength, hall⟩ := h
  induction steps generalizing intents with
  | nil => exact (List.length_eq_zero_iff.mp hlength).symm
  | cons step steps ih =>
    cases intents with
    | nil => cases hlength
    | cons intent intents =>
      rw [List.zip_cons_cons, List.all_cons, Bool.and_eq_true, decide_eq_true_eq] at hall
      rw [List.map_cons, ih (Nat.succ.inj hlength) hall.2, hall.1]

/-- The active release where the links of a finished transition are allowed. -/
lemma active_of_allowed (h : linksAllowed (.known .complete) (facts.links.initial facts.releases)
      facts.staged (facts.links.activated facts.releases)
      (facts.releases.from' = facts.releases.target)) :
    facts.links.active = facts.releases.target := by
  rw [linksAllowed] at h
  split at h
  · next hsame =>
      rw [ReleaseLinks.initial, Bool.and_eq_true, decide_eq_true_eq] at h
      exact h.1.trans (of_decide_eq_true hsame)
  · rw [ReleaseLinks.activated, Bool.and_eq_true, decide_eq_true_eq] at h
    exact h.1

/-- What a journal was checked for where the checks pass. -/
lemma of_evaluateJournal {outcome : Outcome}
    (h : facts.evaluateJournal journal base = .ok outcome) :
    outcome = facts.finalOutcome journal { base with transaction := some journal.transaction }
      ∧ (journal.checkpoint = .known .complete →
        facts.Bound journal ∧ facts.links.active = facts.releases.target) := by
  obtain ⟨hforeign, h⟩ := refuse_bind.mp h
  obtain ⟨_, h⟩ := refuse_bind.mp h
  obtain ⟨hstale, h⟩ := refuse_bind.mp h
  obtain ⟨_, h⟩ := refuse_bind.mp h
  obtain ⟨hintents, h⟩ := refuse_bind.mp h
  obtain ⟨hlinks, h⟩ := refuse_bind.mp h
  obtain ⟨_, _, h⟩ := of_bind_ok h
  cases h
  refine ⟨rfl, fun hcomplete => ?_⟩
  rw [not_or, not_or, not_not, not_not, not_not] at hforeign
  obtain ⟨hvalid, hgoal, hreleases⟩ := hforeign
  simp only [stale, ne_eq, decide_not, Bool.or_eq_true, Bool.not_eq_eq_eq_not, Bool.not_true,
    decide_eq_false_iff_not, not_or, not_not] at hstale
  obtain ⟨⟨⟨⟨⟨hauthorization, hresume⟩, hartifact⟩, hregistry⟩, hcatalog⟩, hgrant⟩ := hstale
  have hchecked := JournalRecord.validate_ok.mp hvalid
  have hverified : ∀ step ∈ journal.stepList, step.checkpoint = .known .verified := by
    intro step hstep
    refine (hchecked.steps step hstep).verified ?_
    rw [hcomplete]
    rfl
  rw [hcomplete] at hlinks
  exact ⟨⟨hvalid, hcomplete, hverified, hgoal, hreleases, hauthorization.symm, hresume.symm,
    hartifact.symm, hregistry.symm, hcatalog.symm, hgrant.symm,
    intents_of_match (not_not.mp hintents)⟩, active_of_allowed (not_not.mp hlinks)⟩

/-- The last answer is ready or recovering. -/
lemma finalOutcome_cases (facts : TransitionFacts) (journal : JournalRecord) (base : Outcome) :
    ((facts.finalOutcome journal base).status = .ready ∧ journal.checkpoint = .known .complete
        ∧ facts.fixedPointVerified)
      ∨ (facts.finalOutcome journal base).status = .recovering := by
  rw [finalOutcome]
  split
  · next h =>
      rw [Bool.and_eq_true, decide_eq_true_eq] at h
      exact .inl ⟨rfl, h⟩
  · exact .inr rfl

lemma evaluateFresh_ready (h : (facts.evaluateFresh base).status = .ready) :
    facts.fixedPointVerified ∧ facts.links.active = facts.releases.target := by
  rw [evaluateFresh] at h
  split at h
  · next hready =>
      rw [Bool.and_eq_true, Bool.or_eq_true, Bool.and_eq_true, decide_eq_true_eq] at hready
      refine ⟨hready.1, ?_⟩
      rcases hready.2 with ⟨hsame, hinitial⟩ | hactivated
      · rw [ReleaseLinks.initial, Bool.and_eq_true, decide_eq_true_eq] at hinitial
        exact hinitial.1.trans hsame
      · rw [ReleaseLinks.activated, Bool.and_eq_true, decide_eq_true_eq] at hactivated
        exact hactivated.1
  · split at h
    · cases h
    · split at h <;> cases h

/-- The facts themselves are valid where the checks pass. -/
lemma of_evaluateFacts {outcome : Outcome} (h : facts.evaluateFacts = .ok outcome) :
    facts.goal.target = facts.releases.target ∧ facts.evaluateValid = .ok outcome := by
  obtain ⟨_, h⟩ := refuse_bind.mp h
  obtain ⟨hpair, h⟩ := refuse_bind.mp h
  obtain ⟨_, h⟩ := refuse_bind.mp h
  rw [not_or, not_not, not_not] at hpair
  exact ⟨hpair.2, h⟩

end TransitionFacts

open TransitionFacts in
/-- **Readiness is sound.**  What is reported as ready is a verified fixed point with the target
active, and its journal, if there is one, is complete and bound to the facts.  With a journal, any
other facts are reported as recovering or left to the operator. -/
theorem readiness_sound (facts : TransitionFacts) :
    ((evaluate facts).status = .ready →
      facts.fixedPointVerified ∧ facts.links.active = facts.goal.target
        ∧ ∀ journal, facts.journal = some journal → facts.Bound journal)
      ∧ ∀ journal, facts.journal = some journal →
        ¬ (facts.fixedPointVerified ∧ facts.links.active = facts.goal.target
          ∧ facts.Bound journal) →
        (evaluate facts).status = .operatorActionRequired
          ∨ (evaluate facts).status = .recovering := by
  rw [evaluate]
  cases hfacts : facts.evaluateFacts with
  | error outcome =>
      have hdemand : outcome.status = .operatorActionRequired := demands_facts outcome hfacts
      exact ⟨fun h => absurd (hdemand.symm.trans h) (by decide), fun _ _ _ => .inl hdemand⟩
  | ok outcome =>
      obtain ⟨htarget, hvalid⟩ := of_evaluateFacts hfacts
      rw [evaluateValid] at hvalid
      cases hjournal : facts.journal with
      | none =>
          rw [hjournal] at hvalid
          cases hvalid
          refine ⟨fun h => ?_, fun _ h => absurd h (by simp)⟩
          obtain ⟨hfixed, hactive⟩ := evaluateFresh_ready h
          exact ⟨hfixed, hactive.trans htarget.symm, fun _ h => absurd h (by simp)⟩
      | some journal =>
          rw [hjournal] at hvalid
          obtain ⟨rfl, hbound⟩ := of_evaluateJournal hvalid
          rcases finalOutcome_cases facts journal _ with ⟨_, hcomplete, hfixed⟩ | hrecovering
          · obtain ⟨hbound, hactive⟩ := hbound hcomplete
            have hgood : facts.fixedPointVerified ∧ facts.links.active = facts.goal.target
                ∧ facts.Bound journal := ⟨hfixed, hactive.trans htarget.symm, hbound⟩
            refine ⟨fun _ => ⟨hgood.1, hgood.2.1, fun journal' h => ?_⟩, fun journal' h hbad => ?_⟩
            · cases h
              exact hbound
            · cases h
              exact absurd hgood hbad
          · refine ⟨fun h => ?_, fun _ _ _ => .inr hrecovering⟩
            exact absurd (hrecovering.symm.trans h) (by decide)

end Subyard.Release
