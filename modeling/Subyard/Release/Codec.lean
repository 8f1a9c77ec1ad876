import Subyard.Release.Frozen
import Subyard.Release.Journal

/-!
The passage between the live journal and its frozen contract.

* `journalRecordToV2`, `journalRecordFromV2`: the two directions, inverse to each other.
* `validate_toV2`: the frozen checks accept what the live checks accept.
-/

namespace Subyard.Release

open Text Fallible History

/-! ### The two records -/

def goalToJournalV2 (goal : Goal) : JournalV2.Goal := ⟨goal.target, goal.direction.text⟩

def goalFromJournalV2 (goal : JournalV2.Goal) : Goal := ⟨goal.target, .ofText goal.direction⟩

def releasePairToJournalV2 (pair : ReleasePair) : JournalV2.ReleasePair :=
  ⟨pair.from', pair.previous, pair.target⟩

def releasePairFromJournalV2 (pair : JournalV2.ReleasePair) : ReleasePair :=
  ⟨pair.from', pair.previous, pair.target⟩

def sourceIngressToJournalV2 (source : SourceIngressRequest) : JournalV2.SourceIngress :=
  ⟨source.schemaVersion, source.kind.text, source.sourceRoot, source.dataHome, source.binDir,
    source.rc, source.loginRC⟩

def sourceIngressFromJournalV2 (source : JournalV2.SourceIngress) : SourceIngressRequest :=
  ⟨source.schemaVersion, .ofText source.kind, source.sourceRoot, source.dataHome, source.binDir,
    source.rc, source.loginRC⟩

def evidenceToJournalV2 (evidence : EvidenceRecord) : JournalV2.Evidence :=
  ⟨evidence.schemaVersion, evidence.transaction, releasePairToJournalV2 evidence.releases,
    evidence.step, evidence.expected, evidence.desired, evidence.observed, evidence.recovery,
    evidence.checkpoint.text⟩

def evidenceFromJournalV2 (evidence : JournalV2.Evidence) : EvidenceRecord :=
  ⟨evidence.schemaVersion, evidence.transaction, releasePairFromJournalV2 evidence.releases,
    evidence.step, evidence.expected, evidence.desired, evidence.observed, evidence.recovery,
    .ofText evidence.checkpoint⟩

def journalStepToV2 (step : JournalStep) : JournalV2.Step :=
  ⟨step.id, step.migration, step.resource, step.decision.text, step.expected, step.desired,
    step.checkpoint.text, step.evidence.map evidenceToJournalV2⟩

def journalStepFromV2 (step : JournalV2.Step) : JournalStep :=
  ⟨step.id, step.migration, step.resource, .ofText step.decision, step.expected, step.desired,
    .ofText step.checkpoint, step.evidence.map evidenceFromJournalV2⟩

def journalRecordToV2 (record : JournalRecord) : JournalV2.Record :=
  ⟨record.schemaVersion, record.transaction, goalToJournalV2 record.goal,
    releasePairToJournalV2 record.releases, record.authorizationPlan, record.resumePlan,
    record.artifactDigest, record.registryDigest, record.catalogDigest, record.observationScope,
    record.authorizationDigest, record.intentDigest,
    record.sourceIngress.map sourceIngressToJournalV2, record.checkpoint.text,
    record.steps.map (·.map journalStepToV2)⟩

def journalRecordFromV2 (wire : JournalV2.Record) : JournalRecord :=
  ⟨wire.schemaVersion, wire.transaction, goalFromJournalV2 wire.goal,
    releasePairFromJournalV2 wire.releases, wire.authorizationPlan, wire.resumePlan,
    wire.artifactDigest, wire.registryDigest, wire.catalogDigest, wire.observationScope,
    wire.authorizationDigest, wire.intentDigest,
    wire.sourceIngress.map sourceIngressFromJournalV2, .ofText wire.checkpoint,
    wire.steps.map (·.map journalStepFromV2)⟩

lemma evidenceFrom_to (evidence : EvidenceRecord) :
    evidenceFromJournalV2 (evidenceToJournalV2 evidence) = evidence := by
  rw [evidenceFromJournalV2, evidenceToJournalV2, Open.ofText_text]
  rfl

lemma evidenceTo_from (evidence : JournalV2.Evidence) :
    evidenceToJournalV2 (evidenceFromJournalV2 evidence) = evidence := by
  rw [evidenceToJournalV2, evidenceFromJournalV2, Open.text_ofText]
  rfl

lemma journalStepFrom_to (step : JournalStep) : journalStepFromV2 (journalStepToV2 step) = step := by
  rw [journalStepFromV2, journalStepToV2]
  simp only [Open.ofText_text, Option.map_map, Function.comp_def, evidenceFrom_to, Option.map_id']

lemma journalStepTo_from (step : JournalV2.Step) :
    journalStepToV2 (journalStepFromV2 step) = step := by
  rw [journalStepToV2, journalStepFromV2]
  simp only [Open.text_ofText, Option.map_map, Function.comp_def, evidenceTo_from, Option.map_id']

/-- The live record is not changed by the passage to the frozen one and back. -/
lemma journalRecordFrom_to (record : JournalRecord) :
    journalRecordFromV2 (journalRecordToV2 record) = record := by
  simp only [journalRecordFromV2, journalRecordToV2, goalFromJournalV2, goalToJournalV2,
    releasePairFromJournalV2, releasePairToJournalV2, sourceIngressFromJournalV2,
    sourceIngressToJournalV2, Open.ofText_text, Option.map_map, Function.comp_def, List.map_map,
    journalStepFrom_to, List.map_id', Option.map_id']

/-- Nor is the frozen one. -/
lemma journalRecordTo_from (wire : JournalV2.Record) :
    journalRecordToV2 (journalRecordFromV2 wire) = wire := by
  simp only [journalRecordFromV2, journalRecordToV2, goalFromJournalV2, goalToJournalV2,
    releasePairFromJournalV2, releasePairToJournalV2, sourceIngressFromJournalV2,
    sourceIngressToJournalV2, Open.text_ofText, Option.map_map, Function.comp_def, List.map_map,
    journalStepTo_from, List.map_id', Option.map_id']

/-! ### The two checks -/

namespace JournalV2

lemma validateSafeID_ok {value : Bytes} {field : String} :
    validateSafeID value field = .ok () ↔ safeID value := by
  rw [validateSafeID, refuse_bind, refuse_eq_ok, safeID, domainSafeID]
  simp only [not_or, not_not, not_lt, List.length_eq_zero_iff, Bool.and_eq_true, decide_eq_true_eq,
    ne_eq, decide_not, Bool.not_eq_true', decide_eq_false_iff_not]
  tauto

lemma checkDigest_ok {field : String} {value : Bytes} :
    Record.checkDigest field value = .ok () ↔ Release.validFingerprint value := by
  rw [Record.checkDigest, refuse_eq_ok, not_not]
  rfl

lemma validate_goal {goal : Release.Goal} :
    (goalToJournalV2 goal).validate = .ok () ↔ goal.Valid := by
  rw [Goal.validate, check_bind, validateSafeID_ok, refuse_eq_ok, Release.Goal.Valid]
  have hknown : ¬ ((goalToJournalV2 goal).direction ≠ str "activate-target"
      ∧ (goalToJournalV2 goal).direction ≠ str "activate-previous") ↔ goal.direction.isKnown := by
    rw [Open.isKnown_iff, not_and_or, not_not, not_not]
    simp [Named.members, Named.name, goalToJournalV2]
  rw [hknown]
  rfl

lemma validate_pair {pair : Release.ReleasePair} :
    (releasePairToJournalV2 pair).validate = .ok () ↔ pair.Valid := by
  rw [ReleasePair.validate, check_bind, check_bind, validateSafeID_ok, validateSafeID_ok,
    Release.ReleasePair.Valid, ReleasePair.checkPrevious]
  cases hprevious : pair.previous with
  | none => simp [releasePairToJournalV2, hprevious]
  | some previous =>
    simp [releasePairToJournalV2, hprevious, check_bind, validateSafeID_ok]

lemma validatePath_ok {value : Bytes} {field : String} :
    validatePath value field = .ok () ↔ validRolePath value := by
  rw [validatePath, refuse_eq_ok, validRolePath]
  simp only [not_or, not_not, not_lt, List.length_eq_zero_iff, Bool.and_eq_true, decide_eq_true_eq,
    ne_eq, decide_not, Bool.not_eq_true', decide_eq_false_iff_not, Bool.not_eq_true, and_assoc,
    Bool.not_eq_false]

lemma validate_ingress {source : SourceIngressRequest} :
    (sourceIngressToJournalV2 source).validate = .ok () ↔ source.Valid := by
  rw [SourceIngress.validate, refuse_bind, SourceIngressRequest.Valid]
  simp only [check_bind, validatePath_ok, SourceIngressRequest.paths, List.forall_mem_cons,
    List.not_mem_nil, false_imp_iff, implies_true, and_true, not_or, not_not, and_assoc,
    Open.eq_known_iff]
  rfl

lemma checkObserved_evidence {evidence : EvidenceRecord} :
    (evidenceToJournalV2 evidence).checkObserved = .ok () ↔ evidence.Observed := by
  rw [Evidence.checkObserved, EvidenceRecord.Observed]
  have hcaptured : (evidenceToJournalV2 evidence).checkpoint = str "captured"
      ↔ evidence.checkpoint = .known .captured := Open.text_eq_iff rfl
  have happlied : (evidenceToJournalV2 evidence).checkpoint = str "applied"
      ↔ evidence.checkpoint = .known .applied := Open.text_eq_iff rfl
  have hverified : (evidenceToJournalV2 evidence).checkpoint = str "verified"
      ↔ evidence.checkpoint = .known .verified := Open.text_eq_iff rfl
  simp only [hcaptured, happlied, hverified]
  rcases evidence.checkpoint with (_ | _ | _) | ⟨text, h⟩ <;> simp <;> rfl

lemma validate_evidence {evidence : EvidenceRecord} :
    (evidenceToJournalV2 evidence).validate = .ok () ↔ evidence.Valid := by
  rw [Evidence.validate, refuse_bind]
  simp only [check_bind, refuse_eq_ok, not_not, not_or, not_and, validateSafeID_ok,
    checkObserved_evidence]
  have hpair : (evidenceToJournalV2 evidence).releases.validate = .ok ()
      ↔ evidence.releases.Valid := validate_pair
  rw [hpair]
  refine ⟨fun ⟨h1, h2, h3, h4, ⟨h5, h6, h7⟩, h8, h9⟩ =>
      ⟨h1, h2, h3, h4, h5, h6, h7, or_iff_not_imp_left.mpr h8, h9⟩,
    fun ⟨h1, h2, h3, h4, h5, h6, h7, h8, h9⟩ =>
      ⟨h1, h2, h3, h4, ⟨h5, h6, h7⟩, or_iff_not_imp_left.mp h8, h9⟩⟩

lemma releasePairsEqual_iff {left right : ReleasePair} :
    releasePairsEqual left right ↔ left = right := by
  obtain ⟨lfrom, lprevious, ltarget⟩ := left
  obtain ⟨rfrom, rprevious, rtarget⟩ := right
  rw [releasePairsEqual, ReleasePair.mk.injEq]
  by_cases hdiffer : lfrom ≠ rfrom ∨ ltarget ≠ rtarget
  · rw [if_pos hdiffer]
    refine iff_of_false Bool.false_ne_true ?_
    rintro ⟨rfl, rfl, rfl⟩
    simp at hdiffer
  · rw [if_neg hdiffer]
    rw [not_or, not_not, not_not] at hdiffer
    cases lprevious <;> cases rprevious <;> simp [hdiffer.1, hdiffer.2]

lemma releasePairsEqual_to {left right : Release.ReleasePair} :
    releasePairsEqual (releasePairToJournalV2 left) (releasePairToJournalV2 right)
      ↔ left = right := by
  obtain ⟨_, _, _⟩ := left
  obtain ⟨_, _, _⟩ := right
  rw [releasePairsEqual_iff, Release.ReleasePair.mk.injEq]
  exact ReleasePair.mk.injEq .. ▸ .rfl

variable {journal : JournalRecord} {step : JournalStep}

/-- The texts of the checkpoints of steps. -/
lemma checkpoint_step (checkpoint : StepCheckpoint) :
    (journalStepToV2 step).checkpoint = Named.name checkpoint ↔ step.checkpoint = .known checkpoint :=
  Open.text_eq_iff rfl

/-- The frozen table of the evidence a step needs is the live one. -/
lemma wantedEvidence_name {checkpoint : StepCheckpoint} {want : EvidenceCheckpoint}
    (h : checkpoint.wants = some want) : wantedEvidence (Named.name checkpoint) = Named.name want := by
  cases checkpoint <;> cases h <;> decide

lemma validateFor_evidence {evidence : EvidenceRecord} {checkpoint : StepCheckpoint}
    {want : EvidenceCheckpoint} (hstep : step.checkpoint = .known checkpoint)
    (hwant : checkpoint.wants = some want) :
    (evidenceToJournalV2 evidence).validateFor (journalStepToV2 step) (journalRecordToV2 journal)
        = .ok ()
      ↔ evidence.Valid ∧ journal.matchesEvidence step evidence
        ∧ evidence.checkpoint = .known want := by
  have hcheckpoint : (evidenceToJournalV2 evidence).checkpoint
      = wantedEvidence (journalStepToV2 step).checkpoint ↔ evidence.checkpoint = .known want := by
    rw [(checkpoint_step checkpoint).mpr hstep, wantedEvidence_name hwant]
    exact Open.text_eq_iff rfl
  rw [Evidence.validateFor, check_bind, validate_evidence, refuse_bind, refuse_eq_ok, not_not,
    hcheckpoint]
  have hmatches : ¬ ((evidenceToJournalV2 evidence).transaction ≠ (journalRecordToV2 journal).transaction
      ∨ ¬ releasePairsEqual (evidenceToJournalV2 evidence).releases (journalRecordToV2 journal).releases
      ∨ (evidenceToJournalV2 evidence).step ≠ (journalStepToV2 step).id
      ∨ (evidenceToJournalV2 evidence).expected ≠ (journalStepToV2 step).expected
      ∨ (evidenceToJournalV2 evidence).desired ≠ (journalStepToV2 step).desired)
      ↔ journal.matchesEvidence step evidence := by
    have hpair : releasePairsEqual (evidenceToJournalV2 evidence).releases
        (journalRecordToV2 journal).releases ↔ evidence.releases = journal.releases :=
      releasePairsEqual_to
    rw [JournalRecord.matchesEvidence, hpair]
    simp only [not_or, not_not, Bool.and_eq_true, decide_eq_true_eq, and_assoc]
    rfl
  rw [hmatches]

lemma checkEvidence_step :
    (validStepCheckpoint (journalStepToV2 step).checkpoint
      ∧ (journalStepToV2 step).checkEvidence (journalRecordToV2 journal) = .ok ())
      ↔ ∃ checkpoint, step.checkpoint = .known checkpoint ∧ journal.Evidenced step checkpoint := by
  cases hcheckpoint : step.checkpoint with
  | other text h =>
    have hinvalid : validStepCheckpoint text = false := by
      simp only [validStepCheckpoint, Bool.or_eq_false_iff, decide_eq_false_iff_not]
      exact ⟨⟨⟨(h .intent).symm, (h .evidence).symm⟩, (h .applied).symm⟩, (h .verified).symm⟩
    simp [journalStepToV2, hcheckpoint, Open.text, hinvalid]
  | known checkpoint =>
    have htext : (journalStepToV2 step).checkpoint = Named.name checkpoint :=
      (checkpoint_step checkpoint).mpr hcheckpoint
    have hvalid : validStepCheckpoint (Named.name checkpoint) := by cases checkpoint <;> decide
    simp only [htext, hvalid, true_and, Open.known.injEq, exists_eq_left']
    rw [Step.checkEvidence, JournalRecord.Evidenced, htext]
    cases hwants : checkpoint.wants with
    | none =>
      have hintent : Named.name checkpoint = str "intent" := by
        cases checkpoint <;> cases hwants
        rfl
      rw [if_pos hintent, refuse_eq_ok]
      simp [journalStepToV2]
    | some want =>
      have hintent : Named.name checkpoint ≠ str "intent" := by
        cases checkpoint <;> cases hwants <;> decide
      rw [if_neg hintent]
      cases hevidence : step.evidence with
      | none => simp [journalStepToV2, hevidence]
      | some evidence =>
        have hwire : (journalStepToV2 step).evidence = some (evidenceToJournalV2 evidence) := by
          rw [journalStepToV2, hevidence]
          rfl
        simp only [hwire, Option.some.injEq, exists_eq_left']
        exact validateFor_evidence hcheckpoint hwants

lemma decision_step :
    (journalStepToV2 step).decision ∈ [str "preserve", str "transform", str "canonicalize",
        str "reset", str "quarantine"]
      ↔ step.decision.isKnown ∧ step.decision ≠ .known .block := by
  show step.decision.text ∈ _ ↔ _
  cases hdecision : step.decision with
  | known decision => cases decision <;> decide
  | other text h =>
    simp only [Open.text, List.mem_cons, List.not_mem_nil, or_false]
    have hnone : ¬ (text = str "preserve" ∨ text = str "transform" ∨ text = str "canonicalize"
        ∨ text = str "reset" ∨ text = str "quarantine") := by
      rintro (rfl | rfl | rfl | rfl | rfl)
      exacts [h .preserve rfl, h .transform rfl, h .canonicalize rfl, h .reset rfl,
        h .quarantine rfl]
    simp [hnone, Open.isKnown]

lemma journalAfterMigrations_text {checkpoint : Open JournalCheckpoint} :
    journalAfterMigrations checkpoint.text = Release.journalAfterMigrations checkpoint := by
  cases checkpoint with
  | known checkpoint => cases checkpoint <;> decide
  | other text h =>
    simp only [Open.text, journalAfterMigrations, Release.journalAfterMigrations,
      Bool.or_eq_false_iff]
    exact ⟨⟨⟨decide_eq_false (h .activationIntent).symm, decide_eq_false (h .targetActive).symm⟩,
      decide_eq_false (h .reconciling).symm⟩, decide_eq_false (h .complete).symm⟩

lemma validJournalCheckpoint_text {checkpoint : Open JournalCheckpoint} :
    validJournalCheckpoint checkpoint.text ↔ checkpoint.isKnown := by
  rw [Open.isKnown_iff, validJournalCheckpoint, decide_eq_true_eq]
  simp [Named.members, Named.name]

/-- The two checks of a step agree. -/
lemma validate_step {seen : List Bytes} :
    (journalStepToV2 step).validate (journalRecordToV2 journal) seen = .ok ()
      ↔ journal.validateStep seen step = .ok () := by
  rw [JournalRecord.validateStep_ok, Step.validate]
  simp only [check_bind, refuse_eq_ok, validateSafeID_ok, not_or, not_not, not_and]
  have hevidence : _ ↔ ∃ checkpoint, step.checkpoint = .known checkpoint
      ∧ journal.Evidenced step checkpoint := checkEvidence_step
  have hafter : journalAfterMigrations (journalRecordToV2 journal).checkpoint
      = Release.journalAfterMigrations journal.checkpoint := journalAfterMigrations_text
  have hverified : (journalStepToV2 step).checkpoint = str "verified"
      ↔ step.checkpoint = .known .verified := checkpoint_step .verified
  rw [hafter, hverified]
  constructor
  · rintro ⟨h1, h2, h3, h4, h5, ⟨h6, h7⟩, h8, h9, h10⟩
    exact ⟨h2, h1, h3, h4, decision_step.mp h5, h6, h7, hevidence.mp ⟨h8, h9⟩, h10⟩
  · rintro ⟨h2, h1, h3, h4, h5, h6, h7, h8, h9⟩
    obtain ⟨h8, h8'⟩ := hevidence.mpr h8
    exact ⟨h1, h2, h3, h4, decision_step.mpr h5, ⟨h6, h7⟩, h8, h8', h9⟩

lemma validate_steps {steps : List JournalStep} {seen : List Bytes} :
    (journalRecordToV2 journal).validateSteps seen (steps.map journalStepToV2) = .ok ()
      ↔ journal.validateSteps seen steps = .ok () := by
  induction steps generalizing seen with
  | nil => exact iff_of_true rfl rfl
  | cons step steps ih =>
    rw [List.map_cons, Record.validateSteps, JournalRecord.validateSteps, check_bind, check_bind,
      validate_step]
    exact and_congr_right fun _ => ih

lemma stepList_toV2 (journal : JournalRecord) :
    (journalRecordToV2 journal).stepList = journal.stepList.map journalStepToV2 := by
  rw [Record.stepList, journalRecordToV2, JournalRecord.stepList]
  cases journal.steps <;> rfl

/-- The two digests of the intent agree. -/
lemma bindIntent_toV2 (journal : JournalRecord) :
    (journalRecordToV2 journal).bindIntent = bindJournalIntent journal.authorizationPlan
      journal.resumePlan journal.observationScope journal.stepList := by
  rw [Record.bindIntent, bindJournalIntent, stepList_toV2, List.map_map]
  rfl

lemma checkIngress_toV2 :
    (journalRecordToV2 journal).checkIngress = .ok ()
      ↔ ∀ request ∈ journal.sourceIngress, request.Valid := by
  rw [Record.checkIngress, journalRecordToV2]
  cases journal.sourceIngress with
  | none => simp
  | some request =>
    simp only [Option.map_some, Option.mem_some_iff, forall_eq']
    exact validate_ingress

/-- **The frozen checks accept exactly the valid journals.** -/
theorem validate_toV2 : (journalRecordToV2 journal).validate = .ok () ↔ journal.Valid := by
  rw [Record.validate, bindIntent_toV2, stepList_toV2, JournalRecord.valid_iff]
  have hgoal : (journalRecordToV2 journal).goal.validate = .ok () ↔ journal.goal.Valid :=
    validate_goal
  have hpair : (journalRecordToV2 journal).releases.validate = .ok () ↔ journal.releases.Valid :=
    validate_pair
  have hcheckpoint : validJournalCheckpoint (journalRecordToV2 journal).checkpoint
      ↔ journal.checkpoint.isKnown := validJournalCheckpoint_text
  simp only [check_bind, refuse_eq_ok, not_not, validateSafeID_ok, hgoal, hpair, checkDigest_ok,
    checkIngress_toV2, hcheckpoint, validate_steps, JournalRecord.validateSteps_ok,
    List.not_mem_nil, not_false_eq_true, true_and, not_lt, List.length_map, and_assoc]
  exact Iff.rfl

end JournalV2

end Subyard.Release
