import Subyard.Release.Codec

/-!
The texts of journals and of the archives of superseded ones.

* `marshalJournal`, `parseJournal`, `marshalSupersededJournal`, `parseSupersededJournal`: the
  functions of the codec.
* `marshalJournal_ok`, `marshalSupersededJournal_ok`: what is accepted, and the text it gets.
* `length_journal`: **the largest journal that is accepted fits the bound**.
-/

namespace Subyard.Release

open Text Fallible History

/-! ### Texts of records -/

def parseJournal (payload : Bytes) : Except Failure JournalRecord := do
  let wire ← (JournalV2.decode payload).mapError fun message =>
    .invalid (str "decode release transition journal: " ++ message)
  pure (journalRecordFromV2 wire)

def marshalJournal (record : JournalRecord) : Except Failure Bytes := do
  let payload ← (JournalV2.encode (journalRecordToV2 record)).mapError fun message =>
    .invalid (str "encode release transition journal: " ++ message)
  pure (payload ++ [10])

/-- `JournalReplacementReason`. -/
inductive JournalReplacementReason
  | preActivationPlanStale | postActivationScopeV0111 | newerRelease
deriving DecidableEq, Repr

instance : Named JournalReplacementReason where
  members := [.preActivationPlanStale, .postActivationScopeV0111, .newerRelease]
  name
    | .preActivationPlanStale => str "pre-activation-plan-stale"
    | .postActivationScopeV0111 => str "post-activation-scope-v0.11.1"
    | .newerRelease => str "newer-release-v1"
  complete a := by cases a <;> decide
  injective a b h := by cases a <;> cases b <;> first | rfl | exact absurd h (by decide)

structure JournalReplacement where
  transaction : TransactionID
  fingerprint : Fingerprint
  reason : Open JournalReplacementReason
  sourceVersion : Bytes
deriving DecidableEq

structure SupersededJournalRecord where
  schemaVersion : ℤ
  authorizationPlan : PlanToken
  replacement : JournalReplacement
  journal : JournalRecord
deriving DecidableEq

def supersededJournalToV1 (record : SupersededJournalRecord) : JournalV2.Archive :=
  ⟨record.schemaVersion, record.authorizationPlan,
    ⟨record.replacement.transaction, record.replacement.fingerprint,
      record.replacement.reason.text, record.replacement.sourceVersion⟩,
    journalRecordToV2 record.journal⟩

def supersededJournalFromV1 (archive : JournalV2.Archive) : SupersededJournalRecord :=
  ⟨archive.schemaVersion, archive.authorizationPlan,
    ⟨archive.replacement.transaction, archive.replacement.fingerprint,
      .ofText archive.replacement.reason, archive.replacement.sourceVersion⟩,
    journalRecordFromV2 archive.journal⟩

def parseSupersededJournal (payload : Bytes) : Except Failure SupersededJournalRecord := do
  let wire ← (JournalV2.decodeArchive payload).mapError fun message =>
    .invalid (str "decode superseded release transition journal: " ++ message)
  pure (supersededJournalFromV1 wire)

def marshalSupersededJournal (record : SupersededJournalRecord) : Except Failure Bytes := do
  let payload ← (JournalV2.encodeArchive (supersededJournalToV1 record)).mapError fun message =>
    .invalid (str "encode superseded release transition journal: " ++ message)
  pure (payload ++ [10])

lemma supersededFrom_to (record : SupersededJournalRecord) :
    supersededJournalFromV1 (supersededJournalToV1 record) = record := by
  simp only [supersededJournalFromV1, supersededJournalToV1, Open.ofText_text, journalRecordFrom_to]

/-- A journal is written if it is valid. -/
lemma marshalJournal_ok {record : JournalRecord} {payload : Bytes} :
    marshalJournal record = .ok payload ↔ record.Valid
      ∧ payload = Json.render (Json.object JournalV2.recordTags (journalRecordToV2 record)) ++ [10] := by
  rw [← JournalV2.validate_toV2, marshalJournal, JournalV2.encode]
  constructor
  · intro h
    obtain ⟨text, hencode, h⟩ := of_bind_ok h
    obtain ⟨hvalid, hencode⟩ := check_bind.mp (mapError_eq_ok.mp hencode)
    cases hencode
    cases h
    exact ⟨hvalid, rfl⟩
  · rintro ⟨hvalid, rfl⟩
    rw [hvalid]
    rfl

/-- A journal that is read is valid, and the text read is one of its frozen record. -/
lemma parseJournal_ok {payload : Bytes} {record : JournalRecord}
    (h : parseJournal payload = .ok record) : record.Valid := by
  obtain ⟨wire, hdecode, h⟩ := of_bind_ok h
  cases h
  obtain ⟨wire', _, hdecode⟩ := of_bind_ok (mapError_eq_ok.mp hdecode)
  obtain ⟨hvalid, hdecode⟩ := check_bind.mp hdecode
  cases hdecode
  rw [← JournalV2.validate_toV2, journalRecordTo_from]
  exact hvalid

/-- The evidence of a valid step is valid. -/
lemma JournalRecord.Evidenced.valid {journal : JournalRecord} {step : JournalStep}
    {checkpoint : StepCheckpoint} {evidence : EvidenceRecord}
    (h : journal.Evidenced step checkpoint) (hsome : step.evidence = some evidence) :
    evidence.Valid := by
  rw [JournalRecord.Evidenced] at h
  cases hwants : checkpoint.wants with
  | none =>
    simp only [hwants, hsome] at h
    cases h
  | some want =>
    simp only [hwants, hsome, Option.some.injEq, exists_eq_left'] at h
    exact h.1

/-- What holds of the steps of a journal holds of those of its frozen record. -/
lemma forall_steps_toV2 {journal : JournalRecord} {p : JournalV2.Step → Prop}
    (h : ∀ step ∈ journal.stepList, p (journalStepToV2 step)) :
    ∀ wires ∈ (journalRecordToV2 journal).steps, ∀ wire ∈ wires, p wire := by
  intro wires hwires wire hwire
  obtain ⟨steps, hsome, rfl⟩ := Option.map_eq_some_iff.mp hwires
  obtain ⟨step, hstep, rfl⟩ := List.mem_map.mp hwire
  refine h step ?_
  rw [JournalRecord.stepList, hsome]
  exact hstep

/-- The same for the evidence of a step. -/
lemma forall_evidence_toV2 {journal : JournalRecord} {step : JournalStep}
    (hstep : journal.ValidStep step) {p : JournalV2.Evidence → Prop}
    (h : ∀ evidence : EvidenceRecord, evidence.Valid → p (evidenceToJournalV2 evidence)) :
    ∀ wire ∈ (journalStepToV2 step).evidence, p wire := by
  intro wire hwire
  obtain ⟨evidence, hsome, rfl⟩ := Option.map_eq_some_iff.mp hwire
  obtain ⟨checkpoint, _, hevidenced⟩ := hstep.evidenced
  exact h evidence (hevidenced.valid hsome)

/-- The same for the source ingress. -/
lemma forall_ingress_toV2 {journal : JournalRecord} {p : JournalV2.SourceIngress → Prop}
    (h : ∀ source ∈ journal.sourceIngress, p (sourceIngressToJournalV2 source)) :
    ∀ wire ∈ (journalRecordToV2 journal).sourceIngress, p wire := by
  intro wire hwire
  obtain ⟨source, hsome, rfl⟩ := Option.map_eq_some_iff.mp hwire
  exact h source hsome

/-! ### The lengths of texts -/

open Json (Tag)

section Lengths

/-- A letter, a digit or a mark of a safe id. -/
lemma isVerbatim_of_safe : ∀ b : UInt8, ((97 ≤ b && b ≤ 122) || (65 ≤ b && b ≤ 90)
    || (48 ≤ b && b ≤ 57) || b = 46 || b = 95 || b = 45) → Json.isVerbatim b :=
  Text.forall_octet (by decide +kernel)

lemma length_safeID {id : Bytes} (h : safeID id) : (Json.quote id).length ≤ 130 := by
  obtain ⟨hlength, hsafe⟩ := Bool.and_eq_true_iff.mp h
  have hall := (Bool.and_eq_true_iff.mp hsafe).2
  have hverbatim : id.all Json.isVerbatim := List.all_eq_true.mpr fun b hb =>
    isVerbatim_of_safe b (List.all_eq_true.mp hall b hb)
  rw [Json.length_quote_verbatim hverbatim]
  have := of_decide_eq_true hlength
  omega

lemma verbatim_of_validFingerprint {value : Bytes} (h : validFingerprint value) :
    value.length = 64 ∧ value.all Json.isVerbatim := by
  obtain ⟨hlength, hall⟩ := Bool.and_eq_true_iff.mp h
  refine ⟨of_decide_eq_true hlength, List.all_eq_true.mpr fun b hb => isVerbatim_of_safe b ?_⟩
  have hhex := List.all_eq_true.mp hall b hb
  revert hhex
  exact Text.forall_octet (p := fun b : UInt8 => (((48 ≤ b && b ≤ 57) || (97 ≤ b && b ≤ 102)) = true →
    ((97 ≤ b && b ≤ 122) || (65 ≤ b && b ≤ 90) || (48 ≤ b && b ≤ 57) || b = 46 || b = 95 || b = 45)
      = true)) (by decide +kernel) b

lemma length_fingerprint {value : Bytes} (h : validFingerprint value) :
    (Json.quote value).length ≤ 66 := by
  obtain ⟨hlength, hverbatim⟩ := verbatim_of_validFingerprint h
  rw [Json.length_quote_verbatim hverbatim]
  omega

/-- A token is its kind and a fingerprint. -/
lemma validToken_eq {kind : String} {value : PlanToken} (h : validToken kind value) :
    ∃ fingerprint, validFingerprint fingerprint ∧ value = str kind ++ fingerprint := by
  obtain ⟨hkind, hfingerprint⟩ := Bool.and_eq_true_iff.mp h
  obtain ⟨rest, rfl⟩ := List.isPrefixOf_iff_prefix.mp hkind
  rw [List.drop_left] at hfingerprint
  exact ⟨rest, hfingerprint, rfl⟩

lemma length_token {kind : String} (hkind : (str kind).all Json.isVerbatim) {value : PlanToken}
    (h : validToken kind value) : (Json.quote value).length ≤ (str kind).length + 66 := by
  obtain ⟨fingerprint, hfingerprint, rfl⟩ := validToken_eq h
  obtain ⟨hlength, hverbatim⟩ := verbatim_of_validFingerprint hfingerprint
  have hall : (str kind ++ fingerprint).all Json.isVerbatim := by
    rw [List.all_append, hkind, hverbatim]
    rfl
  rw [Json.length_quote_verbatim hall, List.length_append]
  omega

/-- The longest name of an enumeration bounds the texts of its known values. -/
lemma length_named {α : Type} [Named α] {x : Open α} {n : ℕ} (hknown : x.isKnown)
    (h : ∀ a ∈ (Named.members : List α), (Json.quote (Named.name a)).length ≤ n) :
    (Json.quote x.text).length ≤ n := by
  obtain ⟨a, ha, htext⟩ := Open.isKnown_iff.mp hknown
  rw [htext]
  exact h a ha

lemma length_goal {goal : Goal} (h : goal.Valid) :
    (Json.render (Json.object JournalV2.goalTags (goalToJournalV2 goal))).length ≤ 197 := by
  have hdirection : (Json.quote goal.direction.text).length ≤ 19 := length_named h.2 (by decide)
  have hfields : Json.Within JournalV2.goalTags [130, 19] (goalToJournalV2 goal) :=
    .cons (length_safeID h.1) (.cons hdirection .nil)
  exact Json.length_object (n := 21) (by decide) hfields

lemma length_pair {pair : ReleasePair} (h : pair.Valid) :
    (Json.render (Json.object JournalV2.pairTags (releasePairToJournalV2 pair))).length ≤ 461 := by
  have hfields : Json.Within JournalV2.pairTags [130, 130, 130] (releasePairToJournalV2 pair) :=
    .cons (length_safeID h.1) (.cons (Tag.size_pointer fun p hp => length_safeID (h.2.2 p hp).1)
      (.cons (length_safeID h.2.1) .nil))
  exact Json.length_object (n := 21) (by decide) hfields

/-- The length of a schema version. -/
lemma length_version {n m : ℤ} (h : n = m) (hm : (Json.number m).length = 1) :
    (Json.render (Json.Format.int.encode n)).length ≤ 1 := by
  subst h
  exact hm.le

lemma length_ingress {source : SourceIngressRequest} (h : source.Valid) :
    (Json.render (Json.object JournalV2.ingressTags (sourceIngressToJournalV2 source))).length
      ≤ 123072 := by
  have hpath : ∀ path ∈ source.paths, (Json.quote path).length ≤ 24578 := by
    intro path hpath
    have hvalid := h.2.2 path hpath
    simp only [validRolePath, Bool.and_eq_true, decide_eq_true_eq] at hvalid
    have := Json.length_quote path
    omega
  simp only [SourceIngressRequest.paths, List.forall_mem_cons, List.not_mem_nil] at hpath
  obtain ⟨hroot, hdata, hbin, hrc, hlogin, -⟩ := hpath
  have hkind : (Json.quote source.kind.text).length ≤ 18 := by
    rw [h.2.1]
    decide
  have hfields : Json.Within JournalV2.ingressTags
      [1, 18, 24578, 24578, 24578, 24578, 24578] (sourceIngressToJournalV2 source) :=
    .cons (length_version h.1 (by decide)) (.cons hkind
      (.cons hroot (.cons hdata (.cons hbin (.cons hrc (.cons hlogin .nil))))))
  exact Json.length_object (n := 21) (by decide) hfields

lemma length_evidence {evidence : EvidenceRecord} (h : evidence.Valid) :
    (Json.render (Json.object JournalV2.evidenceTags (evidenceToJournalV2 evidence))).length
      ≤ 1205 := by
  have hrecovery : ¬ evidence.recovery.isEmpty → (Json.quote evidence.recovery).length ≤ 66 := by
    intro hempty
    refine length_fingerprint (h.recovery.resolve_left fun hnil => hempty ?_)
    rw [hnil]
    rfl
  have hcheckpoint : (Json.quote evidence.checkpoint.text).length ≤ 10 := by
    refine length_named ?_ (by decide)
    rcases h.observed with ⟨hknown, _⟩ | ⟨hknown | hknown, _⟩ <;> rw [hknown] <;> rfl
  have hfields : Json.Within JournalV2.evidenceTags
      [1, 130, 461, 130, 66, 66, 66, 66, 10] (evidenceToJournalV2 evidence) :=
    .cons (length_version h.schema (by decide)) (.cons (length_safeID h.transaction)
      (.cons (length_pair h.releases) (.cons (length_safeID h.step)
        (.cons (length_fingerprint h.expected) (.cons (length_fingerprint h.desired)
          (.cons (length_fingerprint h.fingerprint) (.cons (Tag.size_omitEmpty hrecovery)
            (.cons hcheckpoint .nil))))))))
  exact Json.length_object (n := 21) (by decide) hfields

lemma length_step {journal : JournalRecord} {step : JournalStep} (h : journal.ValidStep step) :
    (Json.render (Json.object JournalV2.stepTags (journalStepToV2 step))).length ≤ 1937 := by
  obtain ⟨checkpoint, hcheckpoint, _⟩ := h.evidenced
  have htext : (Json.quote step.checkpoint.text).length ≤ 10 := by
    refine length_named ?_ (by decide)
    rw [hcheckpoint]
    rfl
  have hdecision : (Json.quote step.decision.text).length ≤ 14 :=
    length_named h.decision.1 (by decide)
  have hevidence : ∀ wire ∈ (journalStepToV2 step).evidence,
      (Json.render (Json.object JournalV2.evidenceTags wire)).length ≤ 1205 :=
    forall_evidence_toV2 h fun _ => length_evidence
  have hfields : Json.Within JournalV2.stepTags
      [130, 130, 130, 14, 66, 66, 10, 1205] (journalStepToV2 step) :=
    .cons (length_safeID h.id) (.cons (length_safeID h.migration)
      (.cons (length_safeID h.resource) (.cons hdecision
        (.cons (length_fingerprint h.expected) (.cons (length_fingerprint h.desired)
          (.cons htext (.cons (Tag.size_pointer hevidence) .nil)))))))
  exact Json.length_object (n := 21) (by decide) hfields

/-- **The text of the largest journal** is within the bound. -/
theorem length_journal {journal : JournalRecord} (h : journal.Valid) :
    (Json.render (Json.object JournalV2.recordTags (journalRecordToV2 journal))).length
      ≤ 620905 := by
  have hcheckpoint : (Json.quote journal.checkpoint.text).length ≤ 19 :=
    length_named h.checkpoint (by decide)
  have hingress : ∀ wire ∈ (journalRecordToV2 journal).sourceIngress,
      (Json.render (Json.object JournalV2.ingressTags wire)).length ≤ 123072 :=
    forall_ingress_toV2 fun source hsome => length_ingress (h.ingress source hsome)
  have hsteps : (Json.render ((Json.Format.slice JournalV2.zeroStep
      (.record JournalV2.stepTags)).encode (journalRecordToV2 journal).steps)).length
        ≤ 256 * (1937 + 1) + 4 := by
    refine Json.length_slice (fun wires hwires => ?_)
      (forall_steps_toV2 fun step hstep => length_step (h.steps step hstep))
    obtain ⟨steps, hsome, rfl⟩ := Option.map_eq_some_iff.mp hwires
    have hbounded := h.bounded
    rw [JournalRecord.stepList, hsome] at hbounded
    simpa using hbounded
  have hfields : Json.Within JournalV2.recordTags
      [1, 130, 197, 461, 74, 76, 66, 66, 66, 66, 66, 66, 123072, 19, 496132] (journalRecordToV2 journal) :=
    .cons (length_version h.schema (by decide)) (.cons (length_safeID h.transaction)
      (.cons (length_goal h.goal) (.cons (length_pair h.releases)
        (.cons (length_token (by decide) h.authorizationPlan)
          (.cons (length_token (by decide) h.resumePlan)
            (.cons (length_fingerprint h.artifact) (.cons (length_fingerprint h.registry)
              (.cons (length_fingerprint h.catalog) (.cons (length_fingerprint h.scope)
                (.cons (length_fingerprint h.authorization) (.cons (length_fingerprint h.intent)
                  (.cons (Tag.size_pointer hingress) (.cons hcheckpoint
                    (.cons hsteps .nil))))))))))))))
  exact Json.length_object (n := 21) (by decide) hfields

end Lengths

/-! ### Versions -/

namespace JournalV2

lemma all_of_splitOn {p : UInt8 → Bool} {text : Bytes} (hdot : p 46)
    (h : (text.splitOn 46).all fun part => part.all p) : text.all p := by
  unfold List.splitOn at h
  induction text with
  | nil => rfl
  | cons b bs ih =>
    rw [List.splitOnP_cons_eq_if_modifyHead] at h
    rw [List.all_cons, Bool.and_eq_true]
    by_cases hb : b = 46
    · simp only [hb, beq_self_eq_true, if_true, List.all_cons, Bool.and_eq_true] at h
      exact ⟨hb ▸ hdot, ih h.2⟩
    · have hbeq : (b == 46) = false := beq_eq_false_iff_ne.mpr hb
      rw [hbeq] at h
      obtain ⟨part, parts, hparts⟩ := List.exists_cons_of_ne_nil (List.splitOnP_ne_nil (· == 46) bs)
      rw [hparts] at h ih
      simp only [Bool.false_eq_true, if_false, List.modifyHead_cons, List.all_cons,
        Bool.and_eq_true] at h ih
      exact ⟨h.1.1, ih ⟨h.1.2, h.2⟩⟩

lemma cut_eq (separator : UInt8) (value : Bytes) :
    value = (cut separator value).1 ++ ((cut separator value).2.elim [] fun rest => separator :: rest) := by
  have hsplit := List.takeWhile_append_dropWhile (p := (· ≠ separator)) (l := value)
  unfold cut
  cases hdrop : value.dropWhile (· ≠ separator) with
  | nil => simp
  | cons b rest =>
    have hhead := List.head?_dropWhile_not (· ≠ separator) value
    rw [hdrop] at hhead
    obtain rfl : b = separator := by simpa using hhead
    rw [hdrop] at hsplit
    exact hsplit.symm

/-- The octets of a version. -/
def isVersionChar (b : UInt8) : Bool := isIdentifierChar b || b = 46 || b = 43

lemma isVersionChar_verbatim : ∀ b : UInt8, isVersionChar b → b < 0x80 ∧ Json.isVerbatim b :=
  Text.forall_octet (by decide +kernel)

lemma all_of_areIdentifiers {text : Bytes} (h : areIdentifiers text) : text.all isVersionChar := by
  refine all_of_splitOn (by decide) (List.all_eq_true.mpr fun part hpart => ?_)
  have hchars := (Bool.and_eq_true_iff.mp (List.all_eq_true.mp h part hpart)).2
  refine List.all_eq_true.mpr fun b hb => ?_
  have hchar : isIdentifierChar b := List.all_eq_true.mp hchars b hb
  simp [isVersionChar, hchar]

lemma all_of_components {core : Bytes} (h : (core.splitOn 46).all isNumericComponent) :
    core.all isVersionChar := by
  refine all_of_splitOn (by decide) (List.all_eq_true.mpr fun part hpart => ?_)
  have hnumeric := List.all_eq_true.mp h part hpart
  simp only [isNumericComponent, Bool.and_eq_true] at hnumeric
  refine List.all_eq_true.mpr fun b hb => ?_
  have hdigit : isDigit b := List.all_eq_true.mp hnumeric.1.2 b hb
  simp [isVersionChar, isIdentifierChar, hdigit]

/-- The text after a separator is made of such octets too. -/
lemma all_of_cut {separator : UInt8} (hseparator : isVersionChar separator) {value : Bytes}
    (hfirst : (cut separator value).1.all isVersionChar)
    (hrest : (cut separator value).2.all areIdentifiers) : value.all isVersionChar := by
  rw [cut_eq separator value, List.all_append, hfirst, Bool.true_and]
  cases hcut : (cut separator value).2 with
  | none => rfl
  | some rest =>
    rw [hcut] at hrest
    have hall := all_of_areIdentifiers hrest
    rw [Option.elim_some, List.all_cons, hseparator, hall]
    rfl

/-- Versions are texts of letters, digits and a few marks. -/
lemma all_of_validCanonicalSemver {value : Bytes} (h : validCanonicalSemver value) :
    value.all isVersionChar := by
  have hmatch : (semverMatch value).isSome := by
    rw [validCanonicalSemver] at h
    cases hnone : semverMatch value with
    | none => simp [hnone] at h
    | some _ => rfl
  simp only [semverMatch] at hmatch
  split at hmatch
  · next hparts =>
      obtain ⟨_, hcore, hpre, hbuild⟩ := hparts
      have hfront := all_of_cut (by decide) (all_of_components hcore) hpre
      exact all_of_cut (by decide) hfront hbuild
  · cases hmatch

lemma valid_of_validCanonicalSemver {value : Bytes} (h : validCanonicalSemver value) :
    valid value :=
  (ascii_of_all (fun b hb => (isVersionChar_verbatim b hb).1) (all_of_validCanonicalSemver h)).valid

lemma length_version_text {value : Bytes} (h : validCanonicalSemver value) :
    (Json.quote value).length = value.length + 2 :=
  Json.length_quote_verbatim (List.all_eq_true.mpr fun b hb =>
    (isVersionChar_verbatim b (List.all_eq_true.mp (all_of_validCanonicalSemver h) b hb)).2)

end JournalV2

/-! ### Accepted archives -/

/-- What is asked of the archive of a superseded journal. -/
structure SupersededJournalRecord.Valid (record : SupersededJournalRecord) : Prop where
  schema : record.schemaVersion = 1
  authorizationPlan : validToken "plan-v1-" record.authorizationPlan
  safe : safeID record.replacement.transaction
  digest : validFingerprint record.replacement.fingerprint
  reason : record.replacement.reason = .known .postActivationScopeV0111
  version : JournalV2.validCanonicalSemver record.replacement.sourceVersion
  journal : record.journal.Valid
  transaction : record.replacement.transaction = record.journal.transaction
  fingerprint : record.replacement.fingerprint = fingerprintPayload
    (Json.render (Json.object JournalV2.recordTags (journalRecordToV2 record.journal)) ++ [10])

lemma validate_archive {record : SupersededJournalRecord} :
    (supersededJournalToV1 record).validate = .ok () ↔ record.Valid := by
  have hjournal : (supersededJournalToV1 record).journal.validate = .ok () ↔ record.journal.Valid :=
    JournalV2.validate_toV2
  have hreason : (supersededJournalToV1 record).replacement.reason
      = str "post-activation-scope-v0.11.1"
        ↔ record.replacement.reason = .known .postActivationScopeV0111 := Open.text_eq_iff rfl
  rw [JournalV2.Archive.validate, JournalV2.Replacement.validate, JournalV2.encode]
  simp only [check_bind, refuse_eq_ok, not_not, JournalV2.validateSafeID_ok, hjournal, hreason]
  constructor
  · rintro ⟨h1, h2, ⟨h3, h4, h5, h6⟩, h7, h8, h9⟩
    obtain ⟨text, htext, h9⟩ := of_bind_ok h9
    cases (check_bind.mp htext).2
    exact ⟨h1, h2, h3, h4, h5, h6, h7, h8, not_not.mp (refuse_eq_ok.mp h9)⟩
  · rintro ⟨h1, h2, h3, h4, h5, h6, h7, h8, h9⟩
    refine ⟨h1, h2, ⟨h3, h4, h5, h6⟩, h7, h8, ?_⟩
    rw [hjournal.mpr h7]
    exact refuse_eq_ok.mpr (not_not.mpr h9)

/-- An archive is written if it is valid. -/
lemma marshalSupersededJournal_ok {record : SupersededJournalRecord} {payload : Bytes} :
    marshalSupersededJournal record = .ok payload ↔ record.Valid
      ∧ payload = Json.render (Json.object JournalV2.archiveTags (supersededJournalToV1 record))
        ++ [10] := by
  rw [← validate_archive, marshalSupersededJournal, JournalV2.encodeArchive]
  constructor
  · intro h
    obtain ⟨text, hencode, h⟩ := of_bind_ok h
    obtain ⟨hvalid, hencode⟩ := check_bind.mp (mapError_eq_ok.mp hencode)
    cases hencode
    cases h
    exact ⟨hvalid, rfl⟩
  · rintro ⟨hvalid, rfl⟩
    rw [hvalid]
    rfl

/-- The text of an archive is within the bound unless its version is very long. -/
lemma length_archive {record : SupersededJournalRecord} (h : record.Valid)
    (hversion : record.replacement.sourceVersion.length ≤ 2 ^ 18) :
    (Json.render (Json.object JournalV2.archiveTags (supersededJournalToV1 record))).length
      ≤ 883541 := by
  have htext : (Json.quote record.replacement.sourceVersion).length ≤ 262146 := by
    rw [JournalV2.length_version_text h.version]
    omega
  have hreason : (Json.quote record.replacement.reason.text).length ≤ 31 := by
    rw [h.reason]
    decide
  have hreplacement : Json.Within JournalV2.replacementTags [130, 66, 31, 262146]
      (supersededJournalToV1 record).replacement :=
    .cons (length_safeID h.safe) (.cons (length_fingerprint h.digest) (.cons hreason
      (.cons (Tag.size_omitEmpty fun _ => htext) .nil)))
  have hinner : (Json.render (Json.object JournalV2.replacementTags
      (supersededJournalToV1 record).replacement)).length ≤ 262467 :=
    Json.length_object (n := 21) (by decide) hreplacement
  have hfields : Json.Within JournalV2.archiveTags [1, 74, 262467, 620905]
      (supersededJournalToV1 record) :=
    .cons (length_version h.schema (by decide)) (.cons (length_token (by decide) h.authorizationPlan)
      (.cons hinner (.cons (length_journal h.journal) .nil)))
  exact Json.length_object (n := 21) (by decide) hfields

end Subyard.Release
