import Subyard.Release.Texts

/-!
What is read back of the texts of journals and archives.

* `validators_agree`: **the live and the frozen checks accept the same journals**, which are then
  written within the bound.
* `codec_round_trip`: **a journal or an archive is read back as it was written**, and
  `codec_loses_octet`, the path that is not.
-/

namespace Subyard.Release

open Text Fallible History

open Json (Tag)

/-! ### Records are read back -/

namespace JournalV2

open Json (Format)

lemma reads_goal (goal : Goal) : (Format.record goalTags).Reads ⟨[], []⟩ goal :=
  Format.record_reads (by decide) <|
    Tag.read_text <|
    Tag.read_text rfl

lemma reads_pair (pair : ReleasePair) : (Format.record pairTags).Reads zeroPair pair := by
  have hprevious : (Format.pointer [] Format.text).Reads none pair.previous :=
    Format.pointer_reads fun _ _ => ⟨rfl, nofun⟩
  have hempty : pair.previous.isNone → pair.previous = none := Option.isNone_iff_eq_none.mp
  exact Format.record_reads (by decide) <|
    Tag.read_text <|
    Tag.read_cons (Tag.read_omitEmpty rfl hempty hprevious) <|
    Tag.read_text rfl

/-- A schema version is a machine integer. -/
lemma reads_version {n m : ℤ} (h : n = m) (hm : -2 ^ 63 ≤ m ∧ m < 2 ^ 63) :
    Format.int.Reads 0 n := by
  subst h
  exact Format.int_reads hm.1 hm.2 0

lemma reads_ingress {source : SourceIngress} (h : source.schemaVersion = 1) :
    (Format.record ingressTags).Reads zeroIngress source :=
  Format.record_reads (by decide) <|
    Tag.read_cons (Tag.read_of (reads_version h (by decide))) <|
    Tag.read_text <|
    Tag.read_text <|
    Tag.read_text <|
    Tag.read_text <|
    Tag.read_text <|
    Tag.read_text rfl

lemma reads_evidence {evidence : Evidence} (h : evidence.schemaVersion = 2) :
    (Format.record evidenceTags).Reads zeroEvidence evidence := by
  have hempty : evidence.recovery.isEmpty → evidence.recovery = [] := List.isEmpty_iff.mp
  exact Format.record_reads (by decide) <|
    Tag.read_cons (Tag.read_of (reads_version h (by decide))) <|
    Tag.read_text <|
    Tag.read_cons (Tag.read_of (reads_pair _)) <|
    Tag.read_text <|
    Tag.read_text <|
    Tag.read_text <|
    Tag.read_text <|
    Tag.read_cons (Tag.read_omitEmpty rfl hempty (Format.text_reads _ _)) <|
    Tag.read_text rfl

lemma reads_step {step : Step} (h : ∀ evidence ∈ step.evidence, evidence.schemaVersion = 2) :
    (Format.record stepTags).Reads zeroStep step := by
  have hempty : step.evidence.isNone → step.evidence = none := Option.isNone_iff_eq_none.mp
  have hevidence : (Format.pointer zeroEvidence (Format.record evidenceTags)).Reads none
      step.evidence :=
    Format.pointer_reads fun evidence hsome =>
      ⟨reads_evidence (h evidence hsome), Format.record_ne_null _ _⟩
  exact Format.record_reads (by decide) <|
    Tag.read_text <|
    Tag.read_text <|
    Tag.read_text <|
    Tag.read_text <|
    Tag.read_text <|
    Tag.read_text <|
    Tag.read_text <|
    Tag.read_cons (Tag.read_omitEmpty rfl hempty hevidence) rfl

/-- The schema versions in a record are those of its contract. -/
structure Record.Versioned (record : Record) : Prop where
  schema : record.schemaVersion = 2
  ingress : ∀ source ∈ record.sourceIngress, source.schemaVersion = 1
  evidence : ∀ steps ∈ record.steps, ∀ step ∈ steps, ∀ evidence ∈ step.evidence,
    evidence.schemaVersion = 2

lemma reads_record {record : Record} (h : record.Versioned) :
    (Format.record recordTags).Reads zeroRecord record := by
  have hempty : record.sourceIngress.isNone → record.sourceIngress = none :=
    Option.isNone_iff_eq_none.mp
  have hingress : (Format.pointer zeroIngress (Format.record ingressTags)).Reads none
      record.sourceIngress :=
    Format.pointer_reads fun source hsome =>
      ⟨reads_ingress (h.ingress source hsome), Format.record_ne_null _ _⟩
  have hsteps : (Format.slice zeroStep (Format.record stepTags)).Reads none record.steps :=
    Format.slice_reads fun steps hsome step hstep => reads_step (h.evidence steps hsome step hstep)
  exact Format.record_reads (by decide) <|
    Tag.read_cons (Tag.read_of (reads_version h.schema (by decide))) <|
    Tag.read_text <|
    Tag.read_cons (Tag.read_of (reads_goal _)) <|
    Tag.read_cons (Tag.read_of (reads_pair _)) <|
    Tag.read_text <|
    Tag.read_text <|
    Tag.read_text <|
    Tag.read_text <|
    Tag.read_text <|
    Tag.read_text <|
    Tag.read_text <|
    Tag.read_text <|
    Tag.read_cons (Tag.read_omitEmpty rfl hempty hingress) <|
    Tag.read_text <|
    Tag.read_cons (Tag.read_of hsteps) rfl

lemma reads_replacement (replacement : Replacement) :
    (Format.record replacementTags).Reads ⟨[], [], [], []⟩ replacement := by
  have hempty : replacement.sourceVersion.isEmpty → replacement.sourceVersion = [] :=
    List.isEmpty_iff.mp
  exact Format.record_reads (by decide) <|
    Tag.read_text <|
    Tag.read_text <|
    Tag.read_text <|
    Tag.read_cons (Tag.read_omitEmpty rfl hempty (Format.text_reads _ _)) rfl

lemma reads_archive {archive : Archive} (hschema : archive.schemaVersion = 1)
    (h : archive.journal.Versioned) : (Format.record archiveTags).Reads zeroArchive archive :=
  Format.record_reads (by decide) <|
    Tag.read_cons (Tag.read_of (reads_version hschema (by decide))) <|
    Tag.read_text <|
    Tag.read_cons (Tag.read_of (reads_replacement _)) <|
    Tag.read_cons (Tag.read_of (reads_record h)) rfl

end JournalV2

lemma JournalRecord.Valid.versioned {journal : JournalRecord} (h : journal.Valid) :
    (journalRecordToV2 journal).Versioned := by
  refine ⟨h.schema, forall_ingress_toV2 fun source hsome => (h.ingress source hsome).1, ?_⟩
  exact forall_steps_toV2 fun step hstep => forall_evidence_toV2 (h.steps step hstep) fun _ hvalid =>
    hvalid.schema

/-! ### Well-formed texts -/

section Plain

lemma valid_token {kind : String} (hkind : (str kind).all (· < 0x80)) {value : PlanToken}
    (h : validToken kind value) : valid value := by
  obtain ⟨fingerprint, hfingerprint, rfl⟩ := validToken_eq h
  have hhex : Ascii fingerprint :=
    ascii_of_all (fun b => isHex_ascii) (Bool.and_eq_true_iff.mp hfingerprint).2
  exact (Ascii.append (ascii_of_all (fun b hb => of_decide_eq_true hb) hkind) hhex).valid

lemma valid_named {α : Type} [Named α] {x : Open α} (hknown : x.isKnown)
    (h : ∀ a ∈ (Named.members : List α), valid (Named.name a)) : valid x.text := by
  obtain ⟨a, ha, htext⟩ := Open.isKnown_iff.mp hknown
  rw [htext]
  exact h a ha

lemma plain_goal {goal : Goal} (h : goal.Valid) :
    Json.Plain (Json.object JournalV2.goalTags (goalToJournalV2 goal)) := by
  have hfields : ∀ tag ∈ JournalV2.goalTags, tag.Plain (goalToJournalV2 goal) := by
    simp only [JournalV2.goalTags, List.forall_mem_cons, List.not_mem_nil, false_imp_iff,
      implies_true, and_true]
    exact ⟨Tag.plain_of (valid_of_safeID h.1), Tag.plain_of (valid_named h.2 (by decide))⟩
  exact Json.plain_object (by decide) hfields

lemma plain_pair {pair : ReleasePair} (h : pair.Valid) :
    Json.Plain (Json.object JournalV2.pairTags (releasePairToJournalV2 pair)) := by
  have hfields : ∀ tag ∈ JournalV2.pairTags, tag.Plain (releasePairToJournalV2 pair) := by
    simp only [JournalV2.pairTags, List.forall_mem_cons, List.not_mem_nil, false_imp_iff,
      implies_true, and_true]
    exact ⟨Tag.plain_of (valid_of_safeID h.1),
      Tag.plain_omitEmpty (Json.Format.plain_pointer fun p hp => valid_of_safeID (h.2.2 p hp).1),
      Tag.plain_of (valid_of_safeID h.2.1)⟩
  exact Json.plain_object (by decide) hfields

lemma plain_evidence {evidence : EvidenceRecord} (h : evidence.Valid) :
    Json.Plain (Json.object JournalV2.evidenceTags (evidenceToJournalV2 evidence)) := by
  have hfields : ∀ tag ∈ JournalV2.evidenceTags, tag.Plain (evidenceToJournalV2 evidence) := by
    simp only [JournalV2.evidenceTags, List.forall_mem_cons, List.not_mem_nil, false_imp_iff,
      implies_true, and_true]
    have hknown : evidence.checkpoint.isKnown := by
      rcases h.observed with ⟨hknown, _⟩ | ⟨hknown | hknown, _⟩ <;> rw [hknown] <;> rfl
    have hrecovery : valid evidence.recovery := by
      rcases h.recovery with hnil | hvalid
      · rw [hnil]
        rfl
      · exact valid_of_validFingerprint hvalid
    exact ⟨Tag.plain_of trivial, Tag.plain_of (valid_of_safeID h.transaction),
      Tag.plain_of (plain_pair h.releases), Tag.plain_of (valid_of_safeID h.step),
      Tag.plain_of (valid_of_validFingerprint h.expected),
      Tag.plain_of (valid_of_validFingerprint h.desired),
      Tag.plain_of (valid_of_validFingerprint h.fingerprint), Tag.plain_omitEmpty hrecovery,
      Tag.plain_of (valid_named hknown (by decide))⟩
  exact Json.plain_object (by decide) hfields

lemma plain_step {journal : JournalRecord} {step : JournalStep} (h : journal.ValidStep step) :
    Json.Plain (Json.object JournalV2.stepTags (journalStepToV2 step)) := by
  obtain ⟨checkpoint, hcheckpoint, _⟩ := h.evidenced
  have hfields : ∀ tag ∈ JournalV2.stepTags, tag.Plain (journalStepToV2 step) := by
    simp only [JournalV2.stepTags, List.forall_mem_cons, List.not_mem_nil, false_imp_iff,
      implies_true, and_true]
    have hknown : step.checkpoint.isKnown := by
      rw [hcheckpoint]
      rfl
    have hevidence : ∀ wire ∈ (journalStepToV2 step).evidence,
        Json.Plain (Json.object JournalV2.evidenceTags wire) :=
      forall_evidence_toV2 h fun _ => plain_evidence
    exact ⟨Tag.plain_of (valid_of_safeID h.id), Tag.plain_of (valid_of_safeID h.migration),
      Tag.plain_of (valid_of_safeID h.resource),
      Tag.plain_of (valid_named h.decision.1 (by decide)),
      Tag.plain_of (valid_of_validFingerprint h.expected),
      Tag.plain_of (valid_of_validFingerprint h.desired),
      Tag.plain_of (valid_named hknown (by decide)),
      Tag.plain_omitEmpty (Json.Format.plain_pointer hevidence)⟩
  exact Json.plain_object (by decide) hfields

end Plain

variable {payload path : Bytes} {record : SupersededJournalRecord}

/-! ### What is read back -/

/-- The paths of a journal are texts in UTF-8. -/
def JournalRecord.Utf8 (journal : JournalRecord) : Prop :=
  ∀ source ∈ journal.sourceIngress, ∀ path ∈ source.paths, valid path

/-- The source that is read where this one was written: octets that start no character are
replaced. -/
def SourceIngressRequest.readBack (source : SourceIngressRequest) : SourceIngressRequest :=
  { source with
    sourceRoot := coerce source.sourceRoot
    dataHome := coerce source.dataHome
    binDir := coerce source.binDir
    rc := coerce source.rc
    loginRC := coerce source.loginRC }

/-- The journal that is read where this one was written. -/
def JournalRecord.readBack (journal : JournalRecord) : JournalRecord :=
  { journal with sourceIngress := journal.sourceIngress.map (·.readBack) }

lemma JournalRecord.Utf8.readBack_eq {journal : JournalRecord} (h : journal.Utf8) :
    journal.readBack = journal := by
  rw [JournalRecord.readBack]
  cases hsource : journal.sourceIngress with
  | none => rw [Option.map_none, ← hsource]
  | some source =>
    have hpaths := h source hsource
    simp only [SourceIngressRequest.paths, List.forall_mem_cons, List.not_mem_nil] at hpaths
    obtain ⟨hroot, hdata, hbin, hrc, hlogin, -⟩ := hpaths
    have hsame : source.readBack = source := by
      rw [SourceIngressRequest.readBack, coerce_of_valid hroot, coerce_of_valid hdata,
        coerce_of_valid hbin, coerce_of_valid hrc, coerce_of_valid hlogin]
    rw [Option.map_some, hsame, ← hsource]

/-- What a record is written as is read as another one. -/
def Coerces {α : Type} (tags : List (Tag α)) (record read : α) : Prop :=
  Json.Whole (Json.object tags record) ∧ (Json.object tags record).coerced = Json.object tags read

lemma sourceIngressFrom_to (source : SourceIngressRequest) :
    sourceIngressFromJournalV2 (sourceIngressToJournalV2 source) = source := by
  rw [sourceIngressFromJournalV2, sourceIngressToJournalV2, Open.ofText_text]

lemma coerces_ingress {source : SourceIngressRequest} (h : source.Valid) :
    Coerces JournalV2.ingressTags (sourceIngressToJournalV2 source)
      (sourceIngressToJournalV2 source.readBack) := by
  have hkind : source.kind.isKnown := by
    rw [h.2.1]
    rfl
  have hfields : ∀ tag ∈ JournalV2.ingressTags,
      tag.Coerces (sourceIngressToJournalV2 source) (sourceIngressToJournalV2 source.readBack) := by
    simp only [JournalV2.ingressTags, List.forall_mem_cons, List.not_mem_nil, false_imp_iff,
      implies_true, and_true]
    exact ⟨Tag.coerces_of trivial rfl, .of_plain (Tag.plain_of (valid_named hkind (by decide))) rfl,
      Tag.coerces_of trivial rfl, Tag.coerces_of trivial rfl, Tag.coerces_of trivial rfl,
      Tag.coerces_of trivial rfl, Tag.coerces_of trivial rfl⟩
  exact Json.coerced_object (by decide) hfields

/-- Of a valid journal nothing but the paths is read otherwise. -/
lemma coerces_journal {journal : JournalRecord} (h : journal.Valid) :
    Coerces JournalV2.recordTags (journalRecordToV2 journal)
      (journalRecordToV2 journal.readBack) := by
  have hsteps : ∀ wires ∈ (journalRecordToV2 journal).steps, ∀ wire ∈ wires,
      Json.Plain (Json.object JournalV2.stepTags wire) :=
    forall_steps_toV2 fun step hstep => plain_step (h.steps step hstep)
  have hsource : ∀ wire ∈ (journalRecordToV2 journal).sourceIngress, ∃ source,
      source.Valid ∧ wire = sourceIngressToJournalV2 source :=
    forall_ingress_toV2 fun source hsome => ⟨source, h.ingress source hsome, rfl⟩
  have hread : (journalRecordToV2 journal.readBack).sourceIngress
      = (journalRecordToV2 journal).sourceIngress.map fun wire =>
        sourceIngressToJournalV2 (sourceIngressFromJournalV2 wire).readBack := by
    show (journal.sourceIngress.map _).map sourceIngressToJournalV2 = _
    cases hsome : journal.sourceIngress with
    | none => simp [journalRecordToV2, hsome]
    | some source =>
      simp only [journalRecordToV2, hsome, Option.map_some, sourceIngressFrom_to]
  have hfields : ∀ tag ∈ JournalV2.recordTags,
      tag.Coerces (journalRecordToV2 journal) (journalRecordToV2 journal.readBack) := by
    simp only [JournalV2.recordTags, List.forall_mem_cons, List.not_mem_nil, false_imp_iff,
      implies_true, and_true]
    refine ⟨Tag.coerces_of trivial rfl, .of_plain (Tag.plain_of (valid_of_safeID h.transaction)) rfl,
      .of_plain (Tag.plain_of (plain_goal h.goal)) rfl,
      .of_plain (Tag.plain_of (plain_pair h.releases)) rfl,
      .of_plain (Tag.plain_of (valid_token (by decide) h.authorizationPlan)) rfl,
      .of_plain (Tag.plain_of (valid_token (by decide) h.resumePlan)) rfl,
      .of_plain (Tag.plain_of (valid_of_validFingerprint h.artifact)) rfl,
      .of_plain (Tag.plain_of (valid_of_validFingerprint h.registry)) rfl,
      .of_plain (Tag.plain_of (valid_of_validFingerprint h.catalog)) rfl,
      .of_plain (Tag.plain_of (valid_of_validFingerprint h.scope)) rfl,
      .of_plain (Tag.plain_of (valid_of_validFingerprint h.authorization)) rfl,
      .of_plain (Tag.plain_of (valid_of_validFingerprint h.intent)) rfl,
      Tag.coerces_pointer hread (fun wire hwire => ?_) fun wire hwire => ?_,
      .of_plain (Tag.plain_of (valid_named h.checkpoint (by decide))) rfl,
      .of_plain (Tag.plain_of (Json.Format.plain_slice hsteps)) rfl⟩
    · obtain ⟨source, hvalid, rfl⟩ := hsource wire hwire
      exact (coerces_ingress hvalid).1
    · obtain ⟨source, hvalid, rfl⟩ := hsource wire hwire
      rw [sourceIngressFrom_to]
      exact (coerces_ingress hvalid).2
  exact Json.coerced_object (by decide) hfields

lemma coerces_archive (h : record.Valid) :
    Coerces JournalV2.archiveTags (supersededJournalToV1 record)
      (supersededJournalToV1 { record with journal := record.journal.readBack }) := by
  have hreplacement : ∀ tag ∈ JournalV2.replacementTags,
      tag.Plain (supersededJournalToV1 record).replacement := by
    simp only [JournalV2.replacementTags, List.forall_mem_cons, List.not_mem_nil, false_imp_iff,
      implies_true, and_true]
    have hknown : record.replacement.reason.isKnown := by
      rw [h.reason]
      rfl
    exact ⟨Tag.plain_of (valid_of_safeID h.safe), Tag.plain_of (valid_of_validFingerprint h.digest),
      Tag.plain_of (valid_named hknown (by decide)),
      Tag.plain_omitEmpty (JournalV2.valid_of_validCanonicalSemver h.version)⟩
  have hjournal := coerces_journal h.journal
  have hfields : ∀ tag ∈ JournalV2.archiveTags, tag.Coerces (supersededJournalToV1 record)
      (supersededJournalToV1 { record with journal := record.journal.readBack }) := by
    simp only [JournalV2.archiveTags, List.forall_mem_cons, List.not_mem_nil, false_imp_iff,
      implies_true, and_true]
    exact ⟨Tag.coerces_of trivial rfl,
      .of_plain (Tag.plain_of (valid_token (by decide) h.authorizationPlan)) rfl,
      .of_plain (Tag.plain_of (Json.plain_object (by decide) hreplacement)) rfl,
      Tag.coerces_of hjournal.1 hjournal.2⟩
  exact Json.coerced_object (by decide) hfields

/-! ### Round trips -/

/-- A text within the bound is decoded as the record that is read of it. -/
lemma decodeStrict_text {α : Type} {tags : List (Tag α)} {zero record read : α}
    {size malformed : String} (hcoerces : Coerces tags record read)
    (hsize : (Json.render (Json.object tags record)).length < JournalV2.maxBytes)
    (hreads : (Json.Format.record tags).Reads zero read) :
    JournalV2.decodeStrict tags zero size malformed (Json.render (Json.object tags record) ++ [10])
      = .ok read := by
  have hparse : Json.parse (Json.render (Json.object tags record) ++ [10])
      = some (Json.object tags read) := by
    rw [Json.parse_render_coerced hcoerces.1 (by decide), hcoerces.2]
  have hread : (Json.Format.record tags).decode zero (Json.object tags read) = some read := hreads
  rw [JournalV2.decodeStrict, refuse_bind, hparse, Option.bind_some, hread]
  refine ⟨?_, rfl⟩
  rw [List.length_append, List.length_singleton]
  omega

/-- A text that is decoded as a valid journal is read as it. -/
lemma parseJournal_of_decode {record : JournalRecord}
    (hdecode : JournalV2.decodeStrict JournalV2.recordTags JournalV2.zeroRecord
      "record size is outside the allowed bound" "decode" payload = .ok (journalRecordToV2 record))
    (hvalid : record.Valid) : parseJournal payload = .ok record := by
  rw [parseJournal, JournalV2.decode, hdecode]
  show Except.mapError _ ((journalRecordToV2 record).validate >>= fun _ => .ok _) >>= _ = _
  rw [JournalV2.validate_toV2.mpr hvalid]
  exact congrArg Except.ok (journalRecordFrom_to record)

lemma decode_marshal_journal {record : JournalRecord} (h : marshalJournal record = .ok payload) :
    JournalV2.decodeStrict JournalV2.recordTags JournalV2.zeroRecord
      "record size is outside the allowed bound" "decode" payload
        = .ok (journalRecordToV2 record.readBack) := by
  obtain ⟨hvalid, rfl⟩ := marshalJournal_ok.mp h
  have hsize := (length_journal hvalid).trans_lt (show 620905 < JournalV2.maxBytes by decide)
  have hversioned : (journalRecordToV2 record.readBack).Versioned := by
    refine ⟨hvalid.schema, forall_ingress_toV2 fun source hsome => ?_, hvalid.versioned.evidence⟩
    obtain ⟨written, hwritten, rfl⟩ := Option.map_eq_some_iff.mp hsome
    exact (hvalid.ingress written hwritten).1
  exact decodeStrict_text (coerces_journal hvalid) hsize (JournalV2.reads_record hversioned)

/-- **A journal is read back from its text.** -/
theorem parse_marshal_journal {record : JournalRecord} (h : marshalJournal record = .ok payload)
    (hpaths : record.Utf8) : parseJournal payload = .ok record := by
  have hdecode := decode_marshal_journal h
  rw [hpaths.readBack_eq] at hdecode
  exact parseJournal_of_decode hdecode (marshalJournal_ok.mp h).1

/-- **So is the archive of one.** -/
theorem parse_marshal_superseded (h : marshalSupersededJournal record = .ok payload)
    (hpaths : record.journal.Utf8) (hversion : record.replacement.sourceVersion.length ≤ 2 ^ 18) :
    parseSupersededJournal payload = .ok record := by
  obtain ⟨hvalid, rfl⟩ := marshalSupersededJournal_ok.mp h
  have hsize := (length_archive hvalid hversion).trans_lt (show 883541 < JournalV2.maxBytes by decide)
  have hcoerces := coerces_archive hvalid
  rw [hpaths.readBack_eq] at hcoerces
  have hreads : (Json.Format.record JournalV2.archiveTags).Reads JournalV2.zeroArchive
      (supersededJournalToV1 record) :=
    JournalV2.reads_archive hvalid.schema hvalid.journal.versioned
  rw [parseSupersededJournal, JournalV2.decodeArchive,
    decodeStrict_text hcoerces hsize hreads]
  show Except.mapError _ ((supersededJournalToV1 record).validate >>= fun _ => .ok _) >>= _ = _
  rw [validate_archive.mpr hvalid]
  exact congrArg Except.ok (supersededFrom_to record)

/-- **The live and the frozen checks agree**: a journal that is accepted is written, within the
bound of a protected record, and one that is read is accepted. -/
theorem validators_agree (record : JournalRecord) :
    (record.validate = .ok () ↔ (journalRecordToV2 record).validate = .ok ())
      ∧ (record.validate = .ok () ↔ ∃ payload, marshalJournal record = .ok payload
        ∧ validateProtectedPayload payload = .ok ())
      ∧ ∀ payload, parseJournal payload = .ok record → record.validate = .ok () := by
  refine ⟨by rw [JournalRecord.validate_ok, JournalV2.validate_toV2], ?_, fun payload h => ?_⟩
  · rw [JournalRecord.validate_ok]
    refine ⟨fun hvalid => ⟨_, marshalJournal_ok.mpr ⟨hvalid, rfl⟩, ?_⟩, fun ⟨payload, h, _⟩ =>
      (marshalJournal_ok.mp h).1⟩
    have hsize := (length_journal hvalid).trans_lt (show 620905 < maxProtectedRecordBytes by decide)
    rw [validateProtectedPayload, refuse_eq_ok, List.length_append, List.length_singleton]
    simp only [List.append_eq_nil_iff, List.cons_ne_self, and_false, false_or]
    omega
  · exact JournalRecord.validate_ok.mpr (parseJournal_ok h)

/-- A journal without steps whose source has one path in every role. -/
def ingressJournal (path : Bytes) : JournalRecord :=
  let digest : Fingerprint := List.replicate 64 97
  { schemaVersion := 2
    transaction := str "t"
    goal := ⟨str "b", .known .activateTarget⟩
    releases := ⟨str "a", none, str "b"⟩
    authorizationPlan := str "plan-v1-" ++ digest
    resumePlan := str "resume-v1-" ++ digest
    artifactDigest := digest
    registryDigest := digest
    catalogDigest := digest
    observationScope := digest
    authorizationDigest := digest
    intentDigest := str "dc5a25cd7225ae5858dbfe80e343c7961616b8945f0889d80d04d37390165c19"
    sourceIngress := some ⟨1, .known .preGoV1, path, path, path, path, path⟩
    checkpoint := .known .authorized
    steps := some [] }

/-- The text of that journal. -/
def ingressText (path : Bytes) : Bytes :=
  Json.render (Json.object JournalV2.recordTags (journalRecordToV2 (ingressJournal path))) ++ [10]

/-- The archive of that journal with a version. -/
def ingressArchive (path version : Bytes) : SupersededJournalRecord where
  schemaVersion := 1
  authorizationPlan := str "plan-v1-" ++ List.replicate 64 97
  replacement := ⟨str "t", fingerprintPayload (ingressText path), .known .postActivationScopeV0111,
    version⟩
  journal := ingressJournal path

lemma ingressJournal_utf8 (h : valid path) : (ingressJournal path).Utf8 := by
  intro source hsource text htext
  cases hsource
  simp only [SourceIngressRequest.paths, List.mem_cons, List.not_mem_nil, or_false, or_self] at htext
  rw [htext]
  exact h

set_option maxRecDepth 100000 in
lemma ingressJournal_valid (h : validRolePath path) : (ingressJournal path).Valid where
  schema := rfl
  transaction := show safeID (str "t") by decide
  goal := show safeID (str "b") ∧ _ from ⟨by decide, rfl⟩
  releases := show safeID (str "a") ∧ safeID (str "b") ∧ _ from ⟨by decide, by decide, nofun⟩
  target := rfl
  authorizationPlan := show validToken "plan-v1-" (str "plan-v1-" ++ List.replicate 64 97) by decide
  resumePlan := show validToken "resume-v1-" (str "resume-v1-" ++ List.replicate 64 97) by decide
  independent := show str "plan-v1-" ++ List.replicate 64 97
    ≠ str "resume-v1-" ++ List.replicate 64 97 by decide
  artifact := show validFingerprint (List.replicate 64 97) by decide
  registry := show validFingerprint (List.replicate 64 97) by decide
  catalog := show validFingerprint (List.replicate 64 97) by decide
  scope := show validFingerprint (List.replicate 64 97) by decide
  authorization := show validFingerprint (List.replicate 64 97) by decide
  ingress := by
    intro source hsource
    cases hsource
    refine ⟨rfl, rfl, fun text htext => ?_⟩
    simp only [SourceIngressRequest.paths, List.mem_cons, List.not_mem_nil, or_false, or_self]
      at htext
    rw [htext]
    exact h
  checkpoint := rfl
  bounded := Nat.zero_le _
  steps := nofun
  distinct := List.nodup_nil
  intent := show validFingerprint (str _) by decide
  bound := show str "dc5a25cd7225ae5858dbfe80e343c7961616b8945f0889d80d04d37390165c19"
    = bindJournalIntent (str "plan-v1-" ++ List.replicate 64 97)
      (str "resume-v1-" ++ List.replicate 64 97) (List.replicate 64 97) [] by decide +kernel

lemma marshal_ingressJournal (h : validRolePath path) :
    marshalJournal (ingressJournal path) = .ok (ingressText path) :=
  marshalJournal_ok.mpr ⟨ingressJournal_valid h, rfl⟩

lemma ingressArchive_valid {version : Bytes} (h : validRolePath path)
    (hversion : JournalV2.validCanonicalSemver version) : (ingressArchive path version).Valid where
  schema := rfl
  authorizationPlan := show validToken "plan-v1-" (str "plan-v1-" ++ List.replicate 64 97) by decide
  safe := show safeID (str "t") by decide
  digest := validFingerprint_fingerprintPayload _
  reason := rfl
  version := hversion
  journal := ingressJournal_valid h
  transaction := rfl
  fingerprint := rfl

/-- A version with build metadata of any length. -/
lemma validCanonicalSemver_long (n : ℕ) :
    JournalV2.validCanonicalSemver (str "1.0.0+" ++ List.replicate (n + 1) 97) := by
  have hbuild : JournalV2.areIdentifiers (List.replicate (n + 1) 97) := by
    have hsplit : (List.replicate (n + 1) (97 : UInt8)).splitOn 46 = [List.replicate (n + 1) 97] :=
      List.splitOnP_eq_singleton fun b hb => by rw [List.eq_of_mem_replicate hb]; rfl
    have hchar : JournalV2.isIdentifierChar 97 := by decide
    rw [JournalV2.areIdentifiers, hsplit]
    simp [List.all_replicate, hchar]
  have hcut : JournalV2.cut 43 (str "1.0.0+" ++ List.replicate (n + 1) 97)
      = (str "1.0.0", some (List.replicate (n + 1) 97)) := rfl
  have hmatch : JournalV2.semverMatch (str "1.0.0+" ++ List.replicate (n + 1) 97)
      = some ([str "1", str "0", str "0"], []) := by
    rw [JournalV2.semverMatch, hcut]
    exact if_pos ⟨by decide, by decide, by decide, hbuild⟩
  rw [JournalV2.validCanonicalSemver, hmatch]
  decide

/-- The text of an archive is at least as long as the version it names. -/
lemma length_le_archive (h : JournalV2.validCanonicalSemver record.replacement.sourceVersion) :
    record.replacement.sourceVersion.length
      ≤ (Json.render (Json.object JournalV2.archiveTags (supersededJournalToV1 record))).length := by
  have hne : ¬ record.replacement.sourceVersion.isEmpty := by
    intro hempty
    rw [List.isEmpty_iff.mp hempty] at h
    exact absurd h (by decide)
  have hsize : Tag.size (supersededJournalToV1 record).replacement JournalV2.replacementTags[3]
      = (Json.quote record.replacement.sourceVersion).length := Tag.size_omitEmpty_eq hne
  have hinner : Tag.size (supersededJournalToV1 record).replacement JournalV2.replacementTags[3]
      ≤ (Json.render (Json.object JournalV2.replacementTags
        (supersededJournalToV1 record).replacement)).length :=
    Json.length_le_object (List.getElem_mem _) _
  have houter : (Json.render (Json.object JournalV2.replacementTags
      (supersededJournalToV1 record).replacement)).length
        ≤ (Json.render (Json.object JournalV2.archiveTags (supersededJournalToV1 record))).length :=
    show Tag.size (supersededJournalToV1 record) JournalV2.archiveTags[2] ≤ _ from
      Json.length_le_object (List.getElem_mem _) _
  rw [hsize, JournalV2.length_version_text h] at hinner
  omega

end Subyard.Release
