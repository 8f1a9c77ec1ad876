import Subyard.Library.Path
import Subyard.Library.Struct
import Subyard.Release.Basic

/-!
The frozen durable contract of schema 2: the journal of a transition and the archive of one that
was superseded, with plain texts for fields, validators of their own and their JSON.

* `Record.validate`, `Archive.validate`: the checks, with their errors.
* `decode`, `encode`, `decodeArchive`, `encodeArchive`: the strict bounded codec.
* `validCanonicalSemver`: the versions an archive may name.
-/

namespace Subyard.Release.JournalV2

open Text Fallible

/-- `MaxBytes`. -/
def maxBytes : ℕ := 2 ^ 20

/-! ### Records -/

structure Goal where
  target : Bytes
  direction : Bytes
deriving DecidableEq, Repr

structure ReleasePair where
  from' : Bytes
  previous : Option Bytes
  target : Bytes
deriving DecidableEq, Repr

structure SourceIngress where
  schemaVersion : ℤ
  kind : Bytes
  sourceRoot : Bytes
  dataHome : Bytes
  binDir : Bytes
  rc : Bytes
  loginRC : Bytes
deriving DecidableEq, Repr

structure Evidence where
  schemaVersion : ℤ
  transaction : Bytes
  releases : ReleasePair
  step : Bytes
  expected : Bytes
  desired : Bytes
  observed : Bytes
  recovery : Bytes
  checkpoint : Bytes
deriving DecidableEq, Repr

structure Step where
  id : Bytes
  migration : Bytes
  resource : Bytes
  decision : Bytes
  expected : Bytes
  desired : Bytes
  checkpoint : Bytes
  evidence : Option Evidence
deriving DecidableEq, Repr

structure Record where
  schemaVersion : ℤ
  transaction : Bytes
  goal : Goal
  releases : ReleasePair
  authorizationPlan : Bytes
  resumePlan : Bytes
  artifactDigest : Bytes
  registryDigest : Bytes
  catalogDigest : Bytes
  observationScope : Bytes
  authorizationDigest : Bytes
  intentDigest : Bytes
  sourceIngress : Option SourceIngress
  checkpoint : Bytes
  steps : Option (List Step)
deriving DecidableEq, Repr

structure Replacement where
  transaction : Bytes
  fingerprint : Bytes
  reason : Bytes
  sourceVersion : Bytes
deriving DecidableEq, Repr

structure Archive where
  schemaVersion : ℤ
  authorizationPlan : Bytes
  replacement : Replacement
  journal : Record
deriving DecidableEq, Repr

/-! ### Checks of texts -/

def invalid (message : Bytes) : Bytes := str "invalid release transition journal v2: " ++ message

def validFingerprint (value : Bytes) : Bool :=
  value.length = 64 && value.all fun b => (48 ≤ b && b ≤ 57) || (97 ≤ b && b ≤ 102)

def validateSafeID (value : Bytes) (field : String) : Except Bytes Unit := do
  refuse (value.length = 0 ∨ value.length > 128 ∨ value = str "." ∨ value = str ".."
      ∨ value.head? = some 45)
    (invalid (str field ++ str " is invalid"))
  refuse (¬ value.all fun b =>
      (97 ≤ b && b ≤ 122) || (65 ≤ b && b ≤ 90) || (48 ≤ b && b ≤ 57) || b = 46 || b = 95 || b = 45)
    (invalid (str field ++ str " is invalid"))

def validToken (value : Bytes) (kind : String) : Bool :=
  (str kind).isPrefixOf value && validFingerprint (value.drop (str kind).length)

def validJournalCheckpoint (value : Bytes) : Bool :=
  value ∈ [str "authorized", str "migrating", str "activation-intent", str "target-active",
    str "reconciling", str "complete"]

def validStepCheckpoint (value : Bytes) : Bool :=
  value = str "intent" || value = str "evidence" || value = str "applied" || value = str "verified"

def journalAfterMigrations (value : Bytes) : Bool :=
  value = str "activation-intent" || value = str "target-active" || value = str "reconciling"
    || value = str "complete"

/-! ### Semantic versions -/

/-- The text before the first `separator`, and the text after it if there is one. -/
def cut (separator : UInt8) (value : Bytes) : Bytes × Option Bytes :=
  match value.dropWhile (· ≠ separator) with
  | [] => (value, none)
  | _ :: rest => (value.takeWhile (· ≠ separator), some rest)

/-- `0|[1-9][0-9]*`. -/
def isNumericComponent (component : Bytes) : Bool :=
  component ≠ [] && component.all isDigit && (component = [48] || component.head? ≠ some 48)

def isIdentifierChar (b : UInt8) : Bool := isDigit b || isUpper b || isLower b || b = 45

/-- Identifiers of letters, digits and hyphens with dots between them. -/
def areIdentifiers (text : Bytes) : Bool :=
  (text.splitOn 46).all fun identifier => identifier ≠ [] && identifier.all isIdentifierChar

/-- The submatches of `semverRE`: the three components and the pre-release, which is empty if there
is none.  A plus or a hyphen that the expression can use as separator is the first one. -/
def semverMatch (value : Bytes) : Option (List Bytes × Bytes) :=
  let (front, build) := cut 43 value
  let (core, preRelease) := cut 45 front
  let components := core.splitOn 46
  if components.length = 3 ∧ components.all isNumericComponent ∧ preRelease.all areIdentifiers
      ∧ build.all areIdentifiers then
    some (components, preRelease.getD [])
  else none

/-- What is asked of an identifier of a pre-release that is a number. -/
def validIdentifier (identifier : Bytes) : Bool :=
  if identifier.all isDigit then
    ¬ (identifier.length > 1 ∧ identifier.head? = some 48) && (parseUint identifier).isSome
  else true

def validCanonicalSemver (value : Bytes) : Bool :=
  match semverMatch value with
  | none => false
  | some (components, preRelease) =>
      components.all (fun component => (parseUint component).isSome)
        && (preRelease = [] || (preRelease.splitOn 46).all validIdentifier)

example : validCanonicalSemver (str "0.11.1-rc.1+build-7") = true := by decide

example : validCanonicalSemver (str "1.2.3-01") = false := by decide

/-! ### Checks of records -/

def Goal.validate (goal : Goal) : Except Bytes Unit := do
  validateSafeID goal.target "target release"
  refuse (goal.direction ≠ str "activate-target" ∧ goal.direction ≠ str "activate-previous")
    (invalid (str "unknown direction " ++ History.quoted goal.direction))

/-- The check of the optional release of a pair. -/
def ReleasePair.checkPrevious (pair : ReleasePair) : Except Bytes Unit :=
  match pair.previous with
  | none => .ok ()
  | some previous => do
      validateSafeID previous "previous release"
      refuse (previous = pair.from') (invalid (str "previous release equals source release"))

def ReleasePair.validate (pair : ReleasePair) : Except Bytes Unit := do
  validateSafeID pair.from' "source release"
  validateSafeID pair.target "target release"
  pair.checkPrevious

/-- The check of one path of a source ingress. -/
def validatePath (value : Bytes) (field : String) : Except Bytes Unit :=
  refuse (value.length = 0 ∨ value.length > 4096 ∨ ¬ Path.isAbs value ∨ value = [47]
      ∨ Path.clean value ≠ value ∨ Path.containsControl value)
    (invalid (str field ++ str " is invalid"))

def SourceIngress.validate (source : SourceIngress) : Except Bytes Unit := do
  refuse (source.schemaVersion ≠ 1 ∨ source.kind ≠ str "pre-go-source-v1")
    (invalid (str "unknown source ingress schema or kind"))
  validatePath source.sourceRoot "source root"
  validatePath source.dataHome "data home"
  validatePath source.binDir "bin dir"
  validatePath source.rc "rc"
  validatePath source.loginRC "login rc"

/-- The check of the fingerprint of what was seen. -/
def Evidence.checkObserved (evidence : Evidence) : Except Bytes Unit :=
  if evidence.checkpoint = str "captured" then
    refuse (evidence.observed ≠ evidence.expected)
      (invalid (str "captured evidence does not match expected state"))
  else if evidence.checkpoint = str "applied" ∨ evidence.checkpoint = str "verified" then
    refuse (evidence.observed ≠ evidence.desired)
      (invalid (str "post-apply evidence does not match desired state"))
  else
    .error (invalid (str "unknown evidence checkpoint " ++ History.quoted evidence.checkpoint))

def Evidence.validate (evidence : Evidence) : Except Bytes Unit := do
  refuse (evidence.schemaVersion ≠ 2)
    (invalid (str "unsupported evidence schema " ++ Json.number evidence.schemaVersion))
  validateSafeID evidence.transaction "evidence transaction ID"
  evidence.releases.validate
  validateSafeID evidence.step "evidence step ID"
  refuse (¬ validFingerprint evidence.expected ∨ ¬ validFingerprint evidence.desired
      ∨ ¬ validFingerprint evidence.observed)
    (invalid (str "evidence fingerprints are invalid"))
  refuse (evidence.recovery ≠ [] ∧ ¬ validFingerprint evidence.recovery)
    (invalid (str "recovery fingerprint is invalid"))
  evidence.checkObserved

def releasePairsEqual (left right : ReleasePair) : Bool :=
  if left.from' ≠ right.from' ∨ left.target ≠ right.target then false
  else
    match left.previous, right.previous with
    | some l, some r => l = r
    | l, r => l.isNone && r.isNone

/-- The checkpoint of the evidence of a step at a checkpoint. -/
def wantedEvidence (checkpoint : Bytes) : Bytes :=
  if checkpoint = str "evidence" then str "captured"
  else if checkpoint = str "applied" then str "applied"
  else if checkpoint = str "verified" then str "verified"
  else []

/-- The check of the evidence of a step that has gone on from its intent. -/
def Evidence.validateFor (evidence : Evidence) (step : Step) (journal : Record) :
    Except Bytes Unit := do
  evidence.validate
  refuse (evidence.transaction ≠ journal.transaction
      ∨ ¬ releasePairsEqual evidence.releases journal.releases ∨ evidence.step ≠ step.id
      ∨ evidence.expected ≠ step.expected ∨ evidence.desired ≠ step.desired)
    (invalid (str "step evidence does not match journal intent"))
  refuse (evidence.checkpoint ≠ wantedEvidence step.checkpoint)
    (invalid (str "evidence checkpoint does not match step checkpoint"))

/-- The check of the evidence of a step. -/
def Step.checkEvidence (step : Step) (journal : Record) : Except Bytes Unit :=
  if step.checkpoint = str "intent" then
    refuse step.evidence.isSome (invalid (str "intent step has premature evidence"))
  else
    match step.evidence with
    | none => .error (invalid (str "step is missing evidence"))
    | some evidence => evidence.validateFor step journal

/-- The check of a step; `seen` are the ids of those before. -/
def Step.validate (step : Step) (journal : Record) (seen : List Bytes) : Except Bytes Unit := do
  validateSafeID step.id "step ID"
  refuse (step.id ∈ seen) (invalid (str "duplicate step " ++ History.quoted step.id))
  validateSafeID step.migration "migration ID"
  validateSafeID step.resource "resource ID"
  refuse (step.decision ∉ [str "preserve", str "transform", str "canonicalize", str "reset",
      str "quarantine"])
    (invalid (str "unknown step decision " ++ History.quoted step.decision))
  refuse (¬ validFingerprint step.expected ∨ ¬ validFingerprint step.desired)
    (invalid (str "step fingerprints are invalid"))
  refuse (¬ validStepCheckpoint step.checkpoint)
    (invalid (str "unknown step checkpoint " ++ History.quoted step.checkpoint))
  step.checkEvidence journal
  refuse (journalAfterMigrations journal.checkpoint ∧ step.checkpoint ≠ str "verified")
    (invalid (str "activation starts before step is verified"))

namespace Record

/-- The steps there are. -/
def stepList (record : Record) : List Step := record.steps.getD []

def bindIntent (record : Record) : Bytes :=
  fingerprintPayload (Json.render (.obj
    [(str "authorizationPlan", .str record.authorizationPlan),
      (str "resumePlan", .str record.resumePlan),
      (str "observationScope", .str record.observationScope),
      (str "steps", .arr (record.stepList.map fun step => .obj
        [(str "id", .str step.id), (str "migration", .str step.migration),
          (str "resource", .str step.resource), (str "decision", .str step.decision),
          (str "expected", .str step.expected), (str "desired", .str step.desired)]))]))

/-- The check of one digest. -/
def checkDigest (field : String) (value : Bytes) : Except Bytes Unit :=
  refuse (¬ validFingerprint value) (invalid (str field ++ str " is invalid"))

/-- The check of the optional source ingress. -/
def checkIngress (record : Record) : Except Bytes Unit :=
  match record.sourceIngress with
  | none => .ok ()
  | some source => source.validate

/-- The loop over the steps. -/
def validateSteps (journal : Record) (seen : List Bytes) : List Step → Except Bytes Unit
  | [] => .ok ()
  | step :: steps => do
      step.validate journal seen
      validateSteps journal (step.id :: seen) steps

/-- `Validate`.  The digests are a map in the source, so that any of those that fail may be the
one that is named. -/
def validate (record : Record) : Except Bytes Unit := do
  refuse (record.schemaVersion ≠ 2)
    (invalid (str "unsupported schema " ++ Json.number record.schemaVersion))
  validateSafeID record.transaction "transaction ID"
  record.goal.validate
  record.releases.validate
  refuse (record.goal.target ≠ record.releases.target)
    (invalid (str "goal does not match release pair"))
  refuse (¬ validToken record.authorizationPlan "plan-v1-")
    (invalid (str "authorization plan is invalid"))
  refuse (¬ validToken record.resumePlan "resume-v1-") (invalid (str "resume plan is invalid"))
  refuse (record.authorizationPlan = record.resumePlan)
    (invalid (str "authorization and resume plans are not independent"))
  checkDigest "artifact digest" record.artifactDigest
  checkDigest "registry digest" record.registryDigest
  checkDigest "catalog digest" record.catalogDigest
  checkDigest "observation scope" record.observationScope
  checkDigest "authorization digest" record.authorizationDigest
  record.checkIngress
  refuse (¬ validJournalCheckpoint record.checkpoint)
    (invalid (str "unknown journal checkpoint " ++ History.quoted record.checkpoint))
  refuse (record.stepList.length > 256) (invalid (str "too many steps"))
  record.validateSteps [] record.stepList
  refuse (¬ validFingerprint record.intentDigest) (invalid (str "intent digest is invalid"))
  refuse (record.intentDigest ≠ record.bindIntent)
    (invalid (str "intent digest does not match journal intent"))

end Record

/-! ### JSON -/

open Json (Tag)

def goalTags : List (Tag Goal) :=
  [.of "target" (·.target) (fun s v => { s with target := v }) .text,
    .of "direction" (·.direction) (fun s v => { s with direction := v }) .text]

def pairTags : List (Tag ReleasePair) :=
  [.of "from" (·.from') (fun s v => { s with from' := v }) .text,
    .omitEmpty "previous" (·.previous) (fun s v => { s with previous := v }) (·.isNone)
      (.pointer [] .text),
    .of "target" (·.target) (fun s v => { s with target := v }) .text]

def ingressTags : List (Tag SourceIngress) :=
  [.of "schemaVersion" (·.schemaVersion) (fun s v => { s with schemaVersion := v }) .int,
    .of "kind" (·.kind) (fun s v => { s with kind := v }) .text,
    .of "sourceRoot" (·.sourceRoot) (fun s v => { s with sourceRoot := v }) .text,
    .of "dataHome" (·.dataHome) (fun s v => { s with dataHome := v }) .text,
    .of "binDir" (·.binDir) (fun s v => { s with binDir := v }) .text,
    .of "rc" (·.rc) (fun s v => { s with rc := v }) .text,
    .of "loginRC" (·.loginRC) (fun s v => { s with loginRC := v }) .text]

def evidenceTags : List (Tag Evidence) :=
  [.of "schemaVersion" (·.schemaVersion) (fun s v => { s with schemaVersion := v }) .int,
    .of "transaction" (·.transaction) (fun s v => { s with transaction := v }) .text,
    .of "releases" (·.releases) (fun s v => { s with releases := v }) (.record pairTags),
    .of "step" (·.step) (fun s v => { s with step := v }) .text,
    .of "expectedFingerprint" (·.expected) (fun s v => { s with expected := v }) .text,
    .of "desiredFingerprint" (·.desired) (fun s v => { s with desired := v }) .text,
    .of "observedFingerprint" (·.observed) (fun s v => { s with observed := v }) .text,
    .omitEmpty "recoveryFingerprint" (·.recovery) (fun s v => { s with recovery := v })
      (·.isEmpty) .text,
    .of "checkpoint" (·.checkpoint) (fun s v => { s with checkpoint := v }) .text]

/-- The zero values of the records. -/
def zeroPair : ReleasePair := ⟨[], none, []⟩

def zeroIngress : SourceIngress := ⟨0, [], [], [], [], [], []⟩

def zeroEvidence : Evidence := ⟨0, [], zeroPair, [], [], [], [], [], []⟩

def zeroStep : Step := ⟨[], [], [], [], [], [], [], none⟩

def zeroRecord : Record :=
  ⟨0, [], ⟨[], []⟩, zeroPair, [], [], [], [], [], [], [], [], none, [], none⟩

def zeroArchive : Archive := ⟨0, [], ⟨[], [], [], []⟩, zeroRecord⟩

def stepTags : List (Tag Step) :=
  [.of "id" (·.id) (fun s v => { s with id := v }) .text,
    .of "migration" (·.migration) (fun s v => { s with migration := v }) .text,
    .of "resource" (·.resource) (fun s v => { s with resource := v }) .text,
    .of "decision" (·.decision) (fun s v => { s with decision := v }) .text,
    .of "expectedFingerprint" (·.expected) (fun s v => { s with expected := v }) .text,
    .of "desiredFingerprint" (·.desired) (fun s v => { s with desired := v }) .text,
    .of "checkpoint" (·.checkpoint) (fun s v => { s with checkpoint := v }) .text,
    .omitEmpty "evidence" (·.evidence) (fun s v => { s with evidence := v }) (·.isNone)
      (.pointer zeroEvidence (.record evidenceTags))]

def recordTags : List (Tag Record) :=
  [.of "schemaVersion" (·.schemaVersion) (fun s v => { s with schemaVersion := v }) .int,
    .of "transaction" (·.transaction) (fun s v => { s with transaction := v }) .text,
    .of "goal" (·.goal) (fun s v => { s with goal := v }) (.record goalTags),
    .of "releases" (·.releases) (fun s v => { s with releases := v }) (.record pairTags),
    .of "authorizationPlan" (·.authorizationPlan) (fun s v => { s with authorizationPlan := v })
      .text,
    .of "resumePlan" (·.resumePlan) (fun s v => { s with resumePlan := v }) .text,
    .of "artifactDigest" (·.artifactDigest) (fun s v => { s with artifactDigest := v }) .text,
    .of "registryDigest" (·.registryDigest) (fun s v => { s with registryDigest := v }) .text,
    .of "catalogDigest" (·.catalogDigest) (fun s v => { s with catalogDigest := v }) .text,
    .of "observationScope" (·.observationScope) (fun s v => { s with observationScope := v }) .text,
    .of "authorizationDigest" (·.authorizationDigest)
      (fun s v => { s with authorizationDigest := v }) .text,
    .of "intentDigest" (·.intentDigest) (fun s v => { s with intentDigest := v }) .text,
    .omitEmpty "sourceIngress" (·.sourceIngress) (fun s v => { s with sourceIngress := v })
      (·.isNone) (.pointer zeroIngress (.record ingressTags)),
    .of "checkpoint" (·.checkpoint) (fun s v => { s with checkpoint := v }) .text,
    .of "steps" (·.steps) (fun s v => { s with steps := v })
      (.slice zeroStep (.record stepTags))]

def replacementTags : List (Tag Replacement) :=
  [.of "transaction" (·.transaction) (fun s v => { s with transaction := v }) .text,
    .of "fingerprint" (·.fingerprint) (fun s v => { s with fingerprint := v }) .text,
    .of "reason" (·.reason) (fun s v => { s with reason := v }) .text,
    .omitEmpty "sourceVersion" (·.sourceVersion) (fun s v => { s with sourceVersion := v })
      (·.isEmpty) .text]

def archiveTags : List (Tag Archive) :=
  [.of "schemaVersion" (·.schemaVersion) (fun s v => { s with schemaVersion := v }) .int,
    .of "authorizationPlan" (·.authorizationPlan) (fun s v => { s with authorizationPlan := v })
      .text,
    .of "replacement" (·.replacement) (fun s v => { s with replacement := v })
      (.record replacementTags),
    .of "journal" (·.journal) (fun s v => { s with journal := v }) (.record recordTags)]

/-! ### The codec -/

/-- One JSON value within the bound, read strictly; the texts of the errors of the JSON package are
left out. -/
def decodeStrict {α : Type} (tags : List (Tag α)) (zero : α) (size malformed : String)
    (payload : Bytes) : Except Bytes α := do
  refuse (payload.length = 0 ∨ payload.length > maxBytes) (invalid (str size))
  match (Json.parse payload).bind ((Json.Format.record tags).decode zero) with
  | some record => pure record
  | none => .error (invalid (str malformed))

/-- `Decode`. -/
def decode (payload : Bytes) : Except Bytes Record := do
  let record ← decodeStrict recordTags zeroRecord "record size is outside the allowed bound"
    "decode" payload
  record.validate
  pure record

/-- `Encode`. -/
def encode (record : Record) : Except Bytes Bytes := do
  record.validate
  pure (Json.render (Json.object recordTags record))

def Replacement.validate (replacement : Replacement) : Except Bytes Unit := do
  validateSafeID replacement.transaction "replacement transaction ID"
  refuse (¬ validFingerprint replacement.fingerprint)
    (invalid (str "replacement fingerprint is invalid"))
  refuse (replacement.reason ≠ str "post-activation-scope-v0.11.1")
    (invalid (str "unknown archive replacement reason " ++ History.quoted replacement.reason))
  refuse (¬ validCanonicalSemver replacement.sourceVersion)
    (invalid (str "replacement source version is invalid"))

def Archive.validate (archive : Archive) : Except Bytes Unit := do
  refuse (archive.schemaVersion ≠ 1)
    (invalid (str "unsupported archive schema " ++ Json.number archive.schemaVersion))
  refuse (¬ validToken archive.authorizationPlan "plan-v1-")
    (invalid (str "archive authorization plan is invalid"))
  archive.replacement.validate
  archive.journal.validate
  refuse (archive.replacement.transaction ≠ archive.journal.transaction)
    (invalid (str "archive transaction does not match replacement"))
  let journal ← encode archive.journal
  refuse (archive.replacement.fingerprint ≠ fingerprintPayload (journal ++ [10]))
    (invalid (str "archive fingerprint does not match canonical journal"))

/-- `DecodeArchive`. -/
def decodeArchive (payload : Bytes) : Except Bytes Archive := do
  let archive ← decodeStrict archiveTags zeroArchive "archive size is outside the allowed bound"
    "decode archive" payload
  archive.validate
  pure archive

/-- `EncodeArchive`. -/
def encodeArchive (archive : Archive) : Except Bytes Bytes := do
  archive.validate
  pure (Json.render (Json.object archiveTags archive))

end Subyard.Release.JournalV2
