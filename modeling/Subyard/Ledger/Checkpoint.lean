import Subyard.Ledger.Records

/-!
Ledgers and the checkpoints that stand for them.

* `RegistryV2.validateLedger`: the ledgers a registry accepts (`Ledgered`).
* `LedgerCheckpointV1.validate`, `LedgerCheckpointV1.ledgerView`: the checkpoints it accepts
  (`Valid`), and the ledger a checkpoint stands for.
* `newLedgerCheckpointV1`, `advanceLedgerCheckpointV1`: how checkpoints come about.
* `newLedgerCheckpointV1_ok`, `advanceLedgerCheckpointV1_ok`: **a checkpoint made from a ledger is
  accepted and stands for it, and so does one that is advanced to a ledger**.
-/

namespace Subyard.Release

open Text Fallible History

/-! ### Ledgers -/

namespace RegistryV2

/-- `ValidateLedger`. -/
def validateLedger (registry : RegistryV2) (ledger : LedgerV2) : Except Failure Unit := do
  let owner ← registry.historyRegistry
  refuse (ledger.schemaVersion ≠ 2)
    (.invalid (str "unsupported ledger schema " ++ Json.number ledger.schemaVersion))
  (owner.history ledger.domains).mapError .invalid

/-- The ledgers that are accepted. -/
structure Ledgered (registry : RegistryV2) (owner : RegistryData) (ledger : LedgerV2) : Prop where
  history : registry.historyRegistry = .ok owner
  schema : ledger.schemaVersion = 2
  accepts : owner.Accepts ledger.domains

lemma validateLedger_ok {registry : RegistryV2} {ledger : LedgerV2} :
    registry.validateLedger ledger = .ok () ↔ ∃ owner, registry.Ledgered owner ledger := by
  constructor
  · intro h
    obtain ⟨owner, howner, h⟩ := of_bind_ok h
    obtain ⟨hschema, h⟩ := refuse_bind.mp h
    have hsound := (historyRegistry_ok howner).toSound
    exact ⟨owner, howner, not_not.mp hschema, hsound.history_ok.mp (mapError_eq_ok.mp h)⟩
  · rintro ⟨owner, howner, hschema, haccepts⟩
    have hsound := (historyRegistry_ok howner).toSound
    rw [validateLedger, howner]
    refine refuse_bind.mpr ⟨not_not.mpr hschema, mapError_eq_ok.mpr ?_⟩
    exact hsound.history_ok.mpr haccepts

end RegistryV2

/-- `BaselineLedgerV2`. -/
def baselineLedgerV2 (registry : RegistryV2) : LedgerV2 where
  schemaVersion := 2
  domains := Dict.build (fun _ minimum => ⟨minimum, []⟩) registry.minimumEpochs ∅

/-- `ParseLedgerV2`. -/
def parseLedgerV2 (payload : Bytes) (registry : RegistryV2) : Except Failure LedgerV2 := do
  let record ← decodeBoundedRecord ledgerFields ⟨0, none⟩ payload (2 ^ 20)
  let ledger : LedgerV2 := ⟨record.schemaVersion, record.domains.getD ∅⟩
  registry.validateLedger ledger
  pure ledger

/-- `MarshalLedgerV2`. -/
def marshalLedgerV2 (ledger : LedgerV2) (registry : RegistryV2) : Except Failure Bytes := do
  registry.validateLedger ledger
  pure (recordText (ledgerJSON ledger))

/-! ### The pinned projection -/

/-- The check of one domain of the pinned ledger, which gives its epoch. -/
def legacyEpoch (domain : Bytes) (state : DomainState) : Except Failure ℤ := do
  validateSafeID domain "legacy ledger domain"
  refuse (state.epoch < 1) (.invalid (str "pinned legacy ledger projection has an invalid epoch"))
  pure state.epoch

def decodeLegacyLedgerEpochs (payload : Bytes) : Except Failure (Dict Bytes ℤ) := do
  let record ← (decodeBoundedRecord ledgerFields ⟨0, none⟩ payload (2 ^ 20)).mapError fun _ =>
    .invalid (str "pinned legacy ledger projection is malformed")
  match record.domains with
  | none => .error (.invalid (str "pinned legacy ledger projection has an invalid shape"))
  | some domains => do
      refuse (record.schemaVersion ≠ 2)
        (.invalid (str "pinned legacy ledger projection has an invalid shape"))
      Dict.buildM legacyEpoch domains ∅

/-- `NewCompatibilityProjection` and the epochs it holds. -/
def newCompatibilityProjection (epochs : Dict Bytes ℤ) (pin : Bytes) :
    Except Bytes (Dict Bytes ℤ) := do
  refuse (¬ validPin pin) (str "invalid compatibility projection")
  epochs.sorted.forM fun (name, epoch) =>
    refuse (¬ safeID name ∨ epoch < 1) (str "invalid compatibility projection epoch")
  pure epochs

def sameEpochs (left right : Dict Bytes ℤ) : Bool :=
  left.keys.card = right.keys.card && left.sorted.all fun (domain, epoch) =>
    right.getD domain 0 = epoch

/-- The fingerprint is there if and only if the projection was. -/
def ProjectionBinding.checkFingerprint (binding : ProjectionBinding) : Except Failure Unit :=
  if binding.exists' then
    validateFingerprint binding.fingerprint "legacy ledger projection fingerprint"
  else
    refuse (binding.fingerprint ≠ [])
      (.invalid (str "absent legacy ledger projection has a fingerprint"))

/-- The pinned epochs are those of the projection. -/
def checkPinned (epochs : Dict Bytes ℤ) (projection : ProtectedSnapshot) : Except Failure Unit :=
  if projection.exists' then do
    let pinned ← decodeLegacyLedgerEpochs projection.payload
    let pinned ← (newCompatibilityProjection pinned projection.fingerprint).mapError .invalid
    refuse (¬ sameEpochs pinned epochs)
      (.invalid (str "legacy ledger projection epochs do not match its pinned bytes"))
  else .ok ()

/-- The part of `Validate` that binds a checkpoint to the projection. -/
def ProjectionBinding.check (binding : ProjectionBinding) (epochs : Dict Bytes ℤ)
    (projection : ProtectedSnapshot) : Except Failure Unit := do
  binding.checkFingerprint
  refuse (¬ validProtectedSnapshot projection)
    (.invalid (str "legacy ledger projection snapshot is malformed"))
  refuse (projection.exists' ≠ binding.exists'
      ∨ (projection.exists' ∧ projection.fingerprint ≠ binding.fingerprint))
    (.invalid (str "legacy ledger projection changed after checkpoint publication"))
  checkPinned epochs projection

/-! ### Checkpoints -/

namespace RegistryV2

/-- The digest of what was retired of a domain, empty if nothing was. -/
def retiredDigest (registry : RegistryV2) (domain : Bytes) : Fingerprint :=
  ((registry.retiredPrefixes.lookup domain).map (·.digest)).getD []

/-- The part of `Validate` about the legacy epoch of a domain. -/
def checkLegacy (registry : RegistryV2) (epochs : Dict Bytes ℤ) (domain : Bytes) (minimum : ℤ)
    (state : DomainCheckpoint) : Except Failure Unit :=
  match epochs.lookup domain with
  | some legacy =>
      refuse (legacy < 1 ∨ legacy > state.epoch)
        (.invalid (str "migration checkpoint domain " ++ quoted domain
          ++ str " has an invalid legacy epoch"))
  | none =>
      refuse (minimum ≠ 1 ∨ registry.retiredDigest domain ≠ [])
        (.invalid (str "migration checkpoint domain " ++ quoted domain
          ++ str " is absent from pinned legacy history"))

/-- The part of `Validate` about one domain. -/
def checkDomain (registry : RegistryV2) (epochs : Dict Bytes ℤ) (domain : Bytes)
    (state : DomainCheckpoint) : Except Failure Unit :=
  match registry.minimumEpochs.lookup domain with
  | none => .error (.invalid (str "migration checkpoint contains unknown domain " ++ quoted domain))
  | some minimum => do
      refuse (state.epoch < minimum ∨ state.epoch > registry.currentEpochs.getD domain 0
          ∨ state.compactedThrough < minimum ∨ state.compactedThrough > state.epoch)
        (.invalid (str "migration checkpoint domain " ++ quoted domain
          ++ str " has an invalid epoch"))
      registry.checkLegacy epochs domain minimum state
      refuse (registry.migrationPrefixDigest domain state.compactedThrough
          ≠ .ok state.prefixDigest)
        (.invalid (str "migration checkpoint domain " ++ quoted domain
          ++ str " prefix proof does not match registry"))
      refuse (state.appliedSuffix
          ≠ registry.appliedSuffix domain state.compactedThrough state.epoch)
        (.invalid (str "migration checkpoint domain " ++ quoted domain
          ++ str " applied suffix is not the exact registry path"))

end RegistryV2

namespace LedgerCheckpointV1

/-- `Validate`. -/
def validate (checkpoint : LedgerCheckpointV1) (registry : RegistryV2)
    (registryDigest : Fingerprint) (projection : ProtectedSnapshot) : Except Failure Unit := do
  let _ ← registry.historyRegistry
  refuse (checkpoint.schemaVersion ≠ 1)
    (.invalid (str "unsupported migration ledger checkpoint schema "
      ++ Json.number checkpoint.schemaVersion))
  validateFingerprint checkpoint.registryDigest "checkpoint registry digest"
  validateFingerprint registryDigest "current registry digest"
  match checkpoint.domains, checkpoint.legacyProjection.epochs with
  | none, _ => .error (.invalid (str "migration ledger checkpoint domains are required"))
  | some _, none => .error (.invalid (str "legacy ledger projection epochs are required"))
  | some domains, some epochs => do
      checkpoint.legacyProjection.check epochs projection
      domains.sorted.forM fun (domain, state) => registry.checkDomain epochs domain state
      epochs.sorted.forM fun (domain, _) =>
        refuse ((domains.lookup domain).isNone)
          (.invalid (str "legacy ledger projection has unknown domain " ++ quoted domain))
      registry.minimumEpochs.sorted.forM fun (domain, minimum) =>
        refuse ((domains.lookup domain).isNone
            ∧ (minimum ≠ 1 ∨ registry.retiredDigest domain ≠ []))
          (.invalid (str "migration checkpoint cannot prove newly added domain "
            ++ quoted domain))

/-- One round of the loop of `LedgerView`. -/
def viewDomain (registry : RegistryV2) (domain : Bytes) (state : DomainCheckpoint) :
    Except Failure DomainState := do
  refuse ((registry.minimumEpochs.lookup domain).isNone)
    (.invalid (str "migration checkpoint contains unknown domain " ++ quoted domain))
  pure ⟨state.epoch, registry.appliedPrefix domain state.epoch⟩

/-- `LedgerView`. -/
def ledgerView (checkpoint : LedgerCheckpointV1) (registry : RegistryV2) :
    Except Failure LedgerV2 := do
  refuse (checkpoint.schemaVersion ≠ 1)
    (.invalid (str "unsupported migration ledger checkpoint schema "
      ++ Json.number checkpoint.schemaVersion))
  let domains ← Dict.buildM (viewDomain registry) (checkpoint.domains.getD ∅)
    (baselineLedgerV2 registry).domains
  let ledger : LedgerV2 := ⟨2, domains⟩
  registry.validateLedger ledger
  pure ledger

end LedgerCheckpointV1

/-- The checkpoint of one domain of a ledger: all of its history is compacted. -/
def compactDomain (registry : RegistryV2) (domain : Bytes) (state : DomainState) :
    Except Failure DomainCheckpoint := do
  let prefixDigest ← registry.migrationPrefixDigest domain state.epoch
  pure
    { epoch := state.epoch
      compactedThrough := state.epoch
      prefixDigest := prefixDigest
      appliedSuffix := [] }

def newLedgerCheckpointV1 (ledger : LedgerV2) (registry : RegistryV2)
    (registryDigest : Fingerprint) (projection : ProtectedSnapshot)
    (legacyEpochs : Dict Bytes ℤ) : Except Failure LedgerCheckpointV1 := do
  registry.validateLedger ledger
  let domains ← Dict.buildM (compactDomain registry) ledger.domains ∅
  pure
    { schemaVersion := 1
      registryDigest := registryDigest
      legacyProjection :=
        { exists' := projection.exists'
          fingerprint := if projection.exists' then projection.fingerprint else []
          epochs := some legacyEpochs }
      domains := some domains }

/-- Where the compacted history of a domain ends: at its minimum if the checkpoint does not have
the domain. -/
def compactedBase (checkpoint : LedgerCheckpointV1) (registry : RegistryV2) (domain : Bytes)
    (state : DomainState) : Except Failure (ℤ × Fingerprint) :=
  match (checkpoint.domains.getD ∅).lookup domain with
  | some prior => pure (prior.compactedThrough, prior.prefixDigest)
  | none => do
      let minimum := registry.minimumEpochs.getD domain 0
      refuse (minimum ≠ 1 ∨ state.epoch < minimum ∨ registry.retiredDigest domain ≠ [])
        (.invalid (str "migration checkpoint cannot prove new domain " ++ quoted domain))
      let prefixDigest ← registry.migrationPrefixDigest domain minimum
      pure (minimum, prefixDigest)

/-- One round of the loop of `advanceLedgerCheckpointV1`. -/
def advanceDomain (checkpoint : LedgerCheckpointV1) (registry : RegistryV2) (domain : Bytes)
    (state : DomainState) : Except Failure DomainCheckpoint := do
  let (compacted, digest) ← compactedBase checkpoint registry domain state
  refuse (state.epoch < compacted)
    (.invalid (str "migration checkpoint domain " ++ quoted domain
      ++ str " moved behind its compacted prefix"))
  pure
    { epoch := state.epoch
      compactedThrough := compacted
      prefixDigest := digest
      appliedSuffix := registry.appliedSuffix domain compacted state.epoch }

def advanceLedgerCheckpointV1 (checkpoint : LedgerCheckpointV1) (next : LedgerV2)
    (registry : RegistryV2) (registryDigest : Fingerprint) (projection : ProtectedSnapshot) :
    Except Failure LedgerCheckpointV1 := do
  checkpoint.validate registry registryDigest projection
  registry.validateLedger next
  let domains ← Dict.buildM (advanceDomain checkpoint registry) next.domains ∅
  let advanced : LedgerCheckpointV1 :=
    { schemaVersion := 1
      registryDigest := registryDigest
      legacyProjection :=
        { exists' := checkpoint.legacyProjection.exists'
          fingerprint := checkpoint.legacyProjection.fingerprint
          epochs := some (checkpoint.legacyProjection.epochs.getD ∅) }
      domains := some domains }
  advanced.validate registry registryDigest projection
  pure advanced

/-! ### What is accepted -/

namespace RegistryV2

variable {registry : RegistryV2} {owner : RegistryData}

lemma checkLegacy_ok {epochs : Dict Bytes ℤ} {domain : Bytes} {minimum : ℤ}
    {state : DomainCheckpoint} :
    registry.checkLegacy epochs domain minimum state = .ok ()
      ↔ (∀ legacy, epochs.lookup domain = some legacy → 1 ≤ legacy ∧ legacy ≤ state.epoch)
        ∧ (epochs.lookup domain = none → minimum = 1 ∧ registry.retiredDigest domain = []) := by
  rw [checkLegacy.eq_def]
  cases epochs.lookup domain with
  | some legacy =>
    simp only [refuse_eq_ok, Option.some.injEq, forall_eq', reduceCtorEq, false_imp_iff, and_true]
    omega
  | none => simp

/-- What is accepted of one domain. -/
structure Checked (registry : RegistryV2) (epochs : Dict Bytes ℤ) (domain : Bytes) (minimum : ℤ)
    (state : DomainCheckpoint) : Prop where
  floor : registry.minimumEpochs.lookup domain = some minimum
  low : minimum ≤ state.compactedThrough
  compacted : state.compactedThrough ≤ state.epoch
  high : state.epoch ≤ registry.currentEpochs.getD domain 0
  legacy : ∀ legacy, epochs.lookup domain = some legacy → 1 ≤ legacy ∧ legacy ≤ state.epoch
  fresh : epochs.lookup domain = none → minimum = 1 ∧ registry.retiredDigest domain = []
  digest : registry.migrationPrefixDigest domain state.compactedThrough = .ok state.prefixDigest
  suffix : state.appliedSuffix = registry.appliedSuffix domain state.compactedThrough state.epoch

lemma checkDomain_ok {epochs : Dict Bytes ℤ} {domain : Bytes} {state : DomainCheckpoint} :
    registry.checkDomain epochs domain state = .ok ()
      ↔ ∃ minimum, registry.Checked epochs domain minimum state := by
  rw [checkDomain.eq_def]
  cases hfloor : registry.minimumEpochs.lookup domain with
  | none =>
    refine ⟨fun h => (by cases h), fun ⟨minimum, h⟩ => ?_⟩
    exact absurd (hfloor.symm.trans h.floor) (by simp)
  | some minimum =>
    constructor
    · intro h
      obtain ⟨hrange, h⟩ := refuse_bind.mp h
      obtain ⟨_, hlegacy, h⟩ := of_bind_ok h
      obtain ⟨hdigest, h⟩ := refuse_bind.mp h
      obtain ⟨hlegacy, hfresh⟩ := checkLegacy_ok.mp hlegacy
      exact ⟨minimum, hfloor, by omega, by omega, by omega, hlegacy, hfresh, not_not.mp hdigest,
        not_not.mp (refuse_eq_ok.mp h)⟩
    · rintro ⟨minimum', h⟩
      obtain rfl : minimum = minimum' := Option.some.inj (hfloor.symm.trans h.floor)
      refine refuse_bind.mpr ⟨by have := h.low; have := h.compacted; have := h.high; omega, ?_⟩
      show (registry.checkLegacy epochs domain minimum state >>= _) = _
      rw [checkLegacy_ok.mpr ⟨h.legacy, h.fresh⟩]
      refine refuse_bind.mpr ⟨not_not.mpr h.digest, ?_⟩
      exact refuse_eq_ok.mpr (not_not.mpr h.suffix)

end RegistryV2

namespace LedgerCheckpointV1

variable {checkpoint : LedgerCheckpointV1} {registry : RegistryV2} {registryDigest : Fingerprint}
  {projection : ProtectedSnapshot}

/-- The checkpoints that are accepted, with their maps. -/
structure Valid (checkpoint : LedgerCheckpointV1) (registry : RegistryV2)
    (registryDigest : Fingerprint) (projection : ProtectedSnapshot)
    (domains : Dict Bytes DomainCheckpoint) (epochs : Dict Bytes ℤ) : Prop where
  history : ∃ owner, registry.historyRegistry = .ok owner
  schema : checkpoint.schemaVersion = 1
  digest : validFingerprint checkpoint.registryDigest
  current : validFingerprint registryDigest
  domains_eq : checkpoint.domains = some domains
  epochs_eq : checkpoint.legacyProjection.epochs = some epochs
  bound : checkpoint.legacyProjection.check epochs projection = .ok ()
  each : ∀ domain state, domains.lookup domain = some state →
    ∃ minimum, registry.Checked epochs domain minimum state
  known : ∀ domain ∈ epochs.keys, domain ∈ domains.keys
  missing : ∀ domain minimum, registry.minimumEpochs.lookup domain = some minimum →
    domain ∉ domains.keys → minimum = 1 ∧ registry.retiredDigest domain = []

/-- **What `Validate` accepts.** -/
theorem validate_ok : checkpoint.validate registry registryDigest projection = .ok ()
    ↔ ∃ domains epochs, checkpoint.Valid registry registryDigest projection domains epochs := by
  constructor
  · intro h
    obtain ⟨owner, howner, h⟩ := of_bind_ok h
    obtain ⟨hschema, h⟩ := refuse_bind.mp h
    obtain ⟨_, hdigest, h⟩ := of_bind_ok h
    obtain ⟨_, hcurrent, h⟩ := of_bind_ok h
    cases hdomains : checkpoint.domains with
    | none =>
      simp only [hdomains] at h
      cases h
    | some domains =>
      cases hepochs : checkpoint.legacyProjection.epochs with
      | none =>
        simp only [hdomains, hepochs] at h
        cases h
      | some epochs =>
        simp only [hdomains, hepochs] at h
        obtain ⟨_, hbound, h⟩ := of_bind_ok h
        obtain ⟨_, heach, h⟩ := of_bind_ok h
        obtain ⟨_, hknown, hmissing⟩ := of_bind_ok h
        refine ⟨domains, epochs, ⟨owner, howner⟩, not_not.mp hschema,
          not_not.mp (refuse_eq_ok.mp hdigest), not_not.mp (refuse_eq_ok.mp hcurrent),
          hdomains, hepochs, hbound, fun domain state hlookup => ?_, fun domain hmem => ?_,
          fun domain minimum hlookup hmem => ?_⟩
        · exact RegistryV2.checkDomain_ok.mp (Dict.forM_sorted.mp heach domain state hlookup)
        · obtain ⟨epoch, hlookup⟩ := Dict.exists_lookup hmem
          exact Dict.not_isNone_lookup_iff.mp
            (refuse_eq_ok.mp (Dict.forM_sorted.mp hknown domain epoch hlookup))
        · have hpass := refuse_eq_ok.mp (Dict.forM_sorted.mp hmissing domain minimum hlookup)
          have hnone : (domains.lookup domain).isNone := by
            by_contra hsome
            exact hmem (Dict.not_isNone_lookup_iff.mp hsome)
          rw [not_and, not_or, not_not, not_not] at hpass
          exact hpass hnone
  · rintro ⟨domains, epochs, h⟩
    obtain ⟨owner, howner⟩ := h.history
    rw [validate, howner]
    refine refuse_bind.mpr ⟨not_not.mpr h.schema, ?_⟩
    refine check_bind.mpr ⟨refuse_eq_ok.mpr (not_not.mpr h.digest), ?_⟩
    refine check_bind.mpr ⟨refuse_eq_ok.mpr (not_not.mpr h.current), ?_⟩
    simp only [h.domains_eq, h.epochs_eq]
    refine check_bind.mpr ⟨h.bound, check_bind.mpr ⟨Dict.forM_sorted.mpr ?_,
      check_bind.mpr ⟨Dict.forM_sorted.mpr ?_, Dict.forM_sorted.mpr ?_⟩⟩⟩
    · exact fun domain state hlookup =>
        RegistryV2.checkDomain_ok.mpr (h.each domain state hlookup)
    · intro domain epoch hlookup
      have hmem := h.known domain (Dict.mem_keys_of_lookup hlookup)
      exact refuse_eq_ok.mpr (Dict.not_isNone_lookup_iff.mpr hmem)
    · intro domain minimum hlookup
      refine refuse_eq_ok.mpr fun hbad => ?_
      have hmem : domain ∉ domains.keys := fun hmem => Dict.not_isNone_lookup_iff.mpr hmem hbad.1
      obtain ⟨hone, hretired⟩ := h.missing domain minimum hlookup hmem
      exact hbad.2.elim (fun hne => hne hone) fun hne => hne hretired

end LedgerCheckpointV1

/-! ### The ledger a checkpoint stands for -/

section View

variable {registry : RegistryV2} {owner : RegistryData} {ledger : LedgerV2} {domain : Bytes}
  {state : DomainState} {epochs : Dict Bytes ℤ} {projection : ProtectedSnapshot}

namespace RegistryV2

lemma Ledgered.accepted (h : registry.Ledgered owner ledger) : registry.Accepted owner :=
  historyRegistry_ok h.history

lemma Ledgered.keys (h : registry.Ledgered owner ledger) :
    ledger.domains.keys = registry.minimumEpochs.keys := by
  rw [h.accepts.keys, h.accepted.minimum_eq]

/-- The epoch of a domain lies on its path. -/
lemma Ledgered.range (h : registry.Ledgered owner ledger)
    (hstate : ledger.domains.lookup domain = some state) :
    ∃ minimum, registry.minimumEpochs.lookup domain = some minimum ∧ minimum ≤ state.epoch
      ∧ state.epoch ≤ registry.currentEpochs.getD domain 0 := by
  have hmem : domain ∈ owner.minimum.keys :=
    h.accepts.keys ▸ Dict.mem_keys_of_lookup hstate
  obtain ⟨minimum, hminimum⟩ := Dict.exists_lookup hmem
  have hrange := h.accepts.range domain hmem
  rw [RegistryData.epoch_of_lookup hstate, Dict.getD_of_lookup hminimum, h.accepted.current_eq]
    at hrange
  rw [h.accepted.minimum_eq] at hminimum
  exact ⟨minimum, hminimum, hrange⟩

/-- The applied migrations of a domain are those the registry lists. -/
lemma Ledgered.appliedPrefix_eq (h : registry.Ledgered owner ledger)
    (hstate : ledger.domains.lookup domain = some state) :
    registry.appliedPrefix domain state.epoch = state.applied := by
  obtain ⟨minimum, hminimum, hlow, hhigh⟩ := h.range hstate
  have hfloor : owner.minimum.lookup domain = some minimum := by
    rw [h.accepted.minimum_eq, hminimum]
  have hcurrent : state.epoch ≤ owner.current.getD domain 0 := by
    rw [h.accepted.current_eq]
    exact hhigh
  rw [appliedPrefix, applied, h.history]
  simp only [Dict.getD_of_lookup hminimum]
  rw [h.accepted.applied_floor hfloor hlow hcurrent, h.accepts.applied domain state hstate]
  rfl

end RegistryV2

/-- A checkpoint with the epochs of a ledger stands for it. -/
theorem LedgerCheckpointV1.ledgerView_eq {checkpoint : LedgerCheckpointV1}
    {domains : Dict Bytes DomainCheckpoint} (h : registry.Ledgered owner ledger)
    (hschema : checkpoint.schemaVersion = 1) (hdomains : checkpoint.domains = some domains)
    (hkeys : domains.keys = ledger.domains.keys)
    (hepochs : ∀ domain compact, domains.lookup domain = some compact →
      ∃ state, ledger.domains.lookup domain = some state ∧ compact.epoch = state.epoch) :
    checkpoint.ledgerView registry = .ok ledger := by
  have hbuild : Dict.buildM (viewDomain registry) domains (baselineLedgerV2 registry).domains
      = .ok ledger.domains := by
    have hview : ∀ domain state, domains.lookup domain = some state →
        viewDomain registry domain state
          = .ok ⟨state.epoch, registry.appliedPrefix domain state.epoch⟩ := by
      intro domain state hlookup
      have hmem : domain ∈ registry.minimumEpochs.keys := by
        rw [← h.keys, ← hkeys]
        exact Dict.mem_keys_of_lookup hlookup
      exact refuse_bind.mpr ⟨Dict.not_isNone_lookup_iff.mpr hmem, rfl⟩
    rw [Dict.buildM_of_ok hview]
    refine congrArg Except.ok (Finmap.ext_lookup fun domain => ?_)
    rw [Dict.lookup_build]
    cases hcompact : domains.lookup domain with
    | some compact =>
      obtain ⟨state, hstate, hepoch⟩ := hepochs domain compact hcompact
      rw [Option.map_some, Option.some_or, hepoch, h.appliedPrefix_eq hstate, hstate]
    | none =>
      have habsent : domain ∉ ledger.domains.keys := hkeys ▸ Dict.lookup_eq_none_iff.mp hcompact
      rw [Option.map_none, Option.none_or, Dict.lookup_eq_none_iff.mpr habsent,
        Dict.lookup_eq_none_iff, baselineLedgerV2, Dict.keys_build, ← h.keys]
      exact habsent
  rw [ledgerView, hdomains, Option.getD_some, hbuild]
  refine refuse_bind.mpr ⟨not_not.mpr hschema, ?_⟩
  show (registry.validateLedger ⟨2, ledger.domains⟩ >>= _) = _
  have hsame : (⟨2, ledger.domains⟩ : LedgerV2) = ledger := by rw [← h.schema]
  rw [hsame, RegistryV2.validateLedger_ok.mpr ⟨owner, h⟩]
  rfl

/-- A ledger a checkpoint stands for has its epochs. -/
lemma LedgerCheckpointV1.lookup_of_ledgerView {checkpoint : LedgerCheckpointV1}
    {domains : Dict Bytes DomainCheckpoint} (h : checkpoint.ledgerView registry = .ok ledger)
    (hdomains : checkpoint.domains = some domains) {compact : DomainCheckpoint}
    (hcompact : domains.lookup domain = some compact) :
    ∃ state, ledger.domains.lookup domain = some state ∧ state.epoch = compact.epoch := by
  obtain ⟨_, h⟩ := refuse_bind.mp h
  obtain ⟨view, hbuild, h⟩ := of_bind_ok h
  obtain ⟨_, _, h⟩ := of_bind_ok h
  cases h
  rw [hdomains, Option.getD_some] at hbuild
  obtain ⟨state, hok⟩ := Dict.ok_of_buildM hbuild hcompact
  refine ⟨state, ?_, ?_⟩
  · rw [Dict.eq_build_of_buildM state hbuild, Dict.lookup_build, hcompact, Option.map_some, hok]
    rfl
  · obtain ⟨_, hok⟩ := refuse_bind.mp hok
    cases hok
    rfl

/-! ### Pinned projections -/

lemma safeID_of_validateSafeID {id : Bytes} {field : String}
    (h : validateSafeID id field = .ok ()) : safeID id := by
  have hpass := refuse_eq_ok.mp h
  rw [not_or, not_not, not_lt] at hpass
  exact Bool.and_eq_true_iff.mpr ⟨decide_eq_true hpass.1, hpass.2⟩

/-- The epochs read from a projection are positive and their domains have safe names. -/
lemma decodeLegacyLedgerEpochs_ok {payload : Bytes}
    (h : decodeLegacyLedgerEpochs payload = .ok epochs) {epoch : ℤ}
    (hepoch : epochs.lookup domain = some epoch) : safeID domain ∧ 1 ≤ epoch := by
  obtain ⟨record, _, h⟩ := of_bind_ok h
  cases hdomains : record.domains with
  | none =>
    rw [hdomains] at h
    cases h
  | some domains =>
    rw [hdomains] at h
    obtain ⟨_, h⟩ := refuse_bind.mp h
    obtain ⟨state, _, hstate⟩ := Dict.lookup_of_buildM h hepoch
    obtain ⟨_, hsafe, hstate⟩ := of_bind_ok hstate
    obtain ⟨hlow, hstate⟩ := refuse_bind.mp hstate
    cases hstate
    exact ⟨safeID_of_validateSafeID hsafe, not_lt.mp hlow⟩

lemma sameEpochs_self (epochs : Dict Bytes ℤ) : sameEpochs epochs epochs := by
  refine Bool.and_eq_true_iff.mpr ⟨decide_eq_true rfl, List.all_eq_true.mpr fun entry hentry => ?_⟩
  exact decide_eq_true (Dict.getD_of_lookup (Dict.mem_sorted.mp hentry))

/-- The epochs of a projection that is there are those its bytes hold. -/
def Pinned (projection : ProtectedSnapshot) (epochs : Dict Bytes ℤ) : Prop :=
  projection.exists' → decodeLegacyLedgerEpochs projection.payload = .ok epochs

lemma validFingerprint_of_snapshot (h : validProtectedSnapshot projection)
    (hexists : projection.exists') : validFingerprint projection.fingerprint := by
  rw [validProtectedSnapshot, if_pos hexists, Bool.and_eq_true_iff, decide_eq_true_eq] at h
  rw [h.2]
  exact validFingerprint_fingerprintPayload _

lemma checkPinned_ok (hsnapshot : validProtectedSnapshot projection)
    (h : Pinned projection epochs) :
    checkPinned epochs projection = .ok () := by
  rw [checkPinned]
  split
  · next hexists =>
      have hpin := validFingerprint_of_snapshot hsnapshot hexists
      have hdecode := h hexists
      have hnames : (epochs.sorted.forM fun (name, epoch) =>
          refuse (¬ safeID name ∨ epoch < 1)
            (str "invalid compatibility projection epoch")) = .ok () := by
        refine Dict.forM_sorted.mpr fun domain epoch hlookup => refuse_eq_ok.mpr ?_
        obtain ⟨hsafe, hlow⟩ := decodeLegacyLedgerEpochs_ok hdecode hlookup
        rw [not_or, not_not, not_lt]
        exact ⟨hsafe, hlow⟩
      have hproject : newCompatibilityProjection epochs projection.fingerprint = .ok epochs := by
        refine refuse_bind.mpr ⟨not_not.mpr hpin, ?_⟩
        exact check_bind.mpr ⟨hnames, rfl⟩
      rw [hdecode]
      show ((newCompatibilityProjection epochs _).mapError Failure.invalid >>= _) = _
      rw [hproject]
      exact refuse_eq_ok.mpr (not_not.mpr (sameEpochs_self epochs))
  · rfl

/-- A projection, and the epochs to be pinned with it, that agree with a ledger: a domain that is
not pinned has no history before the registry. -/
structure Consistent (registry : RegistryV2) (ledger : LedgerV2) (projection : ProtectedSnapshot)
    (epochs : Dict Bytes ℤ) : Prop where
  snapshot : validProtectedSnapshot projection
  pinned : Pinned projection epochs
  passed : ∀ domain epoch, epochs.lookup domain = some epoch →
    1 ≤ epoch ∧ ∃ state, ledger.domains.lookup domain = some state ∧ epoch ≤ state.epoch
  fresh : ∀ domain ∈ ledger.domains.keys, domain ∉ epochs.keys →
    registry.minimumEpochs.lookup domain = some 1 ∧ registry.retiredDigest domain = []

lemma Consistent.check (h : Consistent registry ledger projection epochs) :
    ProjectionBinding.check ⟨projection.exists',
      if projection.exists' then projection.fingerprint else [], some epochs⟩ epochs projection
      = .ok () := by
  refine check_bind.mpr ⟨?_, refuse_bind.mpr ⟨not_not.mpr h.snapshot, refuse_bind.mpr ⟨?_, ?_⟩⟩⟩
  · rw [ProjectionBinding.checkFingerprint]
    cases hexists : projection.exists' with
    | true =>
      have hpin := validFingerprint_of_snapshot h.snapshot hexists
      exact refuse_eq_ok.mpr (not_not.mpr hpin)
    | false => rfl
  · cases projection.exists' <;> simp
  · exact checkPinned_ok h.snapshot h.pinned

/-! ### The checkpoint of a ledger -/

/-- The checkpoint of one domain. -/
lemma RegistryV2.Ledgered.compactDomain_ok (h : registry.Ledgered owner ledger)
    (hstate : ledger.domains.lookup domain = some state) :
    ∃ digest, registry.migrationPrefixDigest domain state.epoch = .ok digest
      ∧ compactDomain registry domain state = .ok ⟨state.epoch, state.epoch, digest, []⟩ := by
  obtain ⟨minimum, hfloor, hlow, hhigh⟩ := h.range hstate
  obtain ⟨digest, hdigest, _⟩ := h.accepted.migrationPrefixDigest_ok h.history hfloor hlow hhigh
  refine ⟨digest, hdigest, ?_⟩
  rw [compactDomain, hdigest]
  rfl

/-- Nothing is applied after the epoch a domain stands at. -/
lemma RegistryV2.Accepted.appliedSuffix_self (h : registry.Accepted owner)
    (howner : registry.historyRegistry = .ok owner) {minimum epoch : ℤ}
    (hfloor : registry.minimumEpochs.lookup domain = some minimum) (hlow : minimum ≤ epoch)
    (hhigh : epoch ≤ registry.currentEpochs.getD domain 0) :
    registry.appliedSuffix domain epoch epoch = [] := by
  rw [← h.minimum_eq] at hfloor
  rw [← h.current_eq] at hhigh
  rw [appliedSuffix, applied, howner]
  simp only []
  rw [RegistryData.applied_ok hfloor hlow le_rfl hhigh]
  show List.map _ _ = []
  rw [List.map_eq_nil_iff, List.filter_eq_nil_iff]
  intro m hm
  have hstep := h.step m hm
  simp only [decide_eq_true_eq]
  omega

/-- **The checkpoint of a ledger stands for the ledger.** -/
theorem ledgerView_new {digest : Fingerprint} {checkpoint : LedgerCheckpointV1}
    (h : newLedgerCheckpointV1 ledger registry digest projection epochs = .ok checkpoint) :
    checkpoint.ledgerView registry = .ok ledger := by
  obtain ⟨_, hvalid, h⟩ := of_bind_ok h
  obtain ⟨domains, hbuild, h⟩ := of_bind_ok h
  cases h
  obtain ⟨owner, hledgered⟩ := RegistryV2.validateLedger_ok.mp hvalid
  refine LedgerCheckpointV1.ledgerView_eq hledgered rfl rfl (Dict.keys_buildM hbuild) ?_
  intro domain compact hcompact
  obtain ⟨state, hstate, hok⟩ := Dict.lookup_of_buildM hbuild hcompact
  obtain ⟨digest, _, hok'⟩ := hledgered.compactDomain_ok hstate
  exact ⟨state, hstate, by rw [Except.ok.inj (hok.symm.trans hok')]⟩

/-- **The checkpoint of a ledger is accepted.** -/
theorem newLedgerCheckpointV1_ok {digest : Fingerprint} (h : registry.Ledgered owner ledger)
    (hconsistent : Consistent registry ledger projection epochs)
    (hdigest : validFingerprint digest) :
    ∃ checkpoint domains,
      newLedgerCheckpointV1 ledger registry digest projection epochs = .ok checkpoint
        ∧ checkpoint.Valid registry digest projection domains epochs := by
  obtain ⟨domains, hbuild⟩ := Dict.exists_buildM (f := compactDomain registry) ∅
    fun domain state hstate =>
      (h.compactDomain_ok hstate).elim fun digest hdigest => ⟨_, hdigest.2⟩
  have hkeys : domains.keys = registry.minimumEpochs.keys := (Dict.keys_buildM hbuild).trans h.keys
  have hlookup : ∀ domain compact, domains.lookup domain = some compact →
      ∃ state digest, ledger.domains.lookup domain = some state
        ∧ registry.migrationPrefixDigest domain state.epoch = .ok digest
        ∧ compact = ⟨state.epoch, state.epoch, digest, []⟩ := by
    intro domain compact hcompact
    obtain ⟨state, hstate, hok⟩ := Dict.lookup_of_buildM hbuild hcompact
    obtain ⟨digest, hdigest, hok'⟩ := h.compactDomain_ok hstate
    exact ⟨state, digest, hstate, hdigest, Except.ok.inj (hok.symm.trans hok')⟩
  refine ⟨⟨1, digest, ⟨projection.exists', if projection.exists' then projection.fingerprint else [],
    some epochs⟩, some domains⟩, domains, ?_, ?_⟩
  · rw [newLedgerCheckpointV1, RegistryV2.validateLedger_ok.mpr ⟨owner, h⟩, hbuild]
    rfl
  · refine ⟨⟨owner, h.history⟩, rfl, hdigest, hdigest, rfl, rfl, hconsistent.check, ?_, ?_, ?_⟩
    · intro domain compact hcompact
      obtain ⟨state, prefixDigest, hstate, hprefix, rfl⟩ := hlookup domain compact hcompact
      obtain ⟨minimum, hfloor, hlow, hhigh⟩ := h.range hstate
      refine ⟨minimum, hfloor, hlow, le_rfl, hhigh, fun epoch hepoch => ?_, fun hnone => ?_,
        hprefix, (h.accepted.appliedSuffix_self h.history hfloor hlow hhigh).symm⟩
      · obtain ⟨hone, state', hstate', hle⟩ := hconsistent.passed domain epoch hepoch
        obtain rfl : state = state' := Option.some.inj (hstate.symm.trans hstate')
        exact ⟨hone, hle⟩
      · have habsent : domain ∉ epochs.keys := Dict.lookup_eq_none_iff.mp hnone
        obtain ⟨hone, hretired⟩ :=
          hconsistent.fresh domain (Dict.mem_keys_of_lookup hstate) habsent
        exact ⟨Option.some.inj (hfloor.symm.trans hone), hretired⟩
    · intro domain hmem
      obtain ⟨epoch, hepoch⟩ := Dict.exists_lookup hmem
      obtain ⟨_, state, hstate, _⟩ := hconsistent.passed domain epoch hepoch
      rw [hkeys, ← h.keys]
      exact Dict.mem_keys_of_lookup hstate
    · intro domain minimum hfloor hmem
      exact absurd (hkeys ▸ Dict.mem_keys_of_lookup hfloor) hmem

/-! ### A checkpoint that is advanced -/

section Advance

variable {checkpoint advanced : LedgerCheckpointV1} {next : LedgerV2} {digest : Fingerprint}
  {projection : ProtectedSnapshot} {domains : Dict Bytes DomainCheckpoint} {epochs : Dict Bytes ℤ}

lemma advanceDomain_epoch {compact : DomainCheckpoint}
    (h : advanceDomain checkpoint registry domain state = .ok compact) :
    compact.epoch = state.epoch := by
  obtain ⟨base, _, h⟩ := of_bind_ok h
  obtain ⟨_, h⟩ := refuse_bind.mp h
  cases h
  rfl

/-- **A checkpoint that could be advanced is accepted and stands for the new ledger.** -/
theorem ledgerView_advance
    (h : advanceLedgerCheckpointV1 checkpoint next registry digest projection = .ok advanced) :
    advanced.validate registry digest projection = .ok ()
      ∧ advanced.ledgerView registry = .ok next := by
  obtain ⟨_, _, h⟩ := of_bind_ok h
  obtain ⟨_, hnext, h⟩ := of_bind_ok h
  obtain ⟨domains, hbuild, h⟩ := of_bind_ok h
  obtain ⟨_, hvalid, h⟩ := of_bind_ok h
  cases h
  obtain ⟨owner, hledgered⟩ := RegistryV2.validateLedger_ok.mp hnext
  refine ⟨hvalid, LedgerCheckpointV1.ledgerView_eq hledgered rfl rfl (Dict.keys_buildM hbuild) ?_⟩
  intro domain compact hcompact
  obtain ⟨state, hstate, hok⟩ := Dict.lookup_of_buildM hbuild hcompact
  exact ⟨state, hstate, advanceDomain_epoch hok⟩

/-- The compacted history of a domain that is kept. -/
lemma compactedBase_ok (hvalid : checkpoint.Valid registry digest projection domains epochs)
    (h : registry.Ledgered owner next) {minimum : ℤ}
    (hfloor : registry.minimumEpochs.lookup domain = some minimum) (hlow : minimum ≤ state.epoch)
    (hhigh : state.epoch ≤ registry.currentEpochs.getD domain 0)
    (hafter : ∀ compact, domains.lookup domain = some compact →
      compact.compactedThrough ≤ state.epoch) : ∃ compacted prefixDigest,
      compactedBase checkpoint registry domain state = .ok (compacted, prefixDigest)
        ∧ minimum ≤ compacted ∧ compacted ≤ state.epoch
        ∧ registry.migrationPrefixDigest domain compacted = .ok prefixDigest := by
  rw [compactedBase, hvalid.domains_eq, Option.getD_some]
  cases hcompact : domains.lookup domain with
  | some compact =>
    obtain ⟨minimum', hchecked⟩ := hvalid.each domain compact hcompact
    obtain rfl : minimum = minimum' := Option.some.inj (hfloor.symm.trans hchecked.floor)
    exact ⟨_, _, rfl, hchecked.low, hafter compact hcompact, hchecked.digest⟩
  | none =>
    obtain ⟨hone, hretired⟩ :=
      hvalid.missing domain minimum hfloor (Dict.lookup_eq_none_iff.mp hcompact)
    obtain ⟨prefixDigest, hdigest, _⟩ :=
      h.accepted.migrationPrefixDigest_ok h.history hfloor le_rfl (hlow.trans hhigh)
    refine ⟨minimum, prefixDigest, ?_, le_rfl, hlow, hdigest⟩
    simp only [Dict.getD_of_lookup hfloor]
    refine refuse_bind.mpr ⟨?_, ?_⟩
    · rw [not_or, not_or, not_not, not_not, not_lt]
      exact ⟨hone, hlow, hretired⟩
    · rw [hdigest]
      rfl

/-- The domains that are not pinned have no history before the registry. -/
lemma LedgerCheckpointV1.Valid.fresh
    (hvalid : checkpoint.Valid registry digest projection domains epochs) {minimum : ℤ}
    (hfloor : registry.minimumEpochs.lookup domain = some minimum)
    (hnone : epochs.lookup domain = none) : minimum = 1 ∧ registry.retiredDigest domain = [] := by
  cases hcompact : domains.lookup domain with
  | some compact =>
    obtain ⟨minimum', hchecked⟩ := hvalid.each domain compact hcompact
    obtain rfl : minimum = minimum' := Option.some.inj (hfloor.symm.trans hchecked.floor)
    exact hchecked.fresh hnone
  | none => exact hvalid.missing domain minimum hfloor (Dict.lookup_eq_none_iff.mp hcompact)

/-- The pinned epochs of an accepted checkpoint are positive. -/
lemma LedgerCheckpointV1.Valid.pinned_pos
    (hvalid : checkpoint.Valid registry digest projection domains epochs) {epoch : ℤ}
    (hepoch : epochs.lookup domain = some epoch) : 1 ≤ epoch := by
  obtain ⟨compact, hcompact⟩ :=
    Dict.exists_lookup (hvalid.known domain (Dict.mem_keys_of_lookup hepoch))
  obtain ⟨_, hchecked⟩ := hvalid.each domain compact hcompact
  exact (hchecked.legacy epoch hepoch).1

lemma advanceDomain_ok (hvalid : checkpoint.Valid registry digest projection domains epochs)
    (h : registry.Ledgered owner next) (hstate : next.domains.lookup domain = some state)
    (hafter : ∀ compact, domains.lookup domain = some compact →
      compact.compactedThrough ≤ state.epoch)
    (hpinned : ∀ epoch, epochs.lookup domain = some epoch → epoch ≤ state.epoch) :
    ∃ compact minimum, advanceDomain checkpoint registry domain state = .ok compact
      ∧ registry.Checked epochs domain minimum compact := by
  obtain ⟨minimum, hfloor, hlow, hhigh⟩ := h.range hstate
  obtain ⟨compacted, prefixDigest, hbase, hfrom, hthrough, hdigest⟩ :=
    compactedBase_ok hvalid h hfloor hlow hhigh hafter
  refine ⟨⟨state.epoch, compacted, prefixDigest,
    registry.appliedSuffix domain compacted state.epoch⟩, minimum, ?_, ?_⟩
  · rw [advanceDomain, hbase]
    exact refuse_bind.mpr ⟨not_lt.mpr hthrough, rfl⟩
  · exact ⟨hfloor, hfrom, hthrough, hhigh,
      fun epoch hepoch => ⟨hvalid.pinned_pos hepoch, hpinned epoch hepoch⟩,
      fun hnone => hvalid.fresh hfloor hnone, hdigest, rfl⟩

/-- **An accepted checkpoint can be advanced** to a ledger that is nowhere behind what is compacted
or pinned. -/
theorem advanceLedgerCheckpointV1_ok
    (hvalid : checkpoint.Valid registry digest projection domains epochs)
    (h : registry.Ledgered owner next)
    (hafter : ∀ domain compact state, domains.lookup domain = some compact →
      next.domains.lookup domain = some state → compact.compactedThrough ≤ state.epoch)
    (hpinned : ∀ domain epoch state, epochs.lookup domain = some epoch →
      next.domains.lookup domain = some state → epoch ≤ state.epoch) :
    ∃ advanced,
      advanceLedgerCheckpointV1 checkpoint next registry digest projection = .ok advanced := by
  have heach : ∀ domain state, next.domains.lookup domain = some state →
      ∃ compact minimum, advanceDomain checkpoint registry domain state = .ok compact
        ∧ registry.Checked epochs domain minimum compact := fun domain state hstate =>
    advanceDomain_ok hvalid h hstate
      (fun compact hcompact => hafter domain compact state hcompact hstate)
      fun epoch hepoch => hpinned domain epoch state hepoch hstate
  obtain ⟨domains', hbuild⟩ := Dict.exists_buildM (f := advanceDomain checkpoint registry) ∅
    fun domain state hstate => (heach domain state hstate).elim fun compact hcompact =>
      hcompact.elim fun _ hok => ⟨compact, hok.1⟩
  have hkeys : domains'.keys = registry.minimumEpochs.keys := (Dict.keys_buildM hbuild).trans h.keys
  let advanced : LedgerCheckpointV1 := ⟨1, digest, ⟨checkpoint.legacyProjection.exists',
    checkpoint.legacyProjection.fingerprint, some epochs⟩, some domains'⟩
  have hchecked : advanced.Valid registry digest projection domains' epochs := by
    refine ⟨⟨owner, h.history⟩, rfl, hvalid.current, hvalid.current, rfl, rfl, ?_, ?_, ?_, ?_⟩
    · exact hvalid.bound
    · intro domain compact hcompact
      obtain ⟨state, hstate, hok⟩ := Dict.lookup_of_buildM hbuild hcompact
      obtain ⟨compact', minimum, hok', hchecked⟩ := heach domain state hstate
      rw [Except.ok.inj (hok.symm.trans hok')]
      exact ⟨minimum, hchecked⟩
    · intro domain hmem
      obtain ⟨compact, hcompact⟩ := Dict.exists_lookup (hvalid.known domain hmem)
      obtain ⟨minimum, hchecked⟩ := hvalid.each domain compact hcompact
      exact hkeys ▸ Dict.mem_keys_of_lookup hchecked.floor
    · intro domain minimum hfloor hmem
      exact absurd (hkeys ▸ Dict.mem_keys_of_lookup hfloor) hmem
  refine ⟨advanced, check_bind.mpr ⟨LedgerCheckpointV1.validate_ok.mpr ⟨domains, epochs, hvalid⟩,
    check_bind.mpr ⟨RegistryV2.validateLedger_ok.mpr ⟨owner, h⟩, ?_⟩⟩⟩
  rw [hbuild, hvalid.epochs_eq]
  exact check_bind.mpr
    ⟨LedgerCheckpointV1.validate_ok.mpr ⟨domains', epochs, hchecked⟩, rfl⟩

end Advance

end View

end Subyard.Release
