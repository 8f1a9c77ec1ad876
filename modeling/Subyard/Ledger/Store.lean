import Subyard.Ledger.Checkpoint
import Subyard.Release.Publication

/-!
The ledger in the protected store: first a record of its own, and once converted the checkpoint,
beside which the old record stays as it is.

* `Records.readMigrationLedger`, `Records.swap`, `Records.convert`: the operations of the store.
* `swap_read`, `convert_read`: **what is read after an operation that succeeds**.
-/

namespace Subyard.Release

open Text Fallible History

/-! ### Written records -/

/-- `ParseLedgerCheckpointV1`. -/
def parseLedgerCheckpointV1 (payload : Bytes) (registry : RegistryV2)
    (registryDigest : Fingerprint) (projection : ProtectedSnapshot) :
    Except Failure LedgerCheckpointV1 := do
  let checkpoint ← (decodeBoundedRecord checkpointFields zeroCheckpoint payload (2 ^ 20)).mapError
    fun _ => .invalid (str "decode migration ledger checkpoint")
  checkpoint.validate registry registryDigest projection
  pure checkpoint

/-- `MarshalLedgerCheckpointV1`. -/
def marshalLedgerCheckpointV1 (checkpoint : LedgerCheckpointV1) (registry : RegistryV2)
    (registryDigest : Fingerprint) (projection : ProtectedSnapshot) : Except Failure Bytes := do
  checkpoint.validate registry registryDigest projection
  pure (recordText (checkpointJSON checkpoint))

section Written

variable {registry : RegistryV2} {owner : RegistryData}

lemma RegistryV2.current_lt (registry : RegistryV2) (domain : Bytes) :
    registry.currentEpochs.getD domain 0 < 2 ^ 63 := by
  rw [Dict.getD]
  cases hcurrent : registry.currentEpochs.lookup domain with
  | none => decide
  | some current => exact registry.machine _ (Dict.mem_sorted.mpr hcurrent)

namespace RegistryV2.Accepted

/-- The epochs of a domain are machine integers. -/
lemma machine64 (h : registry.Accepted owner) {domain : Bytes} {minimum epoch : ℤ}
    (hfloor : registry.minimumEpochs.lookup domain = some minimum) (hlow : minimum ≤ epoch)
    (hhigh : epoch ≤ registry.currentEpochs.getD domain 0) : Machine64 epoch := by
  rw [← h.minimum_eq] at hfloor
  have hone := (h.names domain (Dict.mem_keys_of_lookup hfloor)).2
  rw [Dict.getD_of_lookup hfloor] at hone
  have hlt := registry.current_lt domain
  exact ⟨by omega, by omega⟩

lemma valid_name (h : registry.Accepted owner) {domain : Bytes} {minimum : ℤ}
    (hfloor : registry.minimumEpochs.lookup domain = some minimum) : valid domain := by
  rw [← h.minimum_eq] at hfloor
  exact valid_of_safeID (h.names domain (Dict.mem_keys_of_lookup hfloor)).1

/-- The applied migrations have safe names. -/
lemma valid_applied (h : registry.Accepted owner)
    (howner : registry.historyRegistry = .ok owner) {domain : Bytes} {after through : ℤ} {id : Bytes}
    (hid : id ∈ registry.applied domain after through) : valid id := by
  rw [applied, howner] at hid
  simp only [RegistryData.applied] at hid
  cases hfloor : owner.minimum.lookup domain with
  | none =>
    rw [hfloor] at hid
    cases hid
  | some minimum =>
    simp only [hfloor] at hid
    split at hid
    · cases hid
    · obtain ⟨m, hm, rfl⟩ := List.mem_map.mp hid
      exact valid_of_safeID (h.safe m (List.mem_of_mem_filter hm)).1

end RegistryV2.Accepted

lemma RegistryV2.Ledgered.wellFormed {ledger : LedgerV2} (h : registry.Ledgered owner ledger) :
    ledger.WellFormed := by
  refine ⟨by rw [h.schema]; exact ⟨by decide, by decide⟩, fun domain state hstate => ?_⟩
  obtain ⟨minimum, hfloor, hlow, hhigh⟩ := h.range hstate
  refine ⟨h.accepted.valid_name hfloor, h.accepted.machine64 hfloor hlow hhigh, fun id hid => ?_⟩
  rw [← h.appliedPrefix_eq hstate] at hid
  exact h.accepted.valid_applied h.history hid

section Checkpoint

variable {checkpoint : LedgerCheckpointV1} {registryDigest : Fingerprint}
  {projection : ProtectedSnapshot} {domains : Dict Bytes DomainCheckpoint} {epochs : Dict Bytes ℤ}

/-- The fingerprint of the projection is empty or that of a record. -/
lemma LedgerCheckpointV1.Valid.valid_fingerprint
    (h : checkpoint.Valid registry registryDigest projection domains epochs) :
    valid checkpoint.legacyProjection.fingerprint := by
  obtain ⟨_, hcheck, _⟩ := of_bind_ok h.bound
  rw [ProjectionBinding.checkFingerprint] at hcheck
  split at hcheck
  · exact valid_of_validFingerprint (not_not.mp (refuse_eq_ok.mp hcheck))
  · rw [not_not.mp (refuse_eq_ok.mp hcheck)]
    rfl

lemma LedgerCheckpointV1.Valid.wellFormed
    (h : checkpoint.Valid registry registryDigest projection domains epochs) :
    checkpoint.WellFormed domains epochs := by
  obtain ⟨owner, howner⟩ := h.history
  have haccepted := RegistryV2.historyRegistry_ok howner
  refine ⟨by rw [h.schema]; exact ⟨by decide, by decide⟩, valid_of_validFingerprint h.digest,
    h.valid_fingerprint, h.domains_eq, h.epochs_eq, fun domain state hstate => ?_,
    fun domain epoch hepoch => ?_⟩
  · obtain ⟨minimum, hchecked⟩ := h.each domain state hstate
    have hlow := hchecked.low.trans hchecked.compacted
    obtain ⟨digest, hdigest, hvalid⟩ := haccepted.migrationPrefixDigest_ok howner hchecked.floor
      hchecked.low (hchecked.compacted.trans hchecked.high)
    refine ⟨haccepted.valid_name hchecked.floor, haccepted.machine64 hchecked.floor hlow hchecked.high,
      haccepted.machine64 hchecked.floor hchecked.low (hchecked.compacted.trans hchecked.high), ?_, ?_⟩
    · rw [Except.ok.inj (hchecked.digest.symm.trans hdigest)]
      exact valid_of_validFingerprint hvalid
    · rw [hchecked.suffix]
      exact fun id hid => haccepted.valid_applied howner hid
  · obtain ⟨state, hstate⟩ :=
      Dict.exists_lookup (h.known domain (Dict.mem_keys_of_lookup hepoch))
    obtain ⟨minimum, hchecked⟩ := h.each domain state hstate
    obtain ⟨hone, hle⟩ := hchecked.legacy epoch hepoch
    have hlt := registry.current_lt domain
    have hhigh := hchecked.high
    exact ⟨haccepted.valid_name hchecked.floor, by omega, by omega⟩

/-- **What is written of an accepted checkpoint can be read again.** -/
theorem parse_marshal_checkpoint {payload : Bytes}
    (h : marshalLedgerCheckpointV1 checkpoint registry registryDigest projection = .ok payload)
    (hsize : payload.length ≤ maxProtectedRecordBytes) :
    parseLedgerCheckpointV1 payload registry registryDigest projection = .ok checkpoint := by
  obtain ⟨_, hvalid, h⟩ := of_bind_ok h
  cases h
  obtain ⟨domains, epochs, hchecked⟩ := LedgerCheckpointV1.validate_ok.mp hvalid
  have hdecode : decodeBoundedRecord checkpointFields zeroCheckpoint
      (recordText (checkpointJSON checkpoint)) (2 ^ 20) = .ok checkpoint :=
    decode_checkpoint hchecked.wellFormed hsize
  rw [parseLedgerCheckpointV1, hdecode]
  exact check_bind.mpr ⟨hvalid, rfl⟩

end Checkpoint

/-- **What is written of an accepted ledger can be read again.** -/
theorem parse_marshal_ledger {ledger : LedgerV2} {payload : Bytes}
    (h : marshalLedgerV2 ledger registry = .ok payload)
    (hsize : payload.length ≤ maxProtectedRecordBytes) :
    parseLedgerV2 payload registry = .ok ledger := by
  obtain ⟨_, hvalid, h⟩ := of_bind_ok h
  cases h
  obtain ⟨owner, hledgered⟩ := RegistryV2.validateLedger_ok.mp hvalid
  have hdecode : decodeBoundedRecord ledgerFields ⟨0, none⟩ (recordText (ledgerJSON ledger))
      (2 ^ 20) = .ok ⟨ledger.schemaVersion, some ledger.domains⟩ :=
    decode_ledger hledgered.wellFormed hsize
  rw [parseLedgerV2, hdecode]
  exact check_bind.mpr ⟨hvalid, rfl⟩

end Written

/-! ### The operations of the store -/

/-- `MigrationLedgerSnapshot`. -/
structure MigrationLedgerSnapshot where
  ledger : LedgerV2
  checkpoint : LedgerCheckpointV1
  authoritySnapshot : ProtectedSnapshot
  projectionSnapshot : ProtectedSnapshot
  checkpointed : Bool
deriving DecidableEq

/-- The ledger of a store without a checkpoint. -/
def plainLedger (projection : ProtectedSnapshot) (registry : RegistryV2) :
    Except Failure LedgerV2 :=
  if projection.exists' then parseLedgerV2 projection.payload registry
  else .ok (baselineLedgerV2 registry)

/-- `ParseMigrationLedger`. -/
def parseMigrationLedger (projection checkpointSnapshot : ProtectedSnapshot)
    (registry : RegistryV2) (registryDigest : Fingerprint) :
    Except Failure MigrationLedgerSnapshot := do
  let _ ← registry.historyRegistry
  refuse (¬ validProtectedSnapshot projection ∨ ¬ validProtectedSnapshot checkpointSnapshot)
    (.invalid (str "migration ledger snapshots are malformed"))
  if checkpointSnapshot.exists' then do
    let checkpoint ← parseLedgerCheckpointV1 checkpointSnapshot.payload registry registryDigest
      projection
    let ledger ← checkpoint.ledgerView registry
    pure ⟨ledger, checkpoint, checkpointSnapshot, projection, true⟩
  else do
    let ledger ← plainLedger projection registry
    pure ⟨ledger, zeroCheckpoint, projection, projection, false⟩

/-- The epoch of a domain of a registry in a ledger that may lack it. -/
def epochAt (source : LedgerV2) (registry : RegistryV2) (domain : Bytes) (minimum : ℤ) :
    Except Failure ℤ :=
  match source.domains.lookup domain with
  | some state => pure state.epoch
  | none => do
      refuse (minimum ≠ 1 ∨ registry.retiredDigest domain ≠ [])
        (.invalid (str "migration ledger cannot prove newly added domain " ++ quoted domain))
      pure minimum

def outsideFloor (domain : Bytes) : Failure :=
  .invalid (str "migration domain " ++ quoted domain
    ++ str " is outside the checkpoint registry floor")

/-- One round of the loop of `ledgerAtRegistryEpochs`. -/
def domainAtRegistryEpochs (source : LedgerV2) (registry : RegistryV2) (domain : Bytes)
    (minimum : ℤ) : Except Failure DomainState := do
  let epoch ← epochAt source registry domain minimum
  refuse (epoch < minimum ∨ epoch > registry.currentEpochs.getD domain 0) (outsideFloor domain)
  pure ⟨epoch, registry.appliedPrefix domain epoch⟩

def ledgerAtRegistryEpochs (source : LedgerV2) (registry : RegistryV2) :
    Except Failure LedgerV2 := do
  source.domains.sorted.forM fun (domain, _) =>
    refuse ((registry.minimumEpochs.lookup domain).isNone)
      (.invalid (str "migration ledger contains removed domain " ++ quoted domain))
  let domains ← Dict.buildM (domainAtRegistryEpochs source registry) registry.minimumEpochs ∅
  let ledger : LedgerV2 := ⟨2, domains⟩
  registry.validateLedger ledger
  pure ledger

def sameLedgerV2 (left right : LedgerV2) : Bool :=
  left.schemaVersion = right.schemaVersion
    && left.domains.keys.card = right.domains.keys.card
    && left.domains.sorted.all fun (domain, state) => right.domains.lookup domain = some state

/-- The check of one domain in `checkpointFullyCompactsLedger`. -/
def fullyCompacted (registry : RegistryV2) (domain : Bytes) (state : DomainState)
    (compacted : DomainCheckpoint) : Bool :=
  compacted.epoch = state.epoch && compacted.compactedThrough = state.epoch
    && compacted.appliedSuffix = []
    && registry.migrationPrefixDigest domain state.epoch = .ok compacted.prefixDigest

def checkpointFullyCompactsLedger (checkpoint : LedgerCheckpointV1) (ledger : LedgerV2)
    (registry : RegistryV2) : Bool :=
  let domains := checkpoint.domains.getD ∅
  domains.keys.card = ledger.domains.keys.card
    && ledger.domains.sorted.all fun (domain, state) =>
      ((domains.lookup domain).map (fullyCompacted registry domain state)).getD false

namespace MigrationLedgerSnapshot

/-- The store still is as the caller saw it. -/
def checkUnchanged (current expected : MigrationLedgerSnapshot) : Except Failure Unit :=
  refuse (current.checkpointed ≠ expected.checkpointed
    ∨ current.authoritySnapshot ≠ expected.authoritySnapshot
    ∨ current.projectionSnapshot ≠ expected.projectionSnapshot) .stale

/-- The epochs a conversion pins. -/
def legacyEpochs (current : MigrationLedgerSnapshot) : Dict Bytes ℤ :=
  if current.checkpointed then current.checkpoint.legacyProjection.epochs.getD ∅
  else Dict.build (fun _ state => state.epoch) current.ledger.domains ∅

/-- The snapshot already is what a conversion to the registry would publish. -/
def converts (published expected : MigrationLedgerSnapshot) (registry : RegistryV2) : Bool :=
  published.checkpointed && published.projectionSnapshot = expected.projectionSnapshot
    && match ledgerAtRegistryEpochs expected.ledger registry with
      | .ok want => sameLedgerV2 published.ledger want
          && checkpointFullyCompactsLedger published.checkpoint want registry
      | .error _ => false

end MigrationLedgerSnapshot

/-- The check of one domain in `ConvertMigrationLedger`, which has no place for new domains. -/
def checkFloor (ledger : LedgerV2) (registry : RegistryV2) (domain : Bytes) (minimum : ℤ) :
    Except Failure Unit :=
  match ledger.domains.lookup domain with
  | none => .error (outsideFloor domain)
  | some state =>
      refuse (state.epoch < minimum ∨ state.epoch > registry.currentEpochs.getD domain 0)
        (outsideFloor domain)

/-- The two records of the ledger. -/
structure Records where
  ledger : Cell := {}
  checkpoint : Cell := {}
deriving DecidableEq

namespace Records

/-- `ReadMigrationLedger`. -/
def readMigrationLedger (s : Records) (registry : RegistryV2) (registryDigest : Fingerprint) :
    Except Failure MigrationLedgerSnapshot := do
  let checkpointSnapshot ← readProtected s.checkpoint.record
  let projection ← readProtected s.ledger.record
  parseMigrationLedger projection checkpointSnapshot registry registryDigest

/-- The end of `CompareAndSwapMigrationLedger` where there is a checkpoint. -/
def swapCheckpoint (s : Records) (expected : MigrationLedgerSnapshot) (next : LedgerV2)
    (registry : RegistryV2) (registryDigest : Fingerprint) : Except Failure Records := do
  let checkpoint ← advanceLedgerCheckpointV1 expected.checkpoint next registry registryDigest
    expected.projectionSnapshot
  let payload ← marshalLedgerCheckpointV1 checkpoint registry registryDigest
    expected.projectionSnapshot
  let cell ← s.checkpoint.compareAndSwap expected.authoritySnapshot payload
  pure { s with checkpoint := cell }

/-- The end of `CompareAndSwapMigrationLedger` where there is none. -/
def swapLedger (s : Records) (expected : MigrationLedgerSnapshot) (next : LedgerV2)
    (registry : RegistryV2) : Except Failure Records := do
  let payload ← marshalLedgerV2 next registry
  let cell ← s.ledger.compareAndSwap expected.authoritySnapshot payload
  pure { s with ledger := cell }

def compareAndSwapMigrationLedger (s : Records) (expected : MigrationLedgerSnapshot)
    (next : LedgerV2) (registry : RegistryV2) (registryDigest : Fingerprint) :
    Except Failure Records := do
  registry.validateLedger next
  let current ← s.readMigrationLedger registry registryDigest
  current.checkUnchanged expected
  if expected.checkpointed then s.swapCheckpoint expected next registry registryDigest
  else s.swapLedger expected next registry

/-- The publication of a converted checkpoint. -/
def publish (s : Records) (current : MigrationLedgerSnapshot) (payload : Bytes) :
    Except Failure Records :=
  if current.checkpointed then do
    let cell ← s.checkpoint.compareAndSwap current.authoritySnapshot payload
    pure { s with checkpoint := cell }
  else do
    let cell ← s.checkpoint.createImmutable payload
    pure { s with checkpoint := cell }

/-- `ConvertMigrationLedger` after the check for an earlier one that got as far as to publish. -/
def convertFrom (s : Records) (expected : MigrationLedgerSnapshot) (predecessor : RegistryV2)
    (predecessorDigest : Fingerprint) (registry : RegistryV2) (registryDigest : Fingerprint) :
    Except Failure Records := do
  let current ← s.readMigrationLedger predecessor predecessorDigest
  current.checkUnchanged expected
  registry.retiredPrefixes.sorted.forM fun (domain, retired) =>
    refuse (predecessor.migrationPrefixDigest domain retired.throughEpoch ≠ .ok retired.digest)
      (.invalid (str "retired migration prefix for domain " ++ quoted domain
        ++ str " does not match predecessor history"))
  let ledger ← ledgerAtRegistryEpochs current.ledger registry
  registry.minimumEpochs.sorted.forM fun (domain, minimum) =>
    checkFloor current.ledger registry domain minimum
  registry.validateLedger ledger
  let checkpoint ← newLedgerCheckpointV1 ledger registry registryDigest
    current.projectionSnapshot current.legacyEpochs
  let payload ← marshalLedgerCheckpointV1 checkpoint registry registryDigest
    current.projectionSnapshot
  s.publish current payload

def convertMigrationLedger (s : Records) (expected : MigrationLedgerSnapshot)
    (predecessor : RegistryV2) (predecessorDigest : Fingerprint) (registry : RegistryV2)
    (registryDigest : Fingerprint) : Except Failure Records :=
  match s.readMigrationLedger registry registryDigest with
  | .ok published =>
      if published.converts expected registry then .ok s
      else s.convertFrom expected predecessor predecessorDigest registry registryDigest
  | .error _ => s.convertFrom expected predecessor predecessorDigest registry registryDigest

end Records

/-! ### What is read -/

section Read

variable {registry : RegistryV2} {owner : RegistryData} {registryDigest : Fingerprint}

/-- The ledger of a store in which nothing was written yet is accepted. -/
lemma baseline_ledgered (howner : registry.historyRegistry = .ok owner) :
    registry.Ledgered owner (baselineLedgerV2 registry) := by
  have h := RegistryV2.historyRegistry_ok howner
  have hlookup : ∀ domain, (baselineLedgerV2 registry).domains.lookup domain
      = (owner.minimum.lookup domain).map fun minimum => ⟨minimum, []⟩ := by
    intro domain
    rw [baselineLedgerV2, Dict.lookup_build, Finmap.lookup_empty, Option.or_none, h.minimum_eq]
  have hepoch : ∀ domain minimum, owner.minimum.lookup domain = some minimum →
      Domains.epoch (baselineLedgerV2 registry).domains domain = minimum := by
    intro domain minimum hfloor
    have hstate : (baselineLedgerV2 registry).domains.lookup domain = some ⟨minimum, []⟩ := by
      rw [hlookup, hfloor]
      rfl
    exact RegistryData.epoch_of_lookup hstate
  -- no migration ends at or before the minimum of its domain
  have hafter : ∀ m ∈ owner.migrations, owner.minimum.getD m.domain 0 < m.toEpoch := by
    intro m hm
    have hlow := h.low m hm
    have hstep := h.step m hm
    omega
  refine ⟨howner, rfl, ?_, ?_, ?_, ?_⟩
  · rw [baselineLedgerV2, Dict.keys_build, h.minimum_eq]
  · intro domain hmem
    obtain ⟨minimum, hfloor⟩ := Dict.exists_lookup hmem
    have hle := h.le domain
    rw [Dict.getD_of_lookup hfloor] at hle ⊢
    rw [hepoch domain minimum hfloor]
    exact ⟨le_rfl, hle⟩
  · intro domain state hstate
    rw [hlookup, Option.map_eq_some_iff] at hstate
    obtain ⟨minimum, hfloor, rfl⟩ := hstate
    symm
    rw [RegistryData.prefixIDs, List.map_eq_nil_iff, List.filter_eq_nil_iff]
    intro m hm hpass
    rw [decide_eq_true_eq] at hpass
    have hlt := hafter m hm
    rw [hpass.1, Dict.getD_of_lookup hfloor] at hlt
    exact absurd hpass.2 (not_le.mpr hlt)
  · intro m hm hhas
    obtain ⟨minimum, hfloor⟩ := Dict.exists_lookup (h.safe m hm).2
    have hlt := hafter m hm
    rw [Domains.Has, hepoch m.domain minimum hfloor] at hhas
    rw [Dict.getD_of_lookup hfloor] at hlt
    exact absurd hhas (not_le.mpr hlt)

/-- The two cases of what is read. -/
inductive Records.Served (s : Records) (registry : RegistryV2) (registryDigest : Fingerprint) :
    MigrationLedgerSnapshot → Prop
  | checkpoint {stored projection : ProtectedSnapshot} {checkpoint : LedgerCheckpointV1}
      {ledger : LedgerV2} (hstored : readProtected s.checkpoint.record = .ok stored)
      (hexists : stored.exists') (hprojection : readProtected s.ledger.record = .ok projection)
      (hparse : parseLedgerCheckpointV1 stored.payload registry registryDigest projection
        = .ok checkpoint)
      (hview : checkpoint.ledgerView registry = .ok ledger) :
      Served s registry registryDigest ⟨ledger, checkpoint, stored, projection, true⟩
  | plain {stored projection : ProtectedSnapshot} {ledger : LedgerV2} {owner : RegistryData}
      (hstored : readProtected s.checkpoint.record = .ok stored) (hexists : ¬ stored.exists')
      (hprojection : readProtected s.ledger.record = .ok projection)
      (howner : registry.historyRegistry = .ok owner)
      (hledger : plainLedger projection registry = .ok ledger) :
      Served s registry registryDigest ⟨ledger, zeroCheckpoint, projection, projection, false⟩

namespace Records

variable {s s' : Records} {snapshot expected : MigrationLedgerSnapshot}

/-- **What `ReadMigrationLedger` answers.** -/
theorem readMigrationLedger_ok : s.readMigrationLedger registry registryDigest = .ok snapshot
    ↔ s.Served registry registryDigest snapshot := by
  constructor
  · intro h
    obtain ⟨stored, hstored, h⟩ := of_bind_ok h
    obtain ⟨projection, hprojection, h⟩ := of_bind_ok h
    obtain ⟨owner, howner, h⟩ := of_bind_ok h
    obtain ⟨_, h⟩ := refuse_bind.mp h
    by_cases hexists : stored.exists'
    · rw [if_pos hexists] at h
      obtain ⟨checkpoint, hparse, h⟩ := of_bind_ok h
      obtain ⟨ledger, hview, h⟩ := of_bind_ok h
      cases h
      exact .checkpoint hstored hexists hprojection hparse hview
    · rw [if_neg hexists] at h
      obtain ⟨ledger, hledger, h⟩ := of_bind_ok h
      cases h
      exact .plain hstored hexists hprojection howner hledger
  · intro h
    have hvalid : ∀ {stored projection : ProtectedSnapshot},
        readProtected s.checkpoint.record = .ok stored →
        readProtected s.ledger.record = .ok projection →
        ¬ (¬ validProtectedSnapshot projection ∨ ¬ validProtectedSnapshot stored) := by
      intro stored projection hstored hprojection
      rw [not_or, not_not, not_not]
      exact ⟨(readProtected_ok hprojection).1, (readProtected_ok hstored).1⟩
    cases h with
    | @checkpoint stored projection checkpoint ledger hstored hexists hprojection hparse hview =>
      obtain ⟨_, _, hvalidate⟩ := of_bind_ok hparse
      obtain ⟨_, hchecked, _⟩ := of_bind_ok hvalidate
      obtain ⟨_, _, hchecked⟩ := LedgerCheckpointV1.validate_ok.mp hchecked
      obtain ⟨owner, howner⟩ := hchecked.history
      rw [readMigrationLedger, hstored, hprojection]
      show parseMigrationLedger projection stored registry registryDigest = _
      rw [parseMigrationLedger, howner]
      refine refuse_bind.mpr ⟨hvalid hstored hprojection, ?_⟩
      rw [if_pos hexists, hparse]
      show (checkpoint.ledgerView registry >>= _) = _
      rw [hview]
      rfl
    | @plain stored projection ledger owner hstored hexists hprojection howner hledger =>
      rw [readMigrationLedger, hstored, hprojection]
      show parseMigrationLedger projection stored registry registryDigest = _
      rw [parseMigrationLedger, howner]
      refine refuse_bind.mpr ⟨hvalid hstored hprojection, ?_⟩
      rw [if_neg hexists, hledger]
      rfl

/-- What is read is an accepted ledger. -/
lemma Served.ledgered (h : s.Served registry registryDigest snapshot) :
    ∃ owner, registry.Ledgered owner snapshot.ledger := by
  cases h with
  | checkpoint _ _ _ _ hview =>
    obtain ⟨_, hview⟩ := refuse_bind.mp hview
    obtain ⟨domains, _, hview⟩ := of_bind_ok hview
    obtain ⟨_, hvalid, hview⟩ := of_bind_ok hview
    cases hview
    exact RegistryV2.validateLedger_ok.mp hvalid
  | @plain _ projection ledger owner _ _ _ howner hledger =>
    rw [plainLedger] at hledger
    split at hledger
    · obtain ⟨record, _, hledger⟩ := of_bind_ok hledger
      obtain ⟨_, hvalid, hledger⟩ := of_bind_ok hledger
      cases hledger
      exact RegistryV2.validateLedger_ok.mp hvalid
    · cases hledger
      exact ⟨owner, baseline_ledgered howner⟩

/-- A checkpoint that was published is read. -/
lemma read_published {checkpoint : LedgerCheckpointV1} {ledger : LedgerV2} {payload : Bytes}
    {projection : ProtectedSnapshot} (hprojection : readProtected s.ledger.record = .ok projection)
    (hmarshal : marshalLedgerCheckpointV1 checkpoint registry registryDigest projection
      = .ok payload)
    (hview : checkpoint.ledgerView registry = .ok ledger) (hne : payload ≠ [])
    (hsize : payload.length ≤ maxProtectedRecordBytes) :
    Served { s with checkpoint := { record := some payload } } registry registryDigest
      ⟨ledger, checkpoint, snapshotOf payload, projection, true⟩ :=
  .checkpoint (readProtected_some hne hsize) rfl hprojection (parse_marshal_checkpoint hmarshal hsize)
    hview

lemma of_checkUnchanged {current : MigrationLedgerSnapshot}
    (h : current.checkUnchanged expected = .ok ()) :
    current.checkpointed = expected.checkpointed
      ∧ current.authoritySnapshot = expected.authoritySnapshot
      ∧ current.projectionSnapshot = expected.projectionSnapshot := by
  have hpass := refuse_eq_ok.mp h
  rwa [not_or, not_or, not_not, not_not, not_not] at hpass

/-! ### What is read after an operation -/

/-- **After a swap that succeeds the new ledger is read.** -/
theorem swap_read {next : LedgerV2}
    (h : s.compareAndSwapMigrationLedger expected next registry registryDigest = .ok s') :
    ∃ snapshot, s'.readMigrationLedger registry registryDigest = .ok snapshot
      ∧ snapshot.ledger = next := by
  obtain ⟨_, hnext, h⟩ := of_bind_ok h
  obtain ⟨current, hcurrent, h⟩ := of_bind_ok h
  obtain ⟨_, hsame, hswap⟩ := of_bind_ok h
  obtain ⟨hcheckpointed, _, hprojection⟩ := of_checkUnchanged hsame
  cases readMigrationLedger_ok.mp hcurrent with
  | checkpoint _ _ hledger _ _ =>
    rw [if_pos hcheckpointed.symm, swapCheckpoint] at hswap
    obtain ⟨checkpoint, hadvance, hswap⟩ := of_bind_ok hswap
    obtain ⟨payload, hmarshal, hswap⟩ := of_bind_ok hswap
    obtain ⟨cell, hcell, hswap⟩ := of_bind_ok hswap
    cases hswap
    obtain ⟨rfl, hne, hsize⟩ := Cell.compareAndSwap_ok hcell
    have hview := (ledgerView_advance hadvance).2
    rw [← hprojection] at hmarshal
    exact ⟨_, readMigrationLedger_ok.mpr (read_published hledger hmarshal hview hne hsize), rfl⟩
  | @plain stored _ _ owner hstored hexists _ howner _ =>
    rw [if_neg (by rw [← hcheckpointed]; simp), swapLedger] at hswap
    obtain ⟨payload, hmarshal, hswap⟩ := of_bind_ok hswap
    obtain ⟨cell, hcell, hswap⟩ := of_bind_ok hswap
    cases hswap
    obtain ⟨rfl, hne, hsize⟩ := Cell.compareAndSwap_ok hcell
    exact ⟨_, readMigrationLedger_ok.mpr (.plain hstored hexists (readProtected_some hne hsize)
      howner (parse_marshal_ledger hmarshal hsize)), rfl⟩

/-- The record of the ledger is the projection that is read. -/
lemma Served.projection (h : s.Served registry registryDigest snapshot) :
    readProtected s.ledger.record = .ok snapshot.projectionSnapshot := by
  cases h with
  | checkpoint _ _ hprojection _ _ => exact hprojection
  | plain _ _ hprojection _ _ => exact hprojection

/-- What is published after a conversion is the new checkpoint. -/
lemma publish_ok {current : MigrationLedgerSnapshot} {payload : Bytes}
    (hcurrent : s.Served registry registryDigest current) (h : s.publish current payload = .ok s') :
    s' = { s with checkpoint := { record := some payload } } ∧ payload ≠ []
      ∧ payload.length ≤ maxProtectedRecordBytes := by
  cases hcurrent with
  | checkpoint _ _ _ _ _ =>
    obtain ⟨cell, hcell, h⟩ := of_bind_ok h
    cases h
    obtain ⟨rfl, hne, hsize⟩ := Cell.compareAndSwap_ok hcell
    exact ⟨rfl, hne, hsize⟩
  | plain hstored hexists _ _ _ =>
    obtain ⟨cell, hcell, h⟩ := of_bind_ok h
    cases h
    obtain ⟨rfl, hne, hsize⟩ := Cell.createImmutable_ok hstored hexists hcell
    exact ⟨rfl, hne, hsize⟩

/-- **After a conversion that succeeds the ledger at the epochs of the successor is read.** -/
theorem convertFrom_read {predecessor : RegistryV2} {predecessorDigest : Fingerprint}
    (h : s.convertFrom expected predecessor predecessorDigest registry registryDigest = .ok s') :
    ∃ current snapshot, s.readMigrationLedger predecessor predecessorDigest = .ok current
      ∧ s'.readMigrationLedger registry registryDigest = .ok snapshot ∧ snapshot.checkpointed
      ∧ ledgerAtRegistryEpochs current.ledger registry = .ok snapshot.ledger := by
  obtain ⟨current, hcurrent, h⟩ := of_bind_ok h
  obtain ⟨_, _, h⟩ := of_bind_ok h
  obtain ⟨_, _, h⟩ := of_bind_ok h
  obtain ⟨ledger, hledger, h⟩ := of_bind_ok h
  obtain ⟨_, _, h⟩ := of_bind_ok h
  obtain ⟨_, _, h⟩ := of_bind_ok h
  obtain ⟨checkpoint, hnew, h⟩ := of_bind_ok h
  obtain ⟨payload, hmarshal, h⟩ := of_bind_ok h
  have hserved := readMigrationLedger_ok.mp hcurrent
  obtain ⟨rfl, hne, hsize⟩ := publish_ok hserved h
  exact ⟨current, _, hcurrent, readMigrationLedger_ok.mpr
    (read_published hserved.projection hmarshal (ledgerView_new hnew) hne hsize), rfl, hledger⟩

/-- A ledger keeps its epochs under its own registry. -/
lemma ledgerAtRegistryEpochs_self {ledger : LedgerV2} (h : registry.Ledgered owner ledger) :
    ledgerAtRegistryEpochs ledger registry = .ok ledger := by
  have hknown : (ledger.domains.sorted.forM fun (domain, _) =>
      refuse ((registry.minimumEpochs.lookup domain).isNone)
        (Failure.invalid (str "migration ledger contains removed domain " ++ quoted domain)))
      = .ok () := by
    refine Dict.forM_sorted.mpr fun domain state hstate => refuse_eq_ok.mpr ?_
    exact Dict.not_isNone_lookup_iff.mpr (h.keys ▸ Dict.mem_keys_of_lookup hstate)
  have heach : ∀ domain minimum, registry.minimumEpochs.lookup domain = some minimum →
      ∃ state, ledger.domains.lookup domain = some state
        ∧ domainAtRegistryEpochs ledger registry domain minimum = .ok state := by
    intro domain minimum hfloor
    obtain ⟨state, hstate⟩ := Dict.exists_lookup (h.keys ▸ Dict.mem_keys_of_lookup hfloor)
    obtain ⟨minimum', hfloor', hlow, hhigh⟩ := h.range hstate
    obtain rfl : minimum = minimum' := Option.some.inj (hfloor.symm.trans hfloor')
    refine ⟨state, hstate, ?_⟩
    rw [domainAtRegistryEpochs, epochAt, hstate]
    refine refuse_bind.mpr ⟨by omega, ?_⟩
    rw [h.appliedPrefix_eq hstate]
    rfl
  obtain ⟨domains, hbuild⟩ := Dict.exists_buildM (f := domainAtRegistryEpochs ledger registry) ∅
    fun domain minimum hfloor => (heach domain minimum hfloor).elim fun state hstate =>
      ⟨state, hstate.2⟩
  have hdomains : domains = ledger.domains := by
    refine Finmap.ext_lookup fun domain => ?_
    cases hfloor : registry.minimumEpochs.lookup domain with
    | some minimum =>
      obtain ⟨state, hstate, hok⟩ := heach domain minimum hfloor
      obtain ⟨state', hstate', hok'⟩ := Dict.lookup_buildM hbuild hfloor
      rw [hstate, hstate', Except.ok.inj (hok.symm.trans hok')]
    | none =>
      have habsent := Dict.lookup_eq_none_iff.mp hfloor
      rw [Dict.lookup_eq_none_iff.mpr (Dict.keys_buildM hbuild ▸ habsent),
        Dict.lookup_eq_none_iff.mpr (h.keys ▸ habsent)]
  have hsame : (⟨2, ledger.domains⟩ : LedgerV2) = ledger := by rw [← h.schema]
  refine check_bind.mpr ⟨hknown, ?_⟩
  rw [hbuild, hdomains]
  show (registry.validateLedger ⟨2, ledger.domains⟩ >>= _) = _
  rw [hsame, RegistryV2.validateLedger_ok.mpr ⟨owner, h⟩]
  rfl

/-- **A conversion under the same registry does not change the ledger that is read.** -/
theorem convert_read
    (h : s.convertMigrationLedger expected registry registryDigest registry registryDigest = .ok s')
    (hread : s.readMigrationLedger registry registryDigest = .ok snapshot) :
    ∃ snapshot', s'.readMigrationLedger registry registryDigest = .ok snapshot'
      ∧ snapshot'.ledger = snapshot.ledger := by
  rw [convertMigrationLedger, hread] at h
  simp only [] at h
  split at h
  · cases h
    exact ⟨snapshot, hread, rfl⟩
  · obtain ⟨current, snapshot', hcurrent, hread', _, hledger⟩ := convertFrom_read h
    obtain rfl : current = snapshot := Except.ok.inj (hcurrent.symm.trans hread)
    obtain ⟨owner, hledgered⟩ := (readMigrationLedger_ok.mp hcurrent).ledgered
    rw [ledgerAtRegistryEpochs_self hledgered] at hledger
    exact ⟨snapshot', hread', (Except.ok.inj hledger).symm⟩

end Records

end Read

end Subyard.Release
