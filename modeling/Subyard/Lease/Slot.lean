import Subyard.Library.Sha256

/-!
The records of the test-VM lease store and the names of its failures.

* `LeaseSlot`, `LeasePool`, `LeaseRecoveryJournal`: the contents of the two state files.
* `LeaseGrant`, `LeaseIdentity`, `LeaseContext`: what the callers hold.
* `clearLease`, `provision`, `withRecovery`: the assignments to several fields of a slot.

Texts are octet lists.  An instant is the number of nanoseconds since the zero instant, which
is the one `IsZero` recognises; the counters are unbounded.
-/

namespace Subyard.Lease

open Text (Bytes str hex)

/-- Nanoseconds since the zero instant. -/
abbrev Time := ℕ

/-- One minute. -/
def minute : Time := 60 * 1000000000

inductive SlotState
  | available
  | provisioning
  | held
  | draining
  | quarantined
  | recovering
  | unavailable
deriving DecidableEq, Repr

/-- The name of a state, as it is persisted and as it stands in messages. -/
def SlotState.text : SlotState → Bytes
  | .available => str "available"
  | .provisioning => str "provisioning"
  | .held => str "held"
  | .draining => str "draining"
  | .quarantined => str "quarantined"
  | .recovering => str "recovering"
  | .unavailable => str "unavailable"

/-- The worker an unacknowledged grant belongs to. -/
structure AcquireOwner where
  pid : ℤ
  start : Bytes
  boot : Bytes
deriving DecidableEq, Repr

structure EnvironmentSpec where
  name : Bytes
  count : ℤ
  cpu : ℤ
  memory : Bytes
  disk : Bytes
  lifecycle : Bytes
deriving DecidableEq, Repr

structure LeaseSlot where
  acquireOwner : Option AcquireOwner := none
  environment : Option EnvironmentSpec := none
  baseFingerprint : Bytes := []
  reserved : Bool := false
  legacyRetained : Bool := false
  slotID : Bytes
  resourceGeneration : ℕ
  leaseEpoch : ℕ := 0
  state : SlotState
  clientID : Bytes := []
  controllerFingerprint : Bytes := []
  displayLabel : Bytes := []
  yard : Bytes := []
  project : Bytes := []
  checkout : Bytes := []
  run : Bytes := []
  purpose : Bytes := []
  leaseID : Bytes := []
  capabilityHash : Bytes := []
  acquiredAt : Time := 0
  provisioningStartedAt : Time := 0
  readyAt : Time := 0
  lastHeartbeatAt : Time := 0
  expiresAt : Time := 0
  failureReason : Bytes := []
  lastFailureEventID : Bytes := []
  incidentID : Bytes := []
  recoveryAttempt : ℕ := 0
  nextRecoveryAt : Time := 0
  recoveryStartedAt : Time := 0
deriving DecidableEq, Repr

structure LeasePool where
  admissionClosed : Bool := false
  schemaVersion : ℤ
  resourceType : Bytes
  resourceID : Bytes
  slots : List LeaseSlot
deriving DecidableEq, Repr

structure LeaseRecoverySlot where
  slotID : Bytes
  resourceGeneration : ℕ
  leaseEpoch : ℕ
  state : SlotState
  lastFailureEventID : Bytes
  incidentID : Bytes
  recoveryAttempt : ℕ
  nextRecoveryAt : Time
  recoveryStartedAt : Time
deriving DecidableEq, Repr

structure LeaseRecoveryJournal where
  schemaVersion : ℤ
  slots : List LeaseRecoverySlot
deriving DecidableEq, Repr

structure LeaseContext where
  schemaVersion : ℤ
  yard : Bytes := []
  project : Bytes
  checkout : Bytes := []
  run : Bytes
  purpose : Bytes
deriving DecidableEq, Repr

/-- The grant an acquire answers with.  The data user and the guest addresses are filled in by
the provisioning that follows and are left out. -/
structure LeaseGrant where
  environment : Option EnvironmentSpec := none
  slotID : Bytes
  resourceGeneration : ℕ := 0
  leaseID : Bytes
  capability : Bytes
  leaseEpoch : ℕ
  expiresAt : Time := 0
  context : Option LeaseContext := none
deriving DecidableEq, Repr

/-- The non-secret identity of one concrete lease-backed VM pair. -/
structure LeaseIdentity where
  slotID : Bytes
  resourceGeneration : ℕ
  leaseEpoch : ℕ
deriving DecidableEq, Repr

/-- The attribution an acquire of a held slot may publish. -/
structure LeaseOwnerSnapshot where
  displayLabel : Bytes
  yard : Bytes
  project : Bytes
  run : Bytes
  purpose : Bytes
  acquiredAt : Time
  expiresAt : Time
deriving DecidableEq, Repr

/-- The evidence attached to a refusal for want of memory. -/
structure MemoryAdmission where
  available : UInt64
  reserve : UInt64
  pendingVM : UInt64
  pendingBuilder : UInt64
  headroom : UInt64
  required : UInt64
  environment : Bytes
  count : ℤ
  slotState : Option SlotState
  limitingSource : Bytes
  visibleAvailable : UInt64
  physicalAvailable : UInt64
  physicalKnown : Bool
  cgroupHeadroom : UInt64
  cgroupKnown : Bool
deriving DecidableEq, Repr

/-- The failures of the store: the sentinels of the source as constructors, every other error
by its message. -/
inductive LeaseError
  | corrupt (detail : Bytes)
  | unsupported
  | readFailed
  | invalidSlot (id : Bytes)
  | slotUnavailable (state : SlotState) (reason : Bytes) (owner : Option LeaseOwnerSnapshot)
  | leaseLost
  | targetStale (detail : Bytes)
  | unknownSlot (id : Bytes)
  | capacity (resource reason : Bytes) (admission : Option MemoryAdmission)
  | randomSource
  | other (message : Bytes)
deriving DecidableEq, Repr

/-! ### Constants -/

def leaseSchemaVersion : ℤ := 2
def leaseFencedSchemaVersion : ℤ := 3
def leaseRecoverySchemaVersion : ℤ := 1
def leaseAttributionSchemaVersion : ℤ := 2
def leaseAttributionSchemaV1 : ℤ := 1
def leaseTTL : Time := 20 * minute
def guestToolchainTimeout : Time := 30 * minute
def provisionedGuestCount : ℕ := 2
def provisioningSafetyMargin : Time := 30 * minute
def provisioningTTL : Time := provisionedGuestCount * guestToolchainTimeout + provisioningSafetyMargin

def heartbeatExpiredReason : Bytes := str "heartbeat expired; cleanup required"
def provisioningExpiredReason : Bytes := str "provisioning deadline expired; cleanup required"
def requesterLostReason : Bytes := str "acquire requester lost; cleanup required"
def poolResizeReason : Bytes := str "pool resize"
def legacyRetirementReason : Bytes := str "explicit legacy retirement"

/-! ### Assignments to several fields -/

/-- `clearLease`: everything the lease wrote, but not the name, the counters, the state and the
legacy mark. -/
def clearLease (slot : LeaseSlot) : LeaseSlot :=
  { slot with
    environment := none
    acquireOwner := none
    baseFingerprint := []
    reserved := false
    clientID := []
    controllerFingerprint := []
    displayLabel := []
    yard := []
    project := []
    checkout := []
    run := []
    purpose := []
    leaseID := []
    capabilityHash := []
    acquiredAt := 0
    provisioningStartedAt := 0
    readyAt := 0
    lastHeartbeatAt := 0
    expiresAt := 0
    failureReason := []
    lastFailureEventID := []
    incidentID := []
    recoveryAttempt := 0
    nextRecoveryAt := 0
    recoveryStartedAt := 0 }

/-- The five fields the recovery journal repeats. -/
def LeaseSlot.withRecovery (slot : LeaseSlot) (recovery : LeaseRecoverySlot) : LeaseSlot :=
  { slot with
    lastFailureEventID := recovery.lastFailureEventID
    incidentID := recovery.incidentID
    recoveryAttempt := recovery.recoveryAttempt
    nextRecoveryAt := recovery.nextRecoveryAt
    recoveryStartedAt := recovery.recoveryStartedAt }

/-- The journal entry of a slot. -/
def LeaseSlot.recovery (slot : LeaseSlot) : LeaseRecoverySlot :=
  { slotID := slot.slotID
    resourceGeneration := slot.resourceGeneration
    leaseEpoch := slot.leaseEpoch
    state := slot.state
    lastFailureEventID := slot.lastFailureEventID
    incidentID := slot.incidentID
    recoveryAttempt := slot.recoveryAttempt
    nextRecoveryAt := slot.nextRecoveryAt
    recoveryStartedAt := slot.recoveryStartedAt }

/-- One of the five fields of the journal is set. -/
def LeaseSlot.carriesRecovery (slot : LeaseSlot) : Bool :=
  slot.lastFailureEventID ≠ [] || slot.incidentID ≠ [] || slot.recoveryAttempt ≠ 0
    || slot.nextRecoveryAt ≠ 0 || slot.recoveryStartedAt ≠ 0

/-- `slotHasRecoveryMetadata`. -/
def slotHasRecoveryMetadata (slot : LeaseSlot) : Bool :=
  slot.state = .quarantined || slot.state = .recovering || slot.carriesRecovery

/-- The identity a grant names. -/
def LeaseGrant.identity (grant : LeaseGrant) : LeaseIdentity :=
  ⟨grant.slotID, grant.resourceGeneration, grant.leaseEpoch⟩

/-- `slotMatchesLeaseIdentity`. -/
def slotMatchesLeaseIdentity (slot : LeaseSlot) (expected : LeaseIdentity) : Bool :=
  slot.slotID = expected.slotID && slot.resourceGeneration = expected.resourceGeneration
    && slot.leaseEpoch = expected.leaseEpoch

/-- `capabilityDigest`. -/
def capabilityDigest (value : Bytes) : Bytes := hex (Sha256.sum256 value)

/-- `randomToken`: the rendering of what the random source delivered, if it did. -/
def randomToken {n : ℕ} : Option (Fin n → UInt8) → Except LeaseError Bytes
  | some payload => .ok (hex (List.ofFn payload))
  | none => .error .randomSource

/-- A digest is never empty. -/
lemma capabilityDigest_ne_nil (value : Bytes) : capabilityDigest value ≠ [] := by
  intro h
  have hlen := congrArg List.length h
  simp [capabilityDigest] at hlen

/-- A drawn token of positive length is never empty. -/
lemma randomToken_ne_nil {n : ℕ} (hn : 0 < n) {draw : Option (Fin n → UInt8)} {token : Bytes}
    (h : randomToken draw = .ok token) : token ≠ [] := by
  rintro rfl
  cases draw with
  | none => simp [randomToken] at h
  | some payload =>
    have hlen := congrArg List.length (Except.ok.inj h)
    simp at hlen
    omega

/-- A drawn token is seven-bit. -/
lemma randomToken_ascii {n : ℕ} {draw : Option (Fin n → UInt8)} {token : Bytes}
    (h : randomToken draw = .ok token) : Text.Ascii token := by
  cases draw with
  | none => simp [randomToken] at h
  | some payload => rw [← Except.ok.inj h]; exact Text.hex_ascii _

end Subyard.Lease
