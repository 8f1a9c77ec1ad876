import Subyard.Library.Json
import Subyard.Lease.Capacity

/-!
The operations of the lease store.

Each operation on one slot is a function `…Slot` of the slot (and of the readings it takes),
which either refuses or gives the changed slot and the answer; the operation itself looks the
slot up under the lock.  The resize and the rebuild work on the pool as a whole.
-/

namespace Subyard.Lease

open Text Fallible

/-- What an operation on one slot makes of it. -/
abbrev SlotOp (α : Type) := LeaseSlot → Except LeaseError (LeaseSlot × α)

/-! ### Acquiring -/

/-- `unavailableSlotReason`. -/
def unavailableSlotReason : SlotState → Bytes
  | .held => str "busy"
  | .provisioning => str "provisioning"
  | .draining => str "draining"
  | .quarantined => str "quarantined"
  | .recovering => str "recovering"
  | .unavailable | .available => str "unavailable"

/-- `leaseOwnerSnapshot`. -/
def leaseOwnerSnapshot (slot : LeaseSlot) : Option LeaseOwnerSnapshot :=
  if slot.state ≠ .held then none
  else some ⟨slot.displayLabel, slot.yard, slot.project, slot.run, slot.purpose, slot.acquiredAt,
    slot.expiresAt⟩

/-- The arguments of the internal `acquireSlot`. -/
structure AcquireRequest where
  clientID : Bytes
  fingerprint : Bytes
  label : Bytes
  purpose : Bytes
  context : Option LeaseContext
  slotID : Bytes
  environment : Option EnvironmentSpec

/-- What the random source delivers to one acquire: the lease id and the capability. -/
structure Draw where
  leaseID : Option (Fin 16 → UInt8)
  capability : Option (Fin 32 → UInt8)

/-- The assignments of an acquire to the slot it found. -/
def LeaseSlot.provision (owner : Option AcquireOwner) (request : AcquireRequest)
    (leaseID capability : Bytes) (now : Time) (slot : LeaseSlot) : LeaseSlot :=
  { slot with
    environment := request.environment <|> slot.environment
    resourceGeneration :=
      if request.environment.isSome then slot.resourceGeneration + 1 else slot.resourceGeneration
    leaseEpoch := slot.leaseEpoch + 1
    state := .provisioning
    acquireOwner := owner
    clientID := request.clientID
    controllerFingerprint := request.fingerprint
    displayLabel := request.label
    yard := request.context.elim slot.yard (·.yard)
    project := request.context.elim slot.project (·.project)
    checkout := request.context.elim slot.checkout (·.checkout)
    run := request.context.elim slot.run (·.run)
    purpose := request.purpose
    leaseID := leaseID
    capabilityHash := capabilityDigest capability
    acquiredAt := now
    provisioningStartedAt := now
    lastHeartbeatAt := now
    expiresAt := now + provisioningTTL
    failureReason := []
    lastFailureEventID := []
    incidentID := []
    recoveryAttempt := 0
    nextRecoveryAt := 0
    recoveryStartedAt := 0 }

/-- The grant for a slot that was just provisioned. -/
def LeaseSlot.grant (slot : LeaseSlot) (request : AcquireRequest) (capability : Bytes) :
    LeaseGrant :=
  { environment := slot.environment
    slotID := slot.slotID
    resourceGeneration := slot.resourceGeneration
    leaseID := slot.leaseID
    capability := capability
    leaseEpoch := slot.leaseEpoch
    expiresAt := slot.expiresAt
    context := request.context }

/-- The part of `acquireSlot` that is about the requested slot. -/
def acquireOnSlot (owner : Option AcquireOwner) (request : AcquireRequest) (draw : Draw)
    (now : Time) : SlotOp LeaseGrant := fun slot => do
  refuse (slot.state ≠ .available)
    (.slotUnavailable slot.state (unavailableSlotReason slot.state) (leaseOwnerSnapshot slot))
  let leaseID ← randomToken draw.leaseID
  let capability ← randomToken draw.capability
  let slot := slot.provision owner request leaseID capability now
  pure (slot, slot.grant request capability)

/-- The checks `acquireSlot` makes on its arguments. -/
def AcquireRequest.validate (request : AcquireRequest) : Except LeaseError Unit := do
  refuse (request.slotID = []) (.invalidSlot [])
  refuse (!safeLeaseText request.clientID 96 ∨ request.clientID = [])
    (.other (str "invalid client_id"))
  refuse (!safeLeaseText request.fingerprint 128 ∨ request.fingerprint = [])
    (.other (str "invalid controller fingerprint"))
  refuse (!safeLeaseText request.label 80 ∨ !safeLeaseText request.purpose 160)
    (.other (str "invalid display metadata"))
  refuse ((request.label ≠ [] ∧ request.context.isNone ∧ !safeLeaseLabel request.label 80)
      ∨ (request.purpose ≠ [] ∧ !safeLeaseLabel request.purpose 80))
    (.other (str "invalid display metadata"))

/-- `acquireSlot`.  The body fences expired leases a second time, at its own reading. -/
def LeaseStore.acquire (store : LeaseStore) (request : AcquireRequest) (draw : Draw) :
    StoreOp LeaseGrant := fun disk => do
  request.validate
  store.withLock (fun pool => do
    let pool := expireStale (store.readings 1) pool
    refuse pool.admissionClosed (.slotUnavailable .unavailable (str "unavailable") none)
    onSlotElse (.invalidSlot request.slotID) request.slotID
      (acquireOnSlot store.acquireOwner request draw (store.now 1)) pool) disk

/-- The name check of the three entry points. -/
def LeaseStore.checkSlotID (store : LeaseStore) (id : Bytes) : Except LeaseError Unit :=
  refuse ((slotNumber id store.slotCount).all fun number => id ≠ slotName number)
    (.invalidSlot id)

/-- `AcquireSlot`. -/
def LeaseStore.acquireSlot (store : LeaseStore) (draw : Draw)
    (clientID fingerprint label purpose slotID : Bytes) : StoreOp LeaseGrant := fun disk => do
  store.checkSlotID slotID
  store.acquire ⟨clientID, fingerprint, label, purpose, legacyLeaseContext label purpose, slotID,
    none⟩ draw disk

/-- `AcquireV2Slot`. -/
def LeaseStore.acquireV2Slot (store : LeaseStore) (draw : Draw)
    (clientID fingerprint yard project run purpose slotID : Bytes) : StoreOp LeaseGrant :=
  fun disk => do
    store.checkSlotID slotID
    let context : LeaseContext :=
      { schemaVersion := leaseAttributionSchemaVersion, yard, project, run, purpose }
    validateLeaseContext context
    store.acquire ⟨clientID, fingerprint, contextDisplayLabel context, purpose, some context,
      slotID, none⟩ draw disk

/-- `AcquireV3Slot`. -/
def LeaseStore.acquireV3Slot (store : LeaseStore) (draw : Draw) (spec : EnvironmentSpec)
    (clientID fingerprint yard project run purpose slotID : Bytes) : StoreOp LeaseGrant :=
  fun disk => do
    spec.validate
    store.checkSlotID slotID
    let context : LeaseContext :=
      { schemaVersion := leaseAttributionSchemaVersion, yard, project, run, purpose }
    validateLeaseContext context
    store.acquire ⟨clientID, fingerprint, contextDisplayLabel context, purpose, some context,
      slotID, some spec⟩ draw disk

/-! ### The holder of a grant -/

/-- `MarkHeld` on the slot. -/
def markHeldSlot (slot : LeaseSlot) (now : Time) : Except LeaseError (LeaseSlot × Time) := do
  refuse (slot.state ≠ .provisioning)
    (.other (str "slot is " ++ slot.state.text ++ str ", not provisioning"))
  pure ({ slot with
      state := .held, readyAt := now, lastHeartbeatAt := now, expiresAt := now + leaseTTL },
    now + leaseTTL)

/-- `MarkHeld`. -/
def LeaseStore.markHeld (store : LeaseStore) (grant : LeaseGrant) : StoreOp Time :=
  store.mutateOwned grant markHeldSlot

/-- `Renew` on the slot. -/
def renewSlot (slot : LeaseSlot) (now : Time) : Except LeaseError (LeaseSlot × Time) := do
  refuse (slot.state ≠ .held ∧ slot.state ≠ .provisioning) .leaseLost
  pure ({ slot with lastHeartbeatAt := now, expiresAt := now + leaseTTL }, now + leaseTTL)

/-- `Renew`. -/
def LeaseStore.renew (store : LeaseStore) (grant : LeaseGrant) : StoreOp Time :=
  store.mutateOwned grant renewSlot

/-- `BeginDrain` on the slot: repeating it is harmless. -/
def beginDrainSlotOwned (slot : LeaseSlot) (_ : Time) : Except LeaseError (LeaseSlot × Unit) :=
  if slot.state = .draining then .ok (slot, ())
  else do
    refuse (slot.state ≠ .held ∧ slot.state ≠ .provisioning) .leaseLost
    pure ({ slot with state := .draining }, ())

/-- `BeginDrain`. -/
def LeaseStore.beginDrain (store : LeaseStore) (grant : LeaseGrant) : StoreOp Unit :=
  store.mutateOwned grant beginDrainSlotOwned

/-- `AbortProvisioning` on the slot. -/
def abortProvisioningSlot (slot : LeaseSlot) (_ : Time) : Except LeaseError (LeaseSlot × Unit) := do
  refuse (slot.state ≠ .provisioning) .leaseLost
  pure ({ clearLease slot with state := .available }, ())

/-- `AbortProvisioning`. -/
def LeaseStore.abortProvisioning (store : LeaseStore) (grant : LeaseGrant) : StoreOp Unit :=
  store.mutateOwned grant abortProvisioningSlot

/-- `Quarantine` on the slot: a cancellation already published owns the drain. -/
def quarantineSlot (cause : Bytes) (slot : LeaseSlot) (now : Time) :
    Except LeaseError (LeaseSlot × Unit) := do
  refuse (slot.state = .draining) .leaseLost
  pure ({ slot with
      state := .quarantined, failureReason := boundedReason cause, nextRecoveryAt := now }, ())

/-- `Quarantine`. -/
def LeaseStore.quarantine (store : LeaseStore) (grant : LeaseGrant) (cause : Bytes) :
    StoreOp Unit :=
  store.mutateOwned grant (quarantineSlot cause)

/-- `handoff`: the acknowledged grant no longer depends on the worker that acquired it. -/
def handoffSlot (slot : LeaseSlot) (_ : Time) : Except LeaseError (LeaseSlot × Unit) := do
  refuse (slot.state ≠ .held) .leaseLost
  pure ({ slot with acquireOwner := none }, ())

/-- The store step of `acquireSession.handoff`. -/
def LeaseStore.handoff (store : LeaseStore) (grant : LeaseGrant) : StoreOp Unit :=
  store.mutateOwned grant handoffSlot

/-- The store step of `acquireSlotLocked` after the retained pair was replaced. -/
def LeaseStore.clearLegacyRetained (store : LeaseStore) (grant : LeaseGrant) : StoreOp Unit :=
  store.mutateOwned grant fun slot _ => .ok ({ slot with legacyRetained := false }, ())

/-- The store step of `prepareEnvironment`: the image is pinned before it is used. -/
def pinBaseSlot (grant : LeaseGrant) (fingerprint : Bytes) : SlotOp Unit := fun slot => do
  refuse (slot.state ≠ .provisioning ∨ slot.leaseID ≠ grant.leaseID
    ∨ slot.leaseEpoch ≠ grant.leaseEpoch) .leaseLost
  pure ({ slot with baseFingerprint := fingerprint }, ())

def LeaseStore.pinBase (store : LeaseStore) (grant : LeaseGrant) (fingerprint : Bytes) :
    StoreOp Unit :=
  store.withLock (onSlot grant.slotID (pinBaseSlot grant fingerprint))

/-! ### Draining -/

/-- The fence of a lease that is still in use. -/
def LeaseSlot.drainFor (reason : Bytes) (slot : LeaseSlot) : LeaseSlot :=
  { slot with state := .draining, failureReason := boundedReason reason }

/-- `BeginDrainAll`. -/
def LeaseStore.beginDrainAll (store : LeaseStore) (reason : Bytes) : StoreOp Unit :=
  store.withLock fun pool => .ok
    ({ pool with slots := pool.slots.map fun slot =>
        if slot.state = .held ∨ slot.state = .provisioning then slot.drainFor reason else slot },
      ())

/-- The message for a slot that is in the wrong state. -/
def slotIs (id : Bytes) (state : SlotState) : Bytes := str "slot " ++ id ++ str " is " ++ state.text

/-- `BeginDrainSlot` on the slot. -/
def beginDrainNamedSlot (reason : Bytes) : SlotOp Unit := fun slot =>
  match slot.state with
  | .available | .draining => .ok (slot, ())
  | .held | .provisioning => .ok (slot.drainFor reason, ())
  | state => .error (.other (slotIs slot.slotID state))

/-- `BeginDrainSlot`. -/
def LeaseStore.beginDrainSlot (store : LeaseStore) (id reason : Bytes) : StoreOp Unit :=
  store.withLock (onSlot id (beginDrainNamedSlot reason))

/-- The refusal of a target that has changed since it was observed. -/
def identityChanged (expected : LeaseIdentity) : LeaseError :=
  .targetStale (str "slot " ++ expected.slotID ++ str " identity changed")

/-- `BeginExpectedDrain` on the slot. -/
def beginExpectedDrainSlot (expected : LeaseIdentity) (reason : Bytes) : SlotOp Bool :=
  fun slot => do
    refuse (!slotMatchesLeaseIdentity slot expected) (identityChanged expected)
    match slot.state with
    | .available => .ok (slot, false)
    | .held | .provisioning => .ok (slot.drainFor reason, true)
    | .draining => .ok (slot, true)
    | state => .error (.other (slotIs expected.slotID state))

/-- `BeginExpectedDrain`. -/
def LeaseStore.beginExpectedDrain (store : LeaseStore) (expected : LeaseIdentity)
    (reason : Bytes) : StoreOp Bool := fun disk => do
  expected.validate
  store.withLock (onSlot expected.slotID (beginExpectedDrainSlot expected reason)) disk

/-- `FinishDrain` on the slot; `stopErr` is the text of the stop error. -/
def finishDrainSlot (stopErr : Option Bytes) (now : Time) : SlotOp Unit := fun slot =>
  if slot.state = .available ∧ stopErr.isNone then .ok (slot, ())
  else do
    refuse (slot.state ≠ .draining) (.other (str "slot " ++ slot.slotID ++ str " is not draining"))
    match stopErr with
    | some text => pure ({ slot with
        state := .quarantined, failureReason := boundedReason text, nextRecoveryAt := now }, ())
    | none => pure ({ clearLease slot with state := .available }, ())

/-- `FinishDrain`. -/
def LeaseStore.finishDrain (store : LeaseStore) (id : Bytes) (stopErr : Option Bytes) :
    StoreOp Unit :=
  store.withLock (onSlot id (finishDrainSlot stopErr (store.now 1)))

/-! ### Quarantine and recovery -/

/-- `SetQuarantineIncident` on the slot. -/
def setQuarantineIncidentSlot (failureEventID incidentID : Bytes) (now : Time) : SlotOp Unit :=
  fun slot => do
    refuse (slot.state ≠ .quarantined ∧ slot.state ≠ .recovering)
      (.other (slotIs slot.slotID slot.state ++ str ", not quarantined"))
    pure ({ slot with
        lastFailureEventID := failureEventID
        incidentID := incidentID
        nextRecoveryAt := if slot.nextRecoveryAt = 0 then now else slot.nextRecoveryAt }, ())

/-- `SetQuarantineIncident`. -/
def LeaseStore.setQuarantineIncident (store : LeaseStore) (id failureEventID incidentID : Bytes) :
    StoreOp Unit := fun disk => do
  refuse (!brokerRecordID failureEventID ∨ !brokerRecordID incidentID)
    (.other (str "invalid quarantine incident identity"))
  store.withLock (onSlot id
    (setQuarantineIncidentSlot failureEventID incidentID (store.now 1))) disk

/-- `InterruptRecovery` on the slot. -/
def interruptRecoverySlot (cause : Bytes) (now : Time) : SlotOp Unit := fun slot => do
  refuse (slot.state ≠ .recovering)
    (.other (slotIs slot.slotID slot.state ++ str ", not recovering"))
  pure ({ slot with
      state := .quarantined
      failureReason := boundedReason cause
      nextRecoveryAt := now
      recoveryStartedAt := 0 }, ())

/-- `InterruptRecovery`. -/
def LeaseStore.interruptRecovery (store : LeaseStore) (id : Bytes) (cause : Option Bytes) :
    StoreOp Unit :=
  match cause with
  | none => fun _ => .error (.other (str "interrupted recovery cause is required"))
  | some text => store.withLock (onSlot id (interruptRecoverySlot text (store.now 1)))

/-- The start of a recovery. -/
def LeaseSlot.recover (now : Time) (slot : LeaseSlot) : LeaseSlot :=
  { slot with
    state := .recovering
    recoveryAttempt := slot.recoveryAttempt + 1
    recoveryStartedAt := now
    nextRecoveryAt := 0 }

/-- `BeginScheduledRecovery` on the slot; the answer is the snapshot, if one is taken, and
whether recovery started. -/
def beginScheduledRecoverySlot (force : Bool) (now : Time) : SlotOp (Option LeaseSlot × Bool) :=
  fun slot =>
    if slot.state = .recovering then .ok (slot, none, false)
    else do
      refuse (slot.state ≠ .quarantined)
        (.other (slotIs slot.slotID slot.state ++ str ", not quarantined"))
      if !force ∧ slot.nextRecoveryAt ≠ 0 ∧ now < slot.nextRecoveryAt then
        pure (slot, some slot, false)
      else pure (slot.recover now, some (slot.recover now), true)

/-- `BeginScheduledRecovery`. -/
def LeaseStore.beginScheduledRecovery (store : LeaseStore) (id : Bytes) (force : Bool) :
    StoreOp (Option LeaseSlot × Bool) :=
  store.withLock (onSlot id (beginScheduledRecoverySlot force (store.now 1)))

/-- `BeginExpectedRecovery` on the slot. -/
def beginExpectedRecoverySlot (expected : LeaseIdentity) (now : Time) : SlotOp (LeaseSlot × Bool) :=
  fun slot => do
    refuse (!slotMatchesLeaseIdentity slot expected) (identityChanged expected)
    match slot.state with
    | .available | .recovering => .ok (slot, slot, false)
    | .quarantined => .ok (slot.recover now, slot.recover now, true)
    | state => .error (.other (slotIs expected.slotID state ++ str ", not quarantined"))

/-- `BeginExpectedRecovery`. -/
def LeaseStore.beginExpectedRecovery (store : LeaseStore) (expected : LeaseIdentity) :
    StoreOp (LeaseSlot × Bool) := fun disk => do
  expected.validate
  store.withLock (onSlot expected.slotID (beginExpectedRecoverySlot expected (store.now 1))) disk

/-- `recoveryDelay`. -/
def recoveryDelay (attempt : ℕ) : Time :=
  match attempt with
  | 0 | 1 => minute
  | 2 => 5 * minute
  | 3 => 15 * minute
  | _ => 60 * minute

/-- A failed recovery is scheduled again. -/
def failedRecoverySlot (cause failureEventID incidentID : Bytes) (now : Time) : SlotOp LeaseSlot :=
  fun slot => do
    refuse (failureEventID ≠ [] ∧ !brokerRecordID failureEventID)
      (.other (str "invalid recovery failure event identity"))
    refuse (incidentID ≠ [] ∧ !brokerRecordID incidentID)
      (.other (str "invalid recovery incident identity"))
    let slot := { slot with
      state := .quarantined
      failureReason := boundedReason cause
      lastFailureEventID := if failureEventID = [] then slot.lastFailureEventID else failureEventID
      incidentID := if incidentID = [] then slot.incidentID else incidentID
      nextRecoveryAt := now + recoveryDelay slot.recoveryAttempt
      recoveryStartedAt := 0 }
    pure (slot, slot)

/-- A recovered slot is free again; the record of what was recovered from stays. -/
def LeaseSlot.recovered (slot : LeaseSlot) : LeaseSlot :=
  { clearLease slot with
    resourceGeneration := slot.resourceGeneration + 1
    state := .available
    lastFailureEventID := slot.lastFailureEventID
    incidentID := slot.incidentID
    recoveryAttempt := slot.recoveryAttempt }

/-- `FinishRecovery` on the slot. -/
def finishRecoverySlot (cause : Option Bytes) (failureEventID incidentID : Bytes) (now : Time) :
    SlotOp LeaseSlot := fun slot => do
  refuse (slot.state ≠ .recovering)
    (.other (slotIs slot.slotID slot.state ++ str ", not recovering"))
  match cause with
  | some text => failedRecoverySlot text failureEventID incidentID now slot
  | none => pure (slot.recovered, slot.recovered)

/-- `FinishRecovery`. -/
def LeaseStore.finishRecovery (store : LeaseStore) (id : Bytes) (cause : Option Bytes)
    (failureEventID incidentID : Bytes) : StoreOp LeaseSlot :=
  store.withLock (onSlot id (finishRecoverySlot cause failureEventID incidentID (store.now 1)))

/-! ### Admission -/

/-- What `PoolOperationBinding` keeps of a slot; the encoder sorts the keys of a map. -/
def bindingEntry (slot : LeaseSlot) : Json :=
  .obj [(str "lease_epoch", .num slot.leaseEpoch), (str "lease_id", .str slot.leaseID),
    (str "resource_generation", .num slot.resourceGeneration), (str "slot_id", .str slot.slotID),
    (str "state", .str slot.state.text)]

/-- `PoolOperationBinding`. -/
def poolOperationBinding (pool : LeasePool) : Bytes :=
  hex (Sha256.sum256 (Json.render (.arr ((sortSlots pool.slots).map bindingEntry))))

/-- `FenceExpectedPool`. -/
def LeaseStore.fenceExpectedPool (store : LeaseStore) (expected : Bytes) : StoreOp Unit :=
  store.withLock fun pool => do
    refuse (expected.length ≠ 64 ∨ poolOperationBinding pool ≠ expected) (.targetStale [])
    pure ({ pool with admissionClosed := true, schemaVersion := leaseFencedSchemaVersion }, ())

/-- `OpenAdmission`. -/
def LeaseStore.openAdmission (store : LeaseStore) : StoreOp Unit :=
  store.withLock fun pool =>
    .ok ({ pool with admissionClosed := false, schemaVersion := leaseSchemaVersion }, ())

/-- `Status`. -/
def LeaseStore.status (store : LeaseStore) : StoreOp LeasePool :=
  store.withLock fun pool => .ok (pool, pool)

/-! ### Resizing -/

/-- A slot that a shrink has fenced already. -/
def LeaseSlot.fencedForResize (slot : LeaseSlot) : Bool :=
  slot.state = .draining && slot.failureReason = poolResizeReason

/-- The reason why a slot beyond the new size cannot be retired. -/
def retireRefusal (slot : LeaseSlot) : Option LeaseError :=
  if slot.legacyRetained then
    some (.other (str "cannot shrink pool: " ++ slot.slotID
      ++ str " requires explicit legacy retirement"))
  else if slot.fencedForResize ∨ slot.state = .available then none
  else some (.other
    (str "cannot shrink pool: retiring " ++ slot.slotID ++ str " is " ++ slot.state.text))

/-- The first refusal among the slots beyond the new size. -/
def checkRetiring (slots : List LeaseSlot) : Except LeaseError Unit :=
  match slots.findSome? retireRefusal with
  | some refusal => .error refusal
  | none => .ok ()

/-- The fence of a slot that is to be retired. -/
def LeaseSlot.retire (slot : LeaseSlot) : LeaseSlot :=
  { slot with state := .draining, failureReason := poolResizeReason }

/-- `PrepareResize`: a pool that is too small grows at once, one that is too large has its last
slots fenced and listed for physical retirement. -/
def LeaseStore.prepareResize (store : LeaseStore) : StoreOp (List LeaseSlot) := fun disk => do
  let pool ← load disk
  if pool.slots.length < store.slotCount then do
    let pool ← reconcileSlotCount pool store.slotCount
    pure (some pool, [])
  else if pool.slots.length = store.slotCount then pure (none, [])
  else do
    checkRetiring (pool.slots.drop store.slotCount)
    let retiring := (pool.slots.drop store.slotCount).map LeaseSlot.retire
    pure (some { pool with slots := pool.slots.take store.slotCount ++ retiring }, retiring)

/-- `ResizePlan`. -/
def LeaseStore.resizePlan (store : LeaseStore) : StoreOp (ℕ × List LeaseSlot) := fun disk => do
  let pool ← load disk
  let retiring := pool.slots.drop store.slotCount
  checkRetiring retiring
  pure (none, pool.slots.length, retiring)

/-- `CommitResize`: the fenced slots leave the pool, and their counters with them. -/
def LeaseStore.commitResize (store : LeaseStore) : StoreOp Unit := fun disk => do
  let pool ← load disk
  refuse (pool.slots.length < store.slotCount) (.other (str "pool resize was not prepared"))
  match (pool.slots.drop store.slotCount).find? fun slot => !slot.fencedForResize with
  | some slot =>
      .error (.other (str "retiring " ++ slot.slotID ++ str " is not fenced for pool resize"))
  | none => pure (some { pool with slots := pool.slots.take store.slotCount }, ())

/-! ### Legacy retirement and the rebuild -/

/-- The first store step of `RetireLegacySlot` on the slot. -/
def retireLegacyBeginSlot (expected : LeaseIdentity) : SlotOp Unit := fun slot => do
  refuse (!slotMatchesLeaseIdentity slot expected) (.targetStale [])
  refuse (!slot.legacyRetained) (.other (str "slot has no legacy retained data"))
  refuse (slot.state ≠ .available ∧ slot.state ≠ .quarantined)
    (.other (str "cannot retire legacy slot while " ++ slot.state.text))
  pure ({ slot with state := .draining, failureReason := legacyRetirementReason }, ())

/-- `RetireLegacySlot` up to its first store step; `configured` is the slot count of the
runtime. -/
def LeaseStore.retireLegacyBegin (store : LeaseStore) (configured : ℕ) (expected : LeaseIdentity) :
    StoreOp Unit := fun disk => do
  refuse ((slotNumber expected.slotID configured).isNone ∨ expected.resourceGeneration = 0)
    (.other (str "complete legacy retirement identity is required"))
  store.withLock (onSlot expected.slotID (retireLegacyBeginSlot expected)) disk

/-- The final store step of `RetireLegacySlot` on the slot. -/
def retireLegacyFinishSlot (expected : LeaseIdentity) : SlotOp Unit := fun slot => do
  refuse (!slotMatchesLeaseIdentity slot expected ∨ slot.state ≠ .draining) (.targetStale [])
  pure ({ clearLease slot with legacyRetained := false, state := .available }, ())

/-- The final store step of `RetireLegacySlot`. -/
def LeaseStore.retireLegacyFinish (store : LeaseStore) (expected : LeaseIdentity) : StoreOp Unit :=
  store.withLock (onSlot expected.slotID (retireLegacyFinishSlot expected))

/-- A slot of the rebuilt pool. -/
def rebuiltSlot (number : ℕ) (reason : Bytes) (now : Time) : LeaseSlot :=
  { slotID := slotName number, resourceGeneration := 1, state := .quarantined,
    legacyRetained := true, failureReason := reason, nextRecoveryAt := now }

/-- The pool `rebuildCorruptPoolForRecovery` starts over with: every slot quarantined.  The
first reading of the clock names the backup, the others date the slots. -/
def LeaseStore.rebuiltPool (store : LeaseStore) (number : ℕ) : LeasePool :=
  { emptyPool with
    slots := (List.range' 1 store.slotCount).map fun index =>
      rebuiltSlot index
        (if index = number then str "operator recovery" else str "lease state recovery required")
        (store.now index) }

/-- `rebuildCorruptPoolForRecovery`.  The two files are renamed away before the new pool is
written. -/
def LeaseStore.rebuildCorruptPoolForRecovery (store : LeaseStore) (id : Bytes) : StoreOp Unit :=
  fun disk =>
    match slotNumber id store.slotCount with
    | none => .error (.other (str "invalid slot id " ++ id))
    | some number =>
        match load disk with
        | .ok _ => .error (.other (str "lease state changed while preparing recovery"))
        | .error e => if e.isCorrupt then .ok (some (store.rebuiltPool number), ()) else .error e

end Subyard.Lease
