import Subyard.Library.Pointwise
import Subyard.Lease.Checks

/-!
The two files of the lease store and what an operation does under its lock.

* `load`: the pool that the main file and the recovery journal describe.
* `writePool`: the journal is replaced (or removed) first, the main file second.
* `openPool`, `withLock`: every ordinary operation loads the pool, adds missing slots, fences
  expired leases and only then runs its body.

An operation is a decision about the files: it fails, or it answers and names the pool to write,
if any.  An I/O error while writing is not modelled; a crash between the two files is
(`writeJournal` without `writeMain`).
-/

namespace Subyard.Lease

open Text Fallible

/-! ### The files -/

/-- What reading a state file gives: no file, an I/O error, a text that does not decode, or the
value `json.Unmarshal` makes of the text. -/
inductive File (α : Type)
  | absent
  | unreadable
  | garbage
  | doc (value : α)
deriving DecidableEq

/-- The state file and the recovery journal next to it. -/
structure Disk where
  main : File LeasePool
  journal : File LeaseRecoveryJournal
deriving DecidableEq

/-- No lease store was ever written. -/
def emptyDisk : Disk := ⟨.absent, .absent⟩

def AcquireOwner.image (owner : AcquireOwner) : AcquireOwner :=
  { owner with start := coerce owner.start, boot := coerce owner.boot }

def EnvironmentSpec.image (spec : EnvironmentSpec) : EnvironmentSpec :=
  { spec with
    name := coerce spec.name
    memory := coerce spec.memory
    disk := coerce spec.disk
    lifecycle := coerce spec.lifecycle }

/-- A slot as it is read back from JSON: every text is coerced to UTF-8. -/
def LeaseSlot.image (slot : LeaseSlot) : LeaseSlot :=
  { slot with
    acquireOwner := slot.acquireOwner.map AcquireOwner.image
    environment := slot.environment.map EnvironmentSpec.image
    baseFingerprint := coerce slot.baseFingerprint
    slotID := coerce slot.slotID
    clientID := coerce slot.clientID
    controllerFingerprint := coerce slot.controllerFingerprint
    displayLabel := coerce slot.displayLabel
    yard := coerce slot.yard
    project := coerce slot.project
    checkout := coerce slot.checkout
    run := coerce slot.run
    purpose := coerce slot.purpose
    leaseID := coerce slot.leaseID
    capabilityHash := coerce slot.capabilityHash
    failureReason := coerce slot.failureReason
    lastFailureEventID := coerce slot.lastFailureEventID
    incidentID := coerce slot.incidentID }

def LeasePool.image (pool : LeasePool) : LeasePool :=
  { pool with
    resourceType := coerce pool.resourceType
    resourceID := coerce pool.resourceID
    slots := pool.slots.map LeaseSlot.image }

def LeaseRecoverySlot.image (recovery : LeaseRecoverySlot) : LeaseRecoverySlot :=
  { recovery with
    slotID := coerce recovery.slotID
    lastFailureEventID := coerce recovery.lastFailureEventID
    incidentID := coerce recovery.incidentID }

/-- The journal `writePool` makes of a pool: an entry for every slot with recovery metadata. -/
def recoveryEntries (pool : LeasePool) : List LeaseRecoverySlot :=
  (pool.slots.filter slotHasRecoveryMetadata).map LeaseSlot.recovery

/-- The first half of `writePool`: replace the journal, or remove it if it would be empty. -/
def writeJournal (pool : LeasePool) (disk : Disk) : Disk :=
  { disk with
    journal :=
      if recoveryEntries pool = [] then .absent
      else .doc ⟨leaseRecoverySchemaVersion, (recoveryEntries pool).map LeaseRecoverySlot.image⟩ }

/-- The second half of `writePool`: replace the state file. -/
def writeMain (pool : LeasePool) (disk : Disk) : Disk := { disk with main := .doc pool.image }

/-- `writePool`. -/
def writePool (pool : LeasePool) (disk : Disk) : Disk := writeMain pool (writeJournal pool disk)

/-! ### Loading -/

def resourceType : Bytes := str "agent-e2e"
def resourceID : Bytes := str "test-vms"

/-- The pool of a store without a state file. -/
def emptyPool : LeasePool :=
  { schemaVersion := leaseSchemaVersion, resourceType := resourceType, resourceID := resourceID,
    slots := [] }

/-- The entry of the journal belongs to the slot in its present state. -/
def recoveryMatches (slot : LeaseSlot) (recovery : LeaseRecoverySlot) : Bool :=
  slot.resourceGeneration = recovery.resourceGeneration && slot.leaseEpoch = recovery.leaseEpoch
    && slot.state = recovery.state

/-- One round of the loop of `mergeRecoveryJournal` after its checks. -/
def mergeEntry (recovery : LeaseRecoverySlot) (slots : List LeaseSlot) : List LeaseSlot :=
  Pointwise.update (fun slot => slot.slotID = recovery.slotID)
    (fun slot => if recoveryMatches slot recovery then slot.withRecovery recovery else slot) slots

/-- The states an entry of the journal may be in. -/
def SlotState.recoverable : SlotState → Bool
  | .available | .quarantined | .recovering => true
  | _ => false

/-- The checks `mergeRecoveryJournal` makes on one entry, before the one on its state. -/
def recoveryEntryValid (recovery : LeaseRecoverySlot) : Bool :=
  brokerSlotID recovery.slotID && recovery.resourceGeneration ≠ 0
    && (recovery.lastFailureEventID = [] || brokerRecordID recovery.lastFailureEventID)
    && (recovery.incidentID = [] || brokerRecordID recovery.incidentID)

/-- The loop of `mergeRecoveryJournal`; `seen` holds the names already met. -/
def mergeEntries : List Bytes → List LeaseRecoverySlot → List LeaseSlot →
    Except LeaseError (List LeaseSlot)
  | _, [], slots => .ok slots
  | seen, recovery :: rest, slots => do
      refuse (!recoveryEntryValid recovery ∨ recovery.slotID ∈ seen)
        (.corrupt (str "invalid lease recovery metadata"))
      refuse (!recovery.state.recoverable) (.corrupt (str "invalid lease recovery state"))
      mergeEntries (recovery.slotID :: seen) rest (mergeEntry recovery slots)

/-- `mergeRecoveryJournal`. -/
def mergeRecoveryJournal (journal : File LeaseRecoveryJournal) (pool : LeasePool) :
    Except LeaseError LeasePool :=
  match journal with
  | .absent => .ok pool
  | .unreadable => .error .readFailed
  | .garbage => .error (.corrupt (str "invalid lease recovery journal"))
  | .doc journal => do
      refuse (journal.schemaVersion ≠ leaseRecoverySchemaVersion)
        (.corrupt (str "invalid lease recovery journal"))
      let slots ← mergeEntries [] journal.slots pool.slots
      pure { pool with slots := slots }

/-- The schema-1 migration: the old broker retained guest data between leases. -/
def upgradeSchema (pool : LeasePool) : LeasePool :=
  if pool.schemaVersion = 1 then
    { pool with
      schemaVersion := leaseSchemaVersion
      slots := pool.slots.map fun slot => { slot with legacyRetained := true } }
  else pool

/-- A fenced schema closes admission whatever the flag says. -/
def fenceSchema (pool : LeasePool) : LeasePool :=
  if pool.schemaVersion = leaseFencedSchemaVersion then { pool with admissionClosed := true }
  else pool

/-- `load`. -/
def load (disk : Disk) : Except LeaseError LeasePool :=
  match disk.main with
  | .absent => .ok emptyPool
  | .unreadable => .error .readFailed
  | .garbage => .error (.corrupt (str "invalid lease state"))
  | .doc stored => do
      let pool := fenceSchema (upgradeSchema stored)
      refuse (pool.schemaVersion ≠ leaseFencedSchemaVersion
        ∧ (pool.schemaVersion ≠ leaseSchemaVersion ∨ pool.admissionClosed)) .unsupported
      refuse (pool.resourceType ≠ resourceType ∨ pool.resourceID ≠ resourceID) .unsupported
      mergeRecoveryJournal disk.journal pool

/-- The failure is one of those `ErrCorruptLeaseState` wraps. -/
def LeaseError.isCorrupt : LeaseError → Bool
  | .corrupt _ => true
  | _ => false

/-- `load` answers `ErrCorruptLeaseState`. -/
def corruptOnDisk (disk : Disk) : Bool :=
  match load disk with
  | .error e => e.isCorrupt
  | .ok _ => false

/-! ### The inventory and the expiry -/

/-- One look at the clock and at the process table. -/
structure Reading where
  now : Time
  alive : AcquireOwner → Bool

/-- The parameters of a store during one operation: the owner it records, the configured number
of slots, and what its successive looks at the clock and the process table see. -/
structure LeaseStore where
  acquireOwner : Option AcquireOwner := none
  slotCount : ℕ
  readings : ℕ → Reading

/-- The `i`-th reading of the clock in one operation; `withLock` takes the first. -/
def LeaseStore.now (store : LeaseStore) (i : ℕ) : Time := (store.readings i).now

/-- A slot that has never been leased. -/
def freshSlot (number : ℕ) : LeaseSlot :=
  { slotID := slotName number, resourceGeneration := 1, state := .available }

/-- `sort.Slice` by name.  Names are distinct in every pool of fewer than 1000 slots, where
there is only one order. -/
def sortSlots (slots : List LeaseSlot) : List LeaseSlot :=
  slots.insertionSort fun a b => a.slotID ≤ b.slotID

/-- The slots that are missing up to `count`. -/
def missingSlots (present count : ℕ) : List LeaseSlot :=
  (List.range' (present + 1) (count - present)).map freshSlot

/-- `reconcileSlotCount`. -/
def reconcileSlotCount (pool : LeasePool) (count : ℕ) : Except LeaseError LeasePool :=
  let slots := sortSlots pool.slots ++ missingSlots pool.slots.length count
  if count < slots.length then
    match (slots.drop count).find? fun slot => slot.state ≠ .available with
    | some slot => .error (.other
        (str "cannot shrink pool: retiring " ++ slot.slotID ++ str " is " ++ slot.state.text))
    | none => .error (.other (str "pool shrink requires physical reconciliation"))
  else .ok { pool with slots := slots }

/-- The round of `expireStale` for one slot. -/
def LeaseSlot.expire (reading : Reading) (slot : LeaseSlot) : LeaseSlot :=
  if (slot.state = .provisioning ∨ slot.state = .held)
      ∧ slot.acquireOwner.any fun owner => !reading.alive owner then
    { slot with state := .draining, failureReason := requesterLostReason }
  else if slot.expiresAt = 0 ∨ reading.now < slot.expiresAt then slot
  else
    match slot.state with
    | .held => { slot with state := .draining, failureReason := heartbeatExpiredReason }
    | .provisioning => { slot with state := .draining, failureReason := provisioningExpiredReason }
    | _ => slot

/-- `expireStale`. -/
def expireStale (reading : Reading) (pool : LeasePool) : LeasePool :=
  { pool with slots := pool.slots.map (LeaseSlot.expire reading) }

/-! ### Operations -/

/-- An operation under the lock of the store: it fails, or it answers and may name the pool to
write. -/
abbrev StoreOp (α : Type) := Disk → Except LeaseError (Option LeasePool × α)

/-- The pool as the body of an ordinary operation finds it. -/
def LeaseStore.openPool (store : LeaseStore) (disk : Disk) : Except LeaseError LeasePool := do
  refuse (store.slotCount < 1) (.other (str "slot count must be positive"))
  let pool ← load disk
  let pool ← reconcileSlotCount pool store.slotCount
  pure (expireStale (store.readings 0) pool)

/-- `withLock(true, …)`: the pool is written whenever the body succeeds. -/
def LeaseStore.withLock {α : Type} (store : LeaseStore)
    (body : LeasePool → Except LeaseError (LeasePool × α)) : StoreOp α := fun disk => do
  let pool ← store.openPool disk
  let (pool, answer) ← body pool
  pure (some pool, answer)

/-- `findSlot`: the first slot of that name. -/
def findSlot (pool : LeasePool) (id : Bytes) : Option LeaseSlot :=
  pool.slots.find? fun slot => slot.slotID = id

/-- A body that looks one slot up and changes it, failing with `missing` if there is none. -/
def onSlotElse {α : Type} (missing : LeaseError) (id : Bytes)
    (change : LeaseSlot → Except LeaseError (LeaseSlot × α)) (pool : LeasePool) :
    Except LeaseError (LeasePool × α) :=
  match findSlot pool id with
  | none => .error missing
  | some slot => do
      let (slot, answer) ← change slot
      pure ({ pool with
          slots := Pointwise.update (fun s => s.slotID = id) (fun _ => slot) pool.slots }, answer)

/-- The usual lookup. -/
def onSlot {α : Type} (id : Bytes) (change : LeaseSlot → Except LeaseError (LeaseSlot × α)) :
    LeasePool → Except LeaseError (LeasePool × α) :=
  onSlotElse (.unknownSlot id) id change

/-- The credentials `mutateOwned` asks for. -/
def ownedBy (grant : LeaseGrant) (slot : LeaseSlot) : Bool :=
  slot.leaseID = grant.leaseID && slot.leaseEpoch = grant.leaseEpoch
    && slot.capabilityHash ≠ [] && slot.capabilityHash = capabilityDigest grant.capability

/-- `mutateOwned`. -/
def LeaseStore.mutateOwned {α : Type} (store : LeaseStore) (grant : LeaseGrant)
    (mutate : LeaseSlot → Time → Except LeaseError (LeaseSlot × α)) : StoreOp α :=
  store.withLock <| onSlot grant.slotID fun slot => do
    refuse (!ownedBy grant slot) .leaseLost
    mutate slot (store.now 1)

end Subyard.Lease
