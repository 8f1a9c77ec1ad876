import Subyard.Lease.Store

/-!
The capacity check behind `reserveEnvironment`: the memory and the disk that the admitted
environments may still claim are held against two samples of the host.

Amounts are 64-bit words and wrap as the source's do; what the host answers (memory, storage,
the disk an allocation already occupies) is a parameter, `Telemetry`.
-/

namespace Subyard.Lease

open Text Fallible

/-- The fields of a memory sample that admission reads. -/
structure MemoryCapacity where
  available : UInt64
  visibleAvailable : UInt64 := 0
  limitingSource : Bytes := []
  cgroupHeadroom : UInt64 := 0
  physicalAvailable : UInt64 := 0
  physicalAvailableKnown : Bool := false
  limitAvailable : Bool := false
  scope : Bytes := []
deriving DecidableEq, Repr

structure StorageCapacity where
  total : UInt64
  used : UInt64
  budgetUsed : UInt64
deriving DecidableEq, Repr

/-- The settings that admission reads. -/
structure CapacityConfig where
  cpu : ℤ
  memory : Bytes
  disk : Bytes
  vmOverhead : Bytes
  memoryReserve : Bytes
  diskReserve : Bytes
  diskBudget : Bytes

/-- What the host answers during one reservation; a missing sample is a failed probe. -/
structure Telemetry where
  memoryBefore : Option MemoryCapacity
  storageBefore : Option StorageCapacity
  memoryAfter : Option MemoryCapacity
  storageAfter : Option StorageCapacity
  allocationUsage : LeaseSlot → UInt64

def defaultTestVMDiskBudget : Bytes := str "0GiB"
def defaultTestVMDiskReserve : Bytes := str "5GiB"
def defaultTestVMMemoryReserve : Bytes := str "4GiB"
def defaultTestVMOverhead : Bytes := str "512MiB"

/-- `budgetBytes`. -/
def budgetBytes (value fallback : Bytes) : UInt64 :=
  let value := if value = [] then fallback else value
  if value = str "0GiB" then 0
  else UInt64.ofNat ((sizeMiB value).getD 0) * 1024 * 1024

/-- `environmentCommitment`: the memory and the disk an environment may claim. -/
def environmentCommitment (spec : EnvironmentSpec) (overhead : UInt64) : UInt64 × UInt64 :=
  (UInt64.ofInt spec.count * (budgetBytes spec.memory (str "4GiB") + overhead),
    UInt64.ofInt spec.count * budgetBytes spec.disk (str "20GiB"))

/-- `pendingMemory`: a cancelled start keeps its promise until readiness or cleanup. -/
def pendingMemory (slot : LeaseSlot) (memory : UInt64) : UInt64 :=
  if slot.state = .provisioning ∨ (slot.reserved ∧ slot.readyAt = 0 ∧ slot.state ≠ .held) then
    memory
  else 0

/-- `Config.EnvironmentSpec(EnvironmentPair)`, the composition of a slot without one. -/
def CapacityConfig.pairSpec (config : CapacityConfig) : Except LeaseError EnvironmentSpec := do
  let spec : EnvironmentSpec :=
    { name := environmentPair, count := 2, cpu := config.cpu, memory := config.memory,
      disk := config.disk, lifecycle := disposableLifecycle }
  spec.validate
  pure spec

/-- `outstandingCommitment`: what a slot may still claim. -/
def outstandingCommitment (config : CapacityConfig) (host : Telemetry) (slot : LeaseSlot)
    (overhead : UInt64) : Except LeaseError (UInt64 × UInt64) := do
  let spec ← match slot.environment with
    | some spec => pure spec
    | none => config.pairSpec
  let (memory, disk) := environmentCommitment spec overhead
  pure (pendingMemory slot memory, disk - min disk (host.allocationUsage slot))

/-- `checkCapacity`. -/
def checkCapacity (memory : MemoryCapacity) (storage : StorageCapacity)
    (ram disk ramReserve diskReserve diskBudget : UInt64) : Except LeaseError Unit := do
  refuse (memory.available < ram ∨ memory.available - ram < ramReserve)
    (.capacity (str "memory") (str "insufficient confirmed memory reserve") none)
  refuse (storage.total < storage.used)
    (.capacity (str "disk") (str "invalid storage telemetry") none)
  let free := storage.total - storage.used
  refuse (free < disk ∨ free - disk < diskReserve)
    (.capacity (str "disk") (str "insufficient storage headroom") none)
  refuse (diskBudget ≠ 0
      ∧ (diskBudget < storage.budgetUsed ∨ diskBudget - storage.budgetUsed < disk))
    (.capacity (str "disk") (str "broker disk budget exceeded") none)

/-- `memoryAdmission`: the evidence of a refusal, with saturating subtractions. -/
def memoryAdmission (memory : MemoryCapacity)
    (reserve pendingVM pendingBuilder required : UInt64) : MemoryAdmission :=
  let headroom := [reserve, pendingVM, pendingBuilder].foldl
    (fun headroom amount => headroom - min headroom amount) memory.available
  { available := memory.available, reserve := reserve, pendingVM := pendingVM,
    pendingBuilder := pendingBuilder, required := required, headroom := headroom,
    environment := [], count := 0, slotState := none,
    limitingSource := memory.limitingSource, visibleAvailable := memory.visibleAvailable,
    physicalAvailable := memory.physicalAvailable, physicalKnown := memory.physicalAvailableKnown,
    cgroupHeadroom := memory.cgroupHeadroom, cgroupKnown := memory.limitAvailable }

/-- The slots a reservation for `id` charges: those admitted before, its own, and the retained
ones without an environment, unless nothing runs there. -/
def charged (id : Bytes) (slot : LeaseSlot) : Bool :=
  ¬ (slot.slotID ≠ id ∧ !slot.reserved ∧ slot.environment.isSome)
    && ¬ (slot.state = .available ∨ slot.state = .unavailable)

/-- The loop of `reserveEnvironment` over the slots. -/
def committed (config : CapacityConfig) (host : Telemetry) (overhead : UInt64) (id : Bytes)
    (slots : List LeaseSlot) : Except LeaseError (UInt64 × UInt64) :=
  (slots.filter (charged id)).foldlM (fun total slot => do
    let (memory, disk) ← outstandingCommitment config host slot overhead
    pure (total.1 + memory, total.2 + disk)) (0, 0)

def memoryUnavailable : LeaseError :=
  .capacity (str "memory") (str "memory telemetry unavailable") none

def storageUnavailable : LeaseError :=
  .capacity (str "disk") (str "storage telemetry unavailable") none

/-- A missing sample is a refusal. -/
def sampled {α : Type} (refusal : LeaseError) : Option α → Except LeaseError α
  | some sample => .ok sample
  | none => .error refusal

/-- The refusal of `checkCapacity`, with the evidence if memory was short. -/
def withEvidence (evidence : MemoryAdmission) : LeaseError → LeaseError
  | .capacity resource reason admission =>
      if resource = str "memory" then .capacity resource reason (some evidence)
      else .capacity resource reason admission
  | e => e

/-- The part of `reserveEnvironment` between the credential check and the mark: the admission of
`slot` in `pool`. -/
def admitEnvironment (config : CapacityConfig) (host : Telemetry) (pool : LeasePool)
    (slot : LeaseSlot) (spec : EnvironmentSpec) : Except LeaseError Unit := do
  let memoryBefore ← sampled memoryUnavailable host.memoryBefore
  let storageBefore ← sampled storageUnavailable host.storageBefore
  let overhead := budgetBytes config.vmOverhead defaultTestVMOverhead
  let (ram, disk) ← committed config host overhead slot.slotID pool.slots
  let memory ← sampled memoryUnavailable
    (host.memoryAfter.filter fun memory => memory.scope = memoryBefore.scope)
  let storage ← sampled storageUnavailable host.storageAfter
  let memory := if memoryBefore.available < memory.available then memoryBefore else memory
  let storage : StorageCapacity :=
    ⟨min storageBefore.total storage.total, max storageBefore.used storage.used,
      max storageBefore.budgetUsed storage.budgetUsed⟩
  let memoryReserve := budgetBytes config.memoryReserve defaultTestVMMemoryReserve
  let required := (environmentCommitment spec overhead).1
  let evidence :=
    { memoryAdmission memory memoryReserve (ram - min ram required) 0 required with
      environment := spec.name, count := spec.count, slotState := some slot.state }
  match checkCapacity memory storage ram disk memoryReserve
      (budgetBytes config.diskReserve defaultTestVMDiskReserve)
      (budgetBytes config.diskBudget defaultTestVMDiskBudget) with
  | .ok _ => .ok ()
  | .error e => .error (withEvidence evidence e)

/-- `reserveEnvironment` on the slot, in the pool it was found in. -/
def reserveSlot (config : CapacityConfig) (host : Telemetry) (grant : LeaseGrant)
    (pool : LeasePool) (slot : LeaseSlot) : Except LeaseError (LeaseSlot × Unit) := do
  refuse (slot.state ≠ .provisioning ∨ slot.leaseID ≠ grant.leaseID
      ∨ slot.leaseEpoch ≠ grant.leaseEpoch
      ∨ slot.capabilityHash ≠ capabilityDigest grant.capability) .leaseLost
  match slot.environment with
  | none => .error (.other (str "environment missing from reservation"))
  | some spec => do
      admitEnvironment config host pool slot spec
      pure ({ slot with reserved := true }, ())

/-- `reserveEnvironment`. -/
def LeaseStore.reserveEnvironment (store : LeaseStore) (config : CapacityConfig) (host : Telemetry)
    (grant : LeaseGrant) : StoreOp Unit :=
  store.withLock fun pool => onSlot grant.slotID (reserveSlot config host grant pool) pool

end Subyard.Lease
