import Subyard.Library.Checked
import Subyard.Lease.Inventory

/-!
The arithmetic of admission.

* `exactBytes`, `exactCommitment`, `exactOutstanding`: the amounts of the capacity check as
  numbers without a bound.
* `checkedAdmission`: the check of `reserveEnvironment` with every addition, multiplication and
  subtraction checked.
* `reserve_within_capacity`: in a pool of at most `999` slots no operation wraps, and a
  reservation that succeeds leaves the reserves in exact arithmetic; one that fails leaves the
  files as they were.
-/

namespace Subyard.Lease

open Text Fallible Checked

/-! ### Exact amounts -/

/-- `budgetBytes` without a bound. -/
def exactBytes (value fallback : Bytes) : ℕ :=
  let value := if value = [] then fallback else value
  if value = str "0GiB" then 0 else (sizeMiB value).getD 0 * 1024 * 1024

/-- `environmentCommitment` without a bound. -/
def exactCommitment (spec : EnvironmentSpec) (overhead : ℕ) : ℕ × ℕ :=
  (spec.count.toNat * (exactBytes spec.memory (str "4GiB") + overhead),
    spec.count.toNat * exactBytes spec.disk (str "20GiB"))

/-- The composition of a slot without one, before it is validated. -/
def CapacityConfig.legacySpec (config : CapacityConfig) : EnvironmentSpec :=
  { name := environmentPair, count := 2, cpu := config.cpu, memory := config.memory,
    disk := config.disk, lifecycle := disposableLifecycle }

/-- The composition a slot is charged for. -/
def CapacityConfig.specOf (config : CapacityConfig) (slot : LeaseSlot) : EnvironmentSpec :=
  slot.environment.getD config.legacySpec

/-- What a slot may still claim, without a bound. -/
def exactOutstanding (config : CapacityConfig) (host : Telemetry) (overhead : ℕ)
    (slot : LeaseSlot) : ℕ × ℕ :=
  let (memory, disk) := exactCommitment (config.specOf slot) overhead
  (if slot.state = .provisioning ∨ (slot.reserved ∧ slot.readyAt = 0 ∧ slot.state ≠ .held) then
      memory
    else 0,
    disk - min disk (host.allocationUsage slot).toNat)

/-- The memory that the slots charged for a reservation of `id` may still claim. -/
def exactMemory (config : CapacityConfig) (host : Telemetry) (id : Bytes)
    (slots : List LeaseSlot) : ℕ :=
  ((slots.filter (charged id)).map fun slot =>
    (exactOutstanding config host (exactBytes config.vmOverhead defaultTestVMOverhead) slot).1).sum

/-- The disk that the slots charged for a reservation of `id` may still claim. -/
def exactDisk (config : CapacityConfig) (host : Telemetry) (id : Bytes)
    (slots : List LeaseSlot) : ℕ :=
  ((slots.filter (charged id)).map fun slot =>
    (exactOutstanding config host (exactBytes config.vmOverhead defaultTestVMOverhead) slot).2).sum

/-! ### The check with checked operations -/

/-- `budgetBytes`. -/
def checkedBytes (value fallback : Bytes) : Option UInt64 :=
  let value := if value = [] then fallback else value
  if value = str "0GiB" then some 0
  else do
    let kib ← mul (UInt64.ofNat ((sizeMiB value).getD 0)) 1024
    mul kib 1024

/-- `environmentCommitment`. -/
def checkedCommitment (spec : EnvironmentSpec) (overhead : UInt64) : Option (UInt64 × UInt64) := do
  let memory ← checkedBytes spec.memory (str "4GiB")
  let guest ← add memory overhead
  let ram ← mul (UInt64.ofInt spec.count) guest
  let volume ← checkedBytes spec.disk (str "20GiB")
  let disk ← mul (UInt64.ofInt spec.count) volume
  pure (ram, disk)

/-- A computation that fails or wraps. -/
abbrev Reckoning := ExceptT LeaseError Option

/-- A step without arithmetic. -/
def reckon {α : Type} (x : Except LeaseError α) : Reckoning α := ExceptT.mk (some x)

/-- A step of arithmetic. -/
def amount {α : Type} (x : Option α) : Reckoning α := ExceptT.lift x

/-- The composition a slot is charged for; the one of a slot without any is validated. -/
def CapacityConfig.chargedSpec (config : CapacityConfig) (slot : LeaseSlot) :
    Except LeaseError EnvironmentSpec :=
  match slot.environment with
  | some spec => .ok spec
  | none => config.pairSpec

/-- `outstandingCommitment`. -/
def checkedOutstanding (config : CapacityConfig) (host : Telemetry) (overhead : UInt64)
    (slot : LeaseSlot) : Reckoning (UInt64 × UInt64) := do
  let spec ← reckon (config.chargedSpec slot)
  let (memory, disk) ← amount (checkedCommitment spec overhead)
  let rest ← amount (sub disk (min disk (host.allocationUsage slot)))
  pure (pendingMemory slot memory, rest)

/-- One round of the loop of `reserveEnvironment` over the slots. -/
def checkedRound (config : CapacityConfig) (host : Telemetry) (overhead : UInt64)
    (total : UInt64 × UInt64) (slot : LeaseSlot) : Reckoning (UInt64 × UInt64) := do
  let (memory, disk) ← checkedOutstanding config host overhead slot
  let ram ← amount (add total.1 memory)
  let disk ← amount (add total.2 disk)
  pure (ram, disk)

/-- The loop. -/
def checkedCommitted (config : CapacityConfig) (host : Telemetry) (overhead : UInt64) (id : Bytes)
    (slots : List LeaseSlot) : Reckoning (UInt64 × UInt64) :=
  (slots.filter (charged id)).foldlM (checkedRound config host overhead) (0, 0)

/-- `checkCapacity`. -/
def checkedCapacity (memory : MemoryCapacity) (storage : StorageCapacity)
    (ram disk ramReserve diskReserve diskBudget : UInt64) : Reckoning Unit := do
  let memoryShort := .capacity (str "memory") (str "insufficient confirmed memory reserve") none
  let diskShort := .capacity (str "disk") (str "insufficient storage headroom") none
  let budgetShort := .capacity (str "disk") (str "broker disk budget exceeded") none
  reckon (refuse (memory.available < ram) memoryShort)
  let rest ← amount (sub memory.available ram)
  reckon (refuse (rest < ramReserve) memoryShort)
  reckon (refuse (storage.total < storage.used)
    (.capacity (str "disk") (str "invalid storage telemetry") none))
  let free ← amount (sub storage.total storage.used)
  reckon (refuse (free < disk) diskShort)
  let rest ← amount (sub free disk)
  reckon (refuse (rest < diskReserve) diskShort)
  if diskBudget = 0 then pure ()
  else do
    reckon (refuse (diskBudget < storage.budgetUsed) budgetShort)
    let rest ← amount (sub diskBudget storage.budgetUsed)
    reckon (refuse (rest < disk) budgetShort)

/-- The headroom in the evidence of a refusal. -/
def checkedHeadroom (available : UInt64) (amounts : List UInt64) : Option UInt64 :=
  amounts.foldlM (fun headroom amount => sub headroom (min headroom amount)) available

/-- What `reserveEnvironment` makes of a refusal of `checkCapacity`. -/
def checkedRefusal (memory : MemoryCapacity) (slot : LeaseSlot) (spec : EnvironmentSpec)
    (overhead ram memoryReserve : UInt64) : LeaseError → Reckoning Unit
  | .capacity resource reason admission =>
      if resource = str "memory" then do
        let (required, _) ← amount (checkedCommitment spec overhead)
        let pendingVM ← amount (sub ram (min ram required))
        let headroom ← amount (checkedHeadroom memory.available [memoryReserve, pendingVM, 0])
        let evidence :=
          { memoryAdmission memory memoryReserve pendingVM 0 required with
            headroom := headroom
            environment := spec.name, count := spec.count, slotState := some slot.state }
        reckon (.error (.capacity resource reason (some evidence)))
      else reckon (.error (.capacity resource reason admission))
  | e => reckon (.error e)

/-- The sample of the memory that is compared: the smaller one. -/
def smallerMemory (before after : MemoryCapacity) : MemoryCapacity :=
  if before.available < after.available then before else after

/-- The sample of the storage that is compared: the worse of both in each respect. -/
def worseStorage (before after : StorageCapacity) : StorageCapacity :=
  ⟨min before.total after.total, max before.used after.used,
    max before.budgetUsed after.budgetUsed⟩

/-- The capacity check of `reserveEnvironment`. -/
def checkedAdmission (config : CapacityConfig) (host : Telemetry) (pool : LeasePool)
    (slot : LeaseSlot) (spec : EnvironmentSpec) : Reckoning Unit := do
  let memoryBefore ← reckon (sampled memoryUnavailable host.memoryBefore)
  let storageBefore ← reckon (sampled storageUnavailable host.storageBefore)
  let overhead ← amount (checkedBytes config.vmOverhead defaultTestVMOverhead)
  let (ram, disk) ← checkedCommitted config host overhead slot.slotID pool.slots
  let memory ← reckon <| sampled memoryUnavailable
    (host.memoryAfter.filter fun memory => memory.scope = memoryBefore.scope)
  let storage ← reckon (sampled storageUnavailable host.storageAfter)
  let memory := smallerMemory memoryBefore memory
  let storage := worseStorage storageBefore storage
  let memoryReserve ← amount (checkedBytes config.memoryReserve defaultTestVMMemoryReserve)
  let diskReserve ← amount (checkedBytes config.diskReserve defaultTestVMDiskReserve)
  let diskBudget ← amount (checkedBytes config.diskBudget defaultTestVMDiskBudget)
  ExceptT.tryCatch (checkedCapacity memory storage ram disk memoryReserve diskReserve diskBudget)
    (checkedRefusal memory slot spec overhead ram memoryReserve)

/-! ### Sizes -/

lemma sizeMiB_le {value : Bytes} {n : ℕ} (h : sizeMiB value = some n) : n ≤ 2 ^ 30 := by
  rw [sizeMiB] at h
  split at h
  · split at h
    · generalize (if value.drop (value.length - 3) = str "GiB" then _ else _ : ℕ) = number at h
      split at h
      · cases h
      · dsimp only at h
        split at h
        · cases h
        · cases h
          omega
    · cases h
  · cases h

/-- The bound of a size in bytes. -/
def sizeLimit : ℕ := 2 ^ 50

lemma exactBytes_le (value fallback : Bytes) : exactBytes value fallback ≤ sizeLimit := by
  rw [exactBytes, sizeLimit]
  generalize (if value = [] then fallback else value) = text
  split
  · exact Nat.zero_le _
  · cases hsize : sizeMiB text with
    | none => simp
    | some n =>
      have := sizeMiB_le hsize
      rw [Option.getD_some]
      omega

/-- `budgetBytes` does not wrap. -/
lemma budgetBytes_exact (value fallback : Bytes) :
    checkedBytes value fallback = some (budgetBytes value fallback)
      ∧ (budgetBytes value fallback).toNat = exactBytes value fallback := by
  rw [checkedBytes, budgetBytes, exactBytes]
  generalize (if value = [] then fallback else value) = text
  split
  · exact ⟨rfl, rfl⟩
  · obtain ⟨n, hn, hle⟩ : ∃ n, (sizeMiB text).getD 0 = n ∧ n ≤ 2 ^ 30 := by
      cases hsize : sizeMiB text with
      | none => exact ⟨0, rfl, Nat.zero_le _⟩
      | some n => exact ⟨n, rfl, sizeMiB_le hsize⟩
    rw [hn]
    have hnat : (UInt64.ofNat n).toNat = n := UInt64.toNat_ofNat_of_lt' (by rw [UInt64.size]; omega)
    have hkib : (UInt64.ofNat n).toNat * (1024 : UInt64).toNat < 2 ^ 64 := by
      rw [hnat]
      change n * 1024 < _
      omega
    have hkibNat : (UInt64.ofNat n * 1024).toNat = n * 1024 := by
      rw [toNat_mul hkib, hnat]
      rfl
    have hbytes : (UInt64.ofNat n * 1024).toNat * (1024 : UInt64).toNat < 2 ^ 64 := by
      rw [hkibNat]
      change n * 1024 * 1024 < _
      omega
    refine ⟨?_, ?_⟩
    · rw [mul_eq hkib]
      exact mul_eq hbytes
    · rw [toNat_mul hbytes, hkibNat]
      rfl

lemma budgetBytes_le (value fallback : Bytes) : (budgetBytes value fallback).toNat ≤ sizeLimit := by
  rw [(budgetBytes_exact value fallback).2]
  exact exactBytes_le value fallback

/-! ### Commitments -/

/-- An accepted composition has one guest or two. -/
lemma EnvironmentSpec.count_of_validate {spec : EnvironmentSpec} (h : spec.validate = .ok ()) :
    spec.count = 1 ∨ spec.count = 2 := by
  simp only [EnvironmentSpec.validate, refuse_bind, refuse_eq_ok] at h
  obtain ⟨_, hcount, _⟩ := h
  by_contra hne
  rw [not_or] at hne
  exact hcount ⟨.inr hne, .inr hne.1⟩

/-- The bound of what one slot may claim. -/
def slotLimit : ℕ := 4 * sizeLimit

/-- The words of a commitment hold the exact amounts, and neither is above the limit. -/
structure Commits (word : UInt64 × UInt64) (exact : ℕ × ℕ) : Prop where
  memory : word.1.toNat = exact.1
  disk : word.2.toNat = exact.2
  memory_le : exact.1 ≤ slotLimit
  disk_le : exact.2 ≤ slotLimit

/-- `environmentCommitment` does not wrap. -/
lemma environmentCommitment_exact {spec : EnvironmentSpec} (hspec : spec.validate = .ok ())
    {overhead : UInt64} (hoverhead : overhead.toNat ≤ sizeLimit) :
    checkedCommitment spec overhead = some (environmentCommitment spec overhead)
      ∧ Commits (environmentCommitment spec overhead) (exactCommitment spec overhead.toNat) := by
  obtain ⟨hmemory, hmemoryNat⟩ := budgetBytes_exact spec.memory (str "4GiB")
  obtain ⟨hdisk, hdiskNat⟩ := budgetBytes_exact spec.disk (str "20GiB")
  have hmemoryLe := exactBytes_le spec.memory (str "4GiB")
  have hdiskLe := exactBytes_le spec.disk (str "20GiB")
  -- The count is a small number, as a word and as an integer.
  obtain ⟨hcount, hcountLe⟩ :
      (UInt64.ofInt spec.count).toNat = spec.count.toNat ∧ spec.count.toNat ≤ 2 := by
    rcases EnvironmentSpec.count_of_validate hspec with h | h <;> rw [h] <;> decide
  rw [checkedCommitment, environmentCommitment, exactCommitment, hmemory, hdisk]
  generalize budgetBytes spec.memory (str "4GiB") = memory at *
  generalize budgetBytes spec.disk (str "20GiB") = disk at *
  generalize UInt64.ofInt spec.count = count at *
  rw [← hmemoryNat] at hmemoryLe ⊢
  rw [← hdiskNat] at hdiskLe ⊢
  rw [← hcount] at hcountLe ⊢
  rw [sizeLimit] at hmemoryLe hdiskLe hoverhead
  have hguest : memory.toNat + overhead.toNat < 2 ^ 64 := by omega
  have hramLe : count.toNat * (memory.toNat + overhead.toNat) ≤ 2 * 2 ^ 51 :=
    Nat.mul_le_mul hcountLe (by omega)
  have hvolumeLe : count.toNat * disk.toNat ≤ 2 * 2 ^ 50 := Nat.mul_le_mul hcountLe hdiskLe
  have hram : count.toNat * (memory + overhead).toNat < 2 ^ 64 := by
    rw [toNat_add hguest]
    omega
  have hvolume : count.toNat * disk.toNat < 2 ^ 64 := by omega
  refine ⟨?_, ?_, ?_, ?_, ?_⟩
  · change (add memory overhead >>= _) = _
    rw [add_eq hguest]
    change (mul count (memory + overhead) >>= _) = _
    rw [mul_eq hram]
    change (mul count disk >>= _) = _
    rw [mul_eq hvolume]
    rfl
  · exact (toNat_mul hram).trans (by rw [toNat_add hguest])
  · exact toNat_mul hvolume
  · rw [slotLimit, sizeLimit]
    omega
  · rw [slotLimit, sizeLimit]
    omega

/-! ### The loop over the slots -/

section Loop

variable (config : CapacityConfig) (host : Telemetry) {overhead : UInt64}

/-- The composition of a slot without one is validated when it is charged. -/
lemma pairSpec_ok {spec : EnvironmentSpec} (h : config.pairSpec = .ok spec) :
    spec = config.legacySpec ∧ spec.validate = .ok () := by
  obtain ⟨hvalid, h⟩ := check_bind.mp h
  cases h
  exact ⟨rfl, hvalid⟩

/-- The slots have accepted compositions. -/
def Composed (slots : List LeaseSlot) : Prop :=
  ∀ slot ∈ slots, ∀ spec ∈ slot.environment, spec.validate = .ok ()

/-- The composition a slot is charged for is a valid one. -/
lemma chargedSpec_ok {slot : LeaseSlot} (hslot : ∀ spec ∈ slot.environment, spec.validate = .ok ())
    {spec : EnvironmentSpec} (h : config.chargedSpec slot = .ok spec) :
    spec = config.specOf slot ∧ spec.validate = .ok () := by
  rw [CapacityConfig.chargedSpec] at h
  rw [CapacityConfig.specOf]
  cases henv : slot.environment with
  | some spec' =>
    rw [henv] at h
    cases h
    exact ⟨rfl, hslot spec henv⟩
  | none =>
    rw [henv] at h
    exact pairSpec_ok config h

lemma outstandingCommitment_eq (slot : LeaseSlot) :
    outstandingCommitment config host slot overhead = (do
      let spec ← config.chargedSpec slot
      let (memory, disk) := environmentCommitment spec overhead
      pure (pendingMemory slot memory, disk - min disk (host.allocationUsage slot))) := by
  rw [outstandingCommitment, CapacityConfig.chargedSpec]
  cases slot.environment <;> rfl

/-- `outstandingCommitment` does not wrap, and its answer is exact. -/
lemma outstandingCommitment_exact {slot : LeaseSlot}
    (hslot : ∀ spec ∈ slot.environment, spec.validate = .ok ())
    (hoverhead : overhead.toNat ≤ sizeLimit) :
    Exact (checkedOutstanding config host overhead slot)
        (outstandingCommitment config host slot overhead)
      ∧ ∀ word, outstandingCommitment config host slot overhead = .ok word →
          Commits word (exactOutstanding config host overhead.toNat slot) := by
  rw [outstandingCommitment_eq]
  refine ⟨Exact.bind (Exact.of_except _) fun spec hspec => ?_, fun word hword => ?_⟩
  · obtain ⟨-, hvalid⟩ := chargedSpec_ok config hslot hspec
    refine Exact.lift_bind (environmentCommitment_exact hvalid hoverhead).1 ?_
    exact Exact.lift_bind (sub_eq (Checked.min_le _ _)) (Exact.pure _)
  · obtain ⟨spec, hspec, hword⟩ := of_bind_ok hword
    obtain ⟨rfl, hvalid⟩ := chargedSpec_ok config hslot hspec
    cases hword
    obtain ⟨-, hmemory, hdisk, hmemoryLe, hdiskLe⟩ :=
      environmentCommitment_exact hvalid hoverhead
    refine ⟨?_, ?_, ?_, ?_⟩
    · rw [exactOutstanding, pendingMemory]
      split
      · exact hmemory
      · rfl
    · rw [toNat_sub (Checked.min_le _ _), toNat_min]
      exact congrArg (fun d => d - min d (host.allocationUsage slot).toNat) hdisk
    · rw [exactOutstanding]
      dsimp only
      split
      · exact hmemoryLe
      · exact Nat.zero_le _
    · exact (Nat.sub_le _ _).trans hdiskLe

/-- One round of the loop over wrapping words. -/
def wrappedRound (config : CapacityConfig) (host : Telemetry) (overhead : UInt64)
    (total : UInt64 × UInt64) (slot : LeaseSlot) : Except LeaseError (UInt64 × UInt64) := do
  let (memory, disk) ← outstandingCommitment config host slot overhead
  pure (total.1 + memory, total.2 + disk)

/-- The totals over some slots, without a bound. -/
def exactTotals (config : CapacityConfig) (host : Telemetry) (overhead : ℕ)
    (slots : List LeaseSlot) : ℕ × ℕ :=
  ((slots.map fun slot => (exactOutstanding config host overhead slot).1).sum,
    (slots.map fun slot => (exactOutstanding config host overhead slot).2).sum)

/-- There is room for the commitments of `n` more slots. -/
def Room (total : UInt64 × UInt64) (n : ℕ) : Prop :=
  total.1.toNat + n * slotLimit < 2 ^ 64 ∧ total.2.toNat + n * slotLimit < 2 ^ 64

/-- A round does not wrap if there is room. -/
lemma wrappedRound_exact {slot : LeaseSlot}
    (hslot : ∀ spec ∈ slot.environment, spec.validate = .ok ())
    (hoverhead : overhead.toNat ≤ sizeLimit) {total : UInt64 × UInt64} {n : ℕ}
    (hroom : Room total (n + 1)) :
    Exact (checkedRound config host overhead total slot)
        (wrappedRound config host overhead total slot)
      ∧ ∀ total', wrappedRound config host overhead total slot = .ok total' →
          Room total' n
            ∧ total'.1.toNat
              = total.1.toNat + (exactOutstanding config host overhead.toNat slot).1
            ∧ total'.2.toNat
              = total.2.toNat + (exactOutstanding config host overhead.toNat slot).2 := by
  obtain ⟨hexact, hcommits⟩ :=
    outstandingCommitment_exact config host hslot hoverhead
  obtain ⟨hram, hdisk⟩ := hroom
  rw [Nat.add_mul, Nat.one_mul] at hram hdisk
  -- The words of an answer can be added.
  have hadd : ∀ word, outstandingCommitment config host slot overhead = .ok word →
      total.1.toNat + word.1.toNat < 2 ^ 64 ∧ total.2.toNat + word.2.toNat < 2 ^ 64 := by
    intro word hword
    obtain ⟨hmemory, hvolume, hmemoryLe, hvolumeLe⟩ := hcommits word hword
    omega
  refine ⟨Exact.bind hexact fun word hword => ?_, fun total' htotal => ?_⟩
  · obtain ⟨hmemory, hvolume⟩ := hadd word hword
    exact Exact.lift_bind (add_eq hmemory) (Exact.lift_bind (add_eq hvolume) (Exact.pure _))
  · obtain ⟨word, hword, htotal⟩ := of_bind_ok htotal
    cases htotal
    obtain ⟨hmemory, hvolume⟩ := hadd word hword
    obtain ⟨hmemoryNat, hvolumeNat, hmemoryLe, hvolumeLe⟩ := hcommits word hword
    have hramNat := toNat_add hmemory
    have hdiskNat := toNat_add hvolume
    refine ⟨⟨?_, ?_⟩, ?_, ?_⟩ <;> dsimp only <;> omega

/-- **The loop does not wrap**, and its totals are exact. -/
lemma committed_loop_exact {slots : List LeaseSlot} (hslots : Composed slots)
    (hoverhead : overhead.toNat ≤ sizeLimit) {total : UInt64 × UInt64}
    (hroom : Room total slots.length) :
    Exact (slots.foldlM (checkedRound config host overhead) total)
        (slots.foldlM (wrappedRound config host overhead) total)
      ∧ ∀ total', slots.foldlM (wrappedRound config host overhead) total = .ok total' →
          total'.1.toNat = total.1.toNat + (exactTotals config host overhead.toNat slots).1
            ∧ total'.2.toNat = total.2.toNat + (exactTotals config host overhead.toNat slots).2 := by
  induction slots generalizing total with
  | nil =>
    refine ⟨Exact.pure total, fun total' h => ?_⟩
    cases h
    exact ⟨rfl, rfl⟩
  | cons slot slots ih =>
    obtain ⟨hround, hnext⟩ := wrappedRound_exact config host (hslots slot (by simp))
      hoverhead hroom
    have hrest : Composed slots := fun s hs => hslots s (List.mem_cons_of_mem _ hs)
    rw [List.foldlM_cons, List.foldlM_cons]
    refine ⟨Exact.bind hround fun next hn => (ih hrest (hnext next hn).1).1,
      fun total' h => ?_⟩
    obtain ⟨next, hn, h⟩ := of_bind_ok h
    obtain ⟨hroom', hmemory, hdisk⟩ := hnext next hn
    obtain ⟨hmemory', hdisk'⟩ := (ih hrest hroom').2 total' h
    simp only [exactTotals, List.map_cons, List.sum_cons] at hmemory' hdisk' ⊢
    omega

/-- The same for the slots that a reservation charges. -/
lemma committed_exact {config : CapacityConfig} {host : Telemetry} {id : Bytes}
    {slots : List LeaseSlot} (hcount : slots.length ≤ inventoryLimit) (hslots : Composed slots)
    (hoverhead : overhead.toNat ≤ sizeLimit) :
    Exact (checkedCommitted config host overhead id slots)
        (committed config host overhead id slots)
      ∧ ∀ total, committed config host overhead id slots = .ok total →
          total.1.toNat
              = (exactTotals config host overhead.toNat (slots.filter (charged id))).1
            ∧ total.2.toNat
              = (exactTotals config host overhead.toNat (slots.filter (charged id))).2 := by
  have hlen : (slots.filter (charged id)).length ≤ 999 := (List.length_filter_le _ _).trans hcount
  have hroom : Room (0, 0) (slots.filter (charged id)).length := by
    have hzero : (0 : UInt64).toNat = 0 := rfl
    refine ⟨?_, ?_⟩ <;> rw [hzero, slotLimit, sizeLimit] <;> omega
  obtain ⟨hexact, htotals⟩ := committed_loop_exact config host
    (fun slot hslot => hslots slot (List.mem_of_mem_filter hslot)) hoverhead hroom
  refine ⟨hexact, fun total htotal => ?_⟩
  obtain ⟨hram, hdisk⟩ := htotals total htotal
  rw [hram, hdisk]
  exact ⟨Nat.zero_add _, Nat.zero_add _⟩

end Loop

/-! ### The comparison -/

section Compare

variable {memory : MemoryCapacity} {storage : StorageCapacity}
  {ram disk ramReserve diskReserve diskBudget : UInt64}

/-- `checkCapacity` does not wrap. -/
lemma checkCapacity_exact :
    Exact (checkedCapacity memory storage ram disk ramReserve diskReserve diskBudget)
      (checkCapacity memory storage ram disk ramReserve diskReserve diskBudget) := by
  rw [checkedCapacity, checkCapacity]
  simp only [refuse_or, bind_assoc]
  refine Exact.bind (Exact.of_except _) fun _ hram => ?_
  refine Exact.lift_bind (sub_eq (UInt64.not_lt.mp (refuse_eq_ok.mp hram))) ?_
  refine Exact.bind (Exact.of_except _) fun _ _ => ?_
  refine Exact.bind (Exact.of_except _) fun _ hused => ?_
  refine Exact.lift_bind (sub_eq (UInt64.not_lt.mp (refuse_eq_ok.mp hused))) ?_
  refine Exact.bind (Exact.of_except _) fun _ hdisk => ?_
  refine Exact.lift_bind (sub_eq (UInt64.not_lt.mp (refuse_eq_ok.mp hdisk))) ?_
  refine Exact.bind (Exact.of_except _) fun _ _ => ?_
  by_cases hbudget : diskBudget = 0
  · simp only [hbudget, if_true, ne_eq, not_true_eq_false, false_and]
    exact Exact.pure ()
  · simp only [hbudget, if_false, ne_eq, not_false_eq_true, true_and, refuse_or]
    refine Exact.bind (Exact.of_except _) fun _ hover => ?_
    exact Exact.lift_bind (sub_eq (UInt64.not_lt.mp (refuse_eq_ok.mp hover))) (Exact.of_except _)

/-- What a passed check says, in numbers. -/
lemma checkCapacity_ok
    (h : checkCapacity memory storage ram disk ramReserve diskReserve diskBudget = .ok ()) :
    ram.toNat + ramReserve.toNat ≤ memory.available.toNat
      ∧ storage.used.toNat + disk.toNat + diskReserve.toNat ≤ storage.total.toNat
      ∧ (diskBudget.toNat ≠ 0 → storage.budgetUsed.toNat + disk.toNat ≤ diskBudget.toNat) := by
  simp only [checkCapacity, refuse_bind, refuse_eq_ok, not_or, not_and, UInt64.not_lt] at h
  obtain ⟨⟨hram, hreserve⟩, hused, ⟨hdisk, hfree⟩, hbudget⟩ := h
  rw [UInt64.le_iff_toNat_le, toNat_sub hram] at hreserve
  rw [UInt64.le_iff_toNat_le, toNat_sub hdisk] at hfree
  rw [UInt64.le_iff_toNat_le] at hram
  rw [UInt64.le_iff_toNat_le] at hdisk
  rw [toNat_sub hused] at hfree hdisk
  rw [UInt64.le_iff_toNat_le] at hused
  refine ⟨by omega, by omega, fun hne => ?_⟩
  obtain ⟨hover, hrest⟩ := hbudget fun h0 => hne (by rw [h0]; rfl)
  rw [UInt64.le_iff_toNat_le, toNat_sub hover] at hrest
  rw [UInt64.le_iff_toNat_le] at hover
  omega

/-- The headroom of the evidence is computed without a wrap. -/
lemma checkedHeadroom_eq (available : UInt64) (amounts : List UInt64) :
    checkedHeadroom available amounts
      = some (amounts.foldl (fun headroom amount => headroom - min headroom amount) available) := by
  induction amounts generalizing available with
  | nil => rfl
  | cons amount amounts ih =>
    rw [checkedHeadroom, List.foldlM_cons, sub_eq (Checked.min_le _ _)]
    exact ih _

end Compare

/-! ### The reservation -/

/-- The evidence of `reserveEnvironment` for a refusal of `checkCapacity`. -/
def reserveEvidence (memory : MemoryCapacity) (slot : LeaseSlot) (spec : EnvironmentSpec)
    (overhead ram memoryReserve : UInt64) : MemoryAdmission :=
  let required := (environmentCommitment spec overhead).1
  { memoryAdmission memory memoryReserve (ram - min ram required) 0 required with
    environment := spec.name, count := spec.count, slotState := some slot.state }

/-- The evidence is computed without a wrap. -/
lemma checkedRefusal_exact {spec : EnvironmentSpec} (hspec : spec.validate = .ok ())
    {overhead : UInt64} (hoverhead : overhead.toNat ≤ sizeLimit) (memory : MemoryCapacity)
    (slot : LeaseSlot) (ram memoryReserve : UInt64) (e : LeaseError) :
    Exact (checkedRefusal memory slot spec overhead ram memoryReserve e)
      (.error (withEvidence (reserveEvidence memory slot spec overhead ram memoryReserve) e)) := by
  cases e with
  | capacity resource reason admission =>
    rw [checkedRefusal, withEvidence]
    split
    · refine Exact.lift_bind (environmentCommitment_exact hspec hoverhead).1 ?_
      refine Exact.lift_bind (sub_eq (Checked.min_le _ _)) ?_
      exact Exact.lift_bind (checkedHeadroom_eq _ _) (Exact.of_except _)
    · exact Exact.of_except _
  | _ => exact Exact.of_except _

/-- What is left of a computation whose failures are only reworded. -/
lemma tryCatch_error_ok {α : Type} {x : Except LeaseError α} {g : LeaseError → LeaseError} {a : α}
    (h : (x.tryCatch fun e => .error (g e)) = .ok a) : x = .ok a := by
  cases x with
  | ok b => exact h
  | error e => cases h

lemma of_sampled_ok {α : Type} {refusal : LeaseError} {sample : Option α} {a : α}
    (h : sampled refusal sample = .ok a) : sample = some a := by
  cases sample with
  | none => cases h
  | some b => exact congrArg some (Except.ok.inj h)

lemma reserveSlot_ok {config : CapacityConfig} {host : Telemetry} {grant : LeaseGrant}
    {pool : LeasePool} {slot slot' : LeaseSlot} {a : Unit}
    (h : reserveSlot config host grant pool slot = .ok (slot', a)) :
    ∃ spec, slot.environment = some spec
      ∧ admitEnvironment config host pool slot spec = .ok () := by
  obtain ⟨_, h⟩ := refuse_bind.mp h
  split at h
  · cases h
  · rename_i spec henv
    obtain ⟨hadmitted, -⟩ := check_bind.mp h
    exact ⟨spec, henv, hadmitted⟩

section Admission

variable {config : CapacityConfig} {host : Telemetry} {pool : LeasePool} {slot : LeaseSlot}
  {spec : EnvironmentSpec}

lemma match_error_eq (x : Except LeaseError Unit) (g : LeaseError → LeaseError) :
    (match x with
      | .ok _ => .ok ()
      | .error e => .error (g e)) = x.tryCatch fun e => .error (g e) := by
  rcases x with e | ⟨⟩ <;> rfl

lemma admitEnvironment_eq :
    admitEnvironment config host pool slot spec = (do
      let memoryBefore ← sampled memoryUnavailable host.memoryBefore
      let storageBefore ← sampled storageUnavailable host.storageBefore
      let overhead := budgetBytes config.vmOverhead defaultTestVMOverhead
      let (ram, disk) ← committed config host overhead slot.slotID pool.slots
      let memory ← sampled memoryUnavailable
        (host.memoryAfter.filter fun memory => memory.scope = memoryBefore.scope)
      let storage ← sampled storageUnavailable host.storageAfter
      let memoryReserve := budgetBytes config.memoryReserve defaultTestVMMemoryReserve
      (checkCapacity (smallerMemory memoryBefore memory) (worseStorage storageBefore storage) ram
        disk memoryReserve (budgetBytes config.diskReserve defaultTestVMDiskReserve)
        (budgetBytes config.diskBudget defaultTestVMDiskBudget)).tryCatch fun e =>
          .error (withEvidence (reserveEvidence (smallerMemory memoryBefore memory) slot spec
            overhead ram memoryReserve) e)) := by
  rw [admitEnvironment]
  refine bind_congr fun memoryBefore => bind_congr fun storageBefore => ?_
  change (committed _ _ _ _ _ >>= _) = (committed _ _ _ _ _ >>= _)
  refine bind_congr fun _ => bind_congr fun memory => bind_congr fun storage => ?_
  exact match_error_eq _ _

/-- **The check does not wrap** in a pool of at most `999` slots. -/
lemma admitEnvironment_exact (hcount : pool.slots.length ≤ inventoryLimit)
    (hslots : Composed pool.slots) (hspec : spec.validate = .ok ()) :
    Exact (checkedAdmission config host pool slot spec)
      (admitEnvironment config host pool slot spec) := by
  have hoverhead := budgetBytes_le config.vmOverhead defaultTestVMOverhead
  rw [admitEnvironment_eq, checkedAdmission]
  refine Exact.bind (Exact.of_except _) fun memoryBefore _ => ?_
  refine Exact.bind (Exact.of_except _) fun storageBefore _ => ?_
  refine Exact.lift_bind (budgetBytes_exact _ _).1 ?_
  refine Exact.bind (committed_exact hcount hslots hoverhead).1 fun (ram, disk) _ => ?_
  refine Exact.bind (Exact.of_except _) fun memory _ => ?_
  refine Exact.bind (Exact.of_except _) fun storage _ => ?_
  refine Exact.lift_bind (budgetBytes_exact _ _).1 ?_
  refine Exact.lift_bind (budgetBytes_exact _ _).1 ?_
  refine Exact.lift_bind (budgetBytes_exact _ _).1 ?_
  exact Exact.tryCatch checkCapacity_exact fun e _ =>
    checkedRefusal_exact hspec hoverhead _ slot ram _ e

/-- The exact totals leave the reserves in both samples. -/
structure WithinCapacity (config : CapacityConfig) (host : Telemetry) (id : Bytes)
    (slots : List LeaseSlot) (memoryBefore memoryAfter : MemoryCapacity)
    (storageBefore storageAfter : StorageCapacity) : Prop where
  memory : exactMemory config host id slots
      + exactBytes config.memoryReserve defaultTestVMMemoryReserve
    ≤ min memoryBefore.available.toNat memoryAfter.available.toNat
  /-- What is used is not above the total, so the difference below is exact. -/
  used : max storageBefore.used.toNat storageAfter.used.toNat
    ≤ min storageBefore.total.toNat storageAfter.total.toNat
  disk : exactDisk config host id slots + exactBytes config.diskReserve defaultTestVMDiskReserve
    ≤ min storageBefore.total.toNat storageAfter.total.toNat
      - max storageBefore.used.toNat storageAfter.used.toNat
  budget : exactBytes config.diskBudget defaultTestVMDiskBudget ≠ 0 →
    max storageBefore.budgetUsed.toNat storageAfter.budgetUsed.toNat
        + exactDisk config host id slots
      ≤ exactBytes config.diskBudget defaultTestVMDiskBudget

lemma toNat_smallerMemory (before after : MemoryCapacity) :
    (smallerMemory before after).available.toNat
      = min before.available.toNat after.available.toNat := by
  rw [smallerMemory]
  split
  · rename_i h
    exact (Nat.min_eq_left (Nat.le_of_lt (UInt64.lt_iff_toNat_lt.mp h))).symm
  · rename_i h
    exact (Nat.min_eq_right (UInt64.le_iff_toNat_le.mp (UInt64.not_lt.mp h))).symm

/-- **An admission leaves the reserves**, in exact arithmetic. -/
lemma admitEnvironment_ok (hcount : pool.slots.length ≤ inventoryLimit)
    (hslots : Composed pool.slots) (h : admitEnvironment config host pool slot spec = .ok ()) :
    ∃ memoryBefore memoryAfter storageBefore storageAfter,
      host.memoryBefore = some memoryBefore ∧ host.memoryAfter = some memoryAfter
        ∧ host.storageBefore = some storageBefore ∧ host.storageAfter = some storageAfter
        ∧ WithinCapacity config host slot.slotID pool.slots memoryBefore memoryAfter storageBefore
            storageAfter := by
  rw [admitEnvironment_eq] at h
  obtain ⟨memoryBefore, hmb, h⟩ := of_bind_ok h
  obtain ⟨storageBefore, hsb, h⟩ := of_bind_ok h
  obtain ⟨⟨ram, disk⟩, hcommitted, h⟩ := of_bind_ok h
  obtain ⟨memoryAfter, hma, h⟩ := of_bind_ok h
  obtain ⟨storageAfter, hsa, h⟩ := of_bind_ok h
  obtain ⟨hmemory, hstorage, hbudget⟩ := checkCapacity_ok (tryCatch_error_ok h)
  obtain ⟨hram, hdisk⟩ := (committed_exact hcount hslots (budgetBytes_le _ _)).2 _ hcommitted
  have hram' : ram.toNat = exactMemory config host slot.slotID pool.slots := by
    rw [hram, (budgetBytes_exact _ _).2]
    rfl
  have hdisk' : disk.toNat = exactDisk config host slot.slotID pool.slots := by
    rw [hdisk, (budgetBytes_exact _ _).2]
    rfl
  dsimp only [worseStorage] at hmemory hstorage hbudget
  rw [toNat_smallerMemory, (budgetBytes_exact _ _).2, hram'] at hmemory
  rw [toNat_min, toNat_max, (budgetBytes_exact _ _).2, hdisk'] at hstorage
  rw [toNat_max, (budgetBytes_exact _ _).2, hdisk'] at hbudget
  exact ⟨memoryBefore, memoryAfter, storageBefore, storageAfter, of_sampled_ok hmb,
    (Option.filter_eq_some_iff.mp (of_sampled_ok hma)).1, of_sampled_ok hsb, of_sampled_ok hsa,
    hmemory, by omega, by omega, hbudget⟩

end Admission

/-- **Admission never over-commits.**  In a pool of at most `999` slots with accepted compositions
no addition, multiplication or subtraction of the capacity check wraps; a reservation that
succeeds leaves the reserves in both samples, in exact arithmetic; and one that fails leaves the
files as they were. -/
theorem reserve_within_capacity (store : LeaseStore) (config : CapacityConfig) (host : Telemetry)
    (grant : LeaseGrant) (disk : Disk) (pool : LeasePool) (hopen : store.openPool disk = .ok pool)
    (hcount : pool.slots.length ≤ inventoryLimit) (hslots : Composed pool.slots) :
    (∀ slot ∈ pool.slots, ∀ spec ∈ slot.environment,
        (checkedAdmission config host pool slot spec).run
          = some (admitEnvironment config host pool slot spec))
      ∧ (∀ reply, (exec ⟨store, .reserveEnvironment config host grant⟩ disk).2 = .ok reply →
          ∃ memoryBefore memoryAfter storageBefore storageAfter,
            host.memoryBefore = some memoryBefore ∧ host.memoryAfter = some memoryAfter
              ∧ host.storageBefore = some storageBefore ∧ host.storageAfter = some storageAfter
              ∧ WithinCapacity config host grant.slotID pool.slots memoryBefore memoryAfter
                  storageBefore storageAfter)
      ∧ ∀ e, (exec ⟨store, .reserveEnvironment config host grant⟩ disk).2 = .error e →
          (exec ⟨store, .reserveEnvironment config host grant⟩ disk).1 = disk := by
  refine ⟨fun slot hslot spec hspec => ?_, fun reply hok => ?_, fun e he => exec_error he⟩
  · exact admitEnvironment_exact hcount hslots (hslots slot hslot spec hspec)
  · obtain ⟨written, hplan⟩ := plan_of_exec_ok hok
    simp only [Call.plan] at hplan
    obtain ⟨_, hplan, -⟩ := replying_ok hplan
    obtain ⟨opened, pool', hopen', hbody, -⟩ := withLock_ok hplan
    obtain rfl := Except.ok.inj (hopen'.symm.trans hopen)
    obtain ⟨slot, slot', hfind, hchange, -⟩ := onSlotElse_ok hbody
    have hname : slot.slotID = grant.slotID := by simpa using List.find?_some hfind
    obtain ⟨spec, _, hadmitted⟩ := reserveSlot_ok hchange
    rw [← hname]
    exact admitEnvironment_ok hcount hslots hadmitted

/-- A host with plenty of memory and storage, asked twice. -/
def roomyHost : Telemetry where
  memoryBefore := some { available := 64000000000 }
  storageBefore := some ⟨500000000000, 10000000000, 10000000000⟩
  memoryAfter := some { available := 63000000000 }
  storageAfter := some ⟨500000000000, 11000000000, 10000000000⟩
  allocationUsage := fun _ => 0

/-- The default settings. -/
def defaultCapacity : CapacityConfig where
  cpu := 4
  memory := str "4GiB"
  disk := str "20GiB"
  vmOverhead := []
  memoryReserve := []
  diskReserve := []
  diskBudget := []

/-- The composition of a pair. -/
def pairOfGuests : EnvironmentSpec := defaultCapacity.legacySpec

def pairGrant : LeaseGrant :=
  { slotID := slotName 1, leaseID := str "lease", leaseEpoch := 1, capability := str "capability",
    resourceGeneration := 1 }

/-- A slot that waits for its reservation. -/
def pendingSlot : LeaseSlot :=
  { freshSlot 1 with
    state := .provisioning, leaseID := pairGrant.leaseID, leaseEpoch := 1,
    capabilityHash := capabilityDigest pairGrant.capability, environment := some pairOfGuests }

def pendingPool : LeasePool := { emptyPool with slots := [pendingSlot] }

def pendingDisk : Disk := ⟨.doc pendingPool, .absent⟩

lemma composed_pendingPool : Composed pendingPool.slots := by
  intro slot hslot spec hspec
  obtain rfl := List.mem_singleton.mp hslot
  obtain rfl := Option.some.inj hspec
  decide +kernel

set_option maxRecDepth 100000 in
/-- A pair of guests is admitted on a roomy host. -/
theorem pair_within_capacity :
    (exec ⟨quietStore 1 0, .reserveEnvironment defaultCapacity roomyHost pairGrant⟩
        pendingDisk).2 = .ok .done
      ∧ exactMemory defaultCapacity roomyHost (slotName 1) pendingPool.slots
          + exactBytes [] defaultTestVMMemoryReserve ≤ 63000000000 := by
  have hopen : (quietStore 1 0).openPool pendingDisk = .ok pendingPool := by decide +kernel
  have hok : (exec ⟨quietStore 1 0, .reserveEnvironment defaultCapacity roomyHost pairGrant⟩
      pendingDisk).2 = .ok .done := by decide +kernel
  obtain ⟨_, _, _, _, hmb, hma, _, _, hwithin⟩ := (reserve_within_capacity (quietStore 1 0)
    defaultCapacity roomyHost pairGrant pendingDisk pendingPool hopen (by decide)
    composed_pendingPool).2.1 _ hok
  cases hmb
  cases hma
  exact ⟨hok, hwithin.memory⟩

end Subyard.Lease
