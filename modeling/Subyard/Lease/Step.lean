import Subyard.Library.Run
import Subyard.Lease.Operations

/-!
The lease store as a state machine: the state is the pair of files, an input is a call of one
operation with the parameters its store had (`Call`), and a run is a list of calls.

* `Call.plan`: what a call decides; `exec`: its effect on the files and its answer.
* `step`, `reached`: the files after one call and after a run from the empty store.
* `crash`: the files if the process dies between the journal and the state file.

No relation between the parameters of successive calls is assumed: the slot count, the clock and
the process table may change in any way.
-/

namespace Subyard.Lease

open Text Fallible

/-- The operations of the store, and the store steps of the code around it. -/
inductive Op
  | status
  | acquireSlot (draw : Draw) (clientID fingerprint label purpose slotID : Bytes)
  | acquireV2Slot (draw : Draw) (clientID fingerprint yard project run purpose slotID : Bytes)
  | acquireV3Slot (draw : Draw) (spec : EnvironmentSpec)
      (clientID fingerprint yard project run purpose slotID : Bytes)
  | reserveEnvironment (config : CapacityConfig) (host : Telemetry) (grant : LeaseGrant)
  | pinBase (grant : LeaseGrant) (fingerprint : Bytes)
  | clearLegacyRetained (grant : LeaseGrant)
  | handoff (grant : LeaseGrant)
  | markHeld (grant : LeaseGrant)
  | renew (grant : LeaseGrant)
  | beginDrain (grant : LeaseGrant)
  | abortProvisioning (grant : LeaseGrant)
  | quarantine (grant : LeaseGrant) (cause : Bytes)
  | beginDrainAll (reason : Bytes)
  | beginDrainSlot (id reason : Bytes)
  | beginExpectedDrain (expected : LeaseIdentity) (reason : Bytes)
  | finishDrain (id : Bytes) (stopErr : Option Bytes)
  | setQuarantineIncident (id failureEventID incidentID : Bytes)
  | interruptRecovery (id : Bytes) (cause : Option Bytes)
  | beginScheduledRecovery (id : Bytes) (force : Bool)
  | beginExpectedRecovery (expected : LeaseIdentity)
  | finishRecovery (id : Bytes) (cause : Option Bytes) (failureEventID incidentID : Bytes)
  | fenceExpectedPool (expected : Bytes)
  | openAdmission
  | prepareResize
  | resizePlan
  | commitResize
  | retireLegacyBegin (configured : ℕ) (expected : LeaseIdentity)
  | retireLegacyFinish (expected : LeaseIdentity)
  | rebuildCorruptPoolForRecovery (id : Bytes)

/-- The answers of the operations. -/
inductive Reply
  | done
  | pool (pool : LeasePool)
  | granted (grant : LeaseGrant)
  | expires (at' : Time)
  | started (started : Bool)
  | snapshot (slot : Option LeaseSlot) (started : Bool)
  | retiring (current : Option ℕ) (slots : List LeaseSlot)
deriving DecidableEq

/-- One call of an operation. -/
structure Call where
  store : LeaseStore
  op : Op

/-- An operation with its answer as a `Reply`. -/
def StoreOp.replying {α : Type} (op : StoreOp α) (reply : α → Reply) : StoreOp Reply :=
  fun disk => do
    let (written, answer) ← op disk
    pure (written, reply answer)

/-- What a call decides about the files. -/
def Call.plan (call : Call) : StoreOp Reply :=
  let store := call.store
  match call.op with
  | .status => store.status.replying .pool
  | .acquireSlot draw clientID fingerprint label purpose slotID =>
      (store.acquireSlot draw clientID fingerprint label purpose slotID).replying .granted
  | .acquireV2Slot draw clientID fingerprint yard project run purpose slotID =>
      (store.acquireV2Slot draw clientID fingerprint yard project run purpose slotID).replying
        .granted
  | .acquireV3Slot draw spec clientID fingerprint yard project run purpose slotID =>
      (store.acquireV3Slot draw spec clientID fingerprint yard project run purpose slotID).replying
        .granted
  | .reserveEnvironment config host grant =>
      (store.reserveEnvironment config host grant).replying fun _ => .done
  | .pinBase grant fingerprint => (store.pinBase grant fingerprint).replying fun _ => .done
  | .clearLegacyRetained grant => (store.clearLegacyRetained grant).replying fun _ => .done
  | .handoff grant => (store.handoff grant).replying fun _ => .done
  | .markHeld grant => (store.markHeld grant).replying .expires
  | .renew grant => (store.renew grant).replying .expires
  | .beginDrain grant => (store.beginDrain grant).replying fun _ => .done
  | .abortProvisioning grant => (store.abortProvisioning grant).replying fun _ => .done
  | .quarantine grant cause => (store.quarantine grant cause).replying fun _ => .done
  | .beginDrainAll reason => (store.beginDrainAll reason).replying fun _ => .done
  | .beginDrainSlot id reason => (store.beginDrainSlot id reason).replying fun _ => .done
  | .beginExpectedDrain expected reason =>
      (store.beginExpectedDrain expected reason).replying .started
  | .finishDrain id stopErr => (store.finishDrain id stopErr).replying fun _ => .done
  | .setQuarantineIncident id failureEventID incidentID =>
      (store.setQuarantineIncident id failureEventID incidentID).replying fun _ => .done
  | .interruptRecovery id cause => (store.interruptRecovery id cause).replying fun _ => .done
  | .beginScheduledRecovery id force =>
      (store.beginScheduledRecovery id force).replying fun answer => .snapshot answer.1 answer.2
  | .beginExpectedRecovery expected =>
      (store.beginExpectedRecovery expected).replying fun answer =>
        .snapshot (some answer.1) answer.2
  | .finishRecovery id cause failureEventID incidentID =>
      (store.finishRecovery id cause failureEventID incidentID).replying fun slot =>
        .snapshot (some slot) false
  | .fenceExpectedPool expected => (store.fenceExpectedPool expected).replying fun _ => .done
  | .openAdmission => store.openAdmission.replying fun _ => .done
  | .prepareResize => store.prepareResize.replying (.retiring none)
  | .resizePlan => store.resizePlan.replying fun answer => .retiring (some answer.1) answer.2
  | .commitResize => store.commitResize.replying fun _ => .done
  | .retireLegacyBegin configured expected =>
      (store.retireLegacyBegin configured expected).replying fun _ => .done
  | .retireLegacyFinish expected => (store.retireLegacyFinish expected).replying fun _ => .done
  | .rebuildCorruptPoolForRecovery id =>
      (store.rebuildCorruptPoolForRecovery id).replying fun _ => .done

/-- A call: the files afterwards and the answer. -/
def exec (call : Call) (disk : Disk) : Disk × Except LeaseError Reply :=
  match call.plan disk with
  | .ok (some pool, reply) => (writePool pool disk, .ok reply)
  | .ok (none, reply) => (disk, .ok reply)
  | .error e => (disk, .error e)

/-- The files after a call. -/
def step (disk : Disk) (call : Call) : Disk := (exec call disk).1

/-- The files after a run from the empty store. -/
def reached (calls : List Call) : Disk := Run.run step emptyDisk calls

/-- The files if the process dies after `writePool` has replaced the journal.  The rebuild has
renamed the state file away by then. -/
def crash (disk : Disk) (call : Call) : Disk :=
  match call.plan disk, call.op with
  | .ok (some pool, _), .rebuildCorruptPoolForRecovery _ =>
      { writeJournal pool disk with main := .absent }
  | .ok (some pool, _), _ => writeJournal pool disk
  | _, _ => disk

/-- The slots of the state file. -/
def storedSlots (disk : Disk) : List LeaseSlot :=
  match disk.main with
  | .doc pool => pool.slots
  | _ => []

/-- A store whose clock stands still and whose owners live, for concrete runs. -/
def quietStore (count : ℕ) (now : Time) : LeaseStore :=
  { slotCount := count, readings := fun _ => ⟨now, fun _ => true⟩ }

/-- A random source that delivers one octet over and over, for concrete runs. -/
def constantDraw (b : UInt8) : Draw := ⟨some fun _ => b, some fun _ => b⟩

/-! ### The shape of a step -/

/-- A call that fails leaves the files as they were. -/
lemma exec_error {call : Call} {disk : Disk} {e : LeaseError} (h : (exec call disk).2 = .error e) :
    (exec call disk).1 = disk := by
  rw [exec] at h ⊢
  split at h
  · cases h
  · cases h
  · rfl

lemma exec_of_plan_error {call : Call} {disk : Disk} {e : LeaseError}
    (h : call.plan disk = .error e) : exec call disk = (disk, .error e) := by
  rw [exec, h]

/-- An answer is that of the plan. -/
lemma plan_of_exec_ok {call : Call} {disk : Disk} {reply : Reply}
    (h : (exec call disk).2 = .ok reply) : ∃ written, call.plan disk = .ok (written, reply) := by
  rw [exec] at h
  split at h
  · rename_i pool answer hplan
    cases h
    exact ⟨some pool, hplan⟩
  · rename_i answer hplan
    cases h
    exact ⟨none, hplan⟩
  · cases h

lemma replying_error {α : Type} {op : StoreOp α} {reply : α → Reply} {disk : Disk} {e : LeaseError}
    (h : op disk = .error e) : op.replying reply disk = .error e := by
  rw [StoreOp.replying, h]
  rfl

/-- A call leaves the files alone or writes the pool it decided on. -/
lemma step_cases (call : Call) (disk : Disk) :
    step disk call = disk
      ∨ ∃ pool reply, call.plan disk = .ok (some pool, reply)
          ∧ step disk call = writePool pool disk := by
  rw [step, exec]
  split
  · rename_i pool reply h
    exact .inr ⟨pool, reply, h, rfl⟩
  · exact .inl rfl
  · exact .inl rfl

lemma reached_concat (calls : List Call) (call : Call) :
    reached (calls ++ [call]) = step (reached calls) call := by
  rw [reached, Run.run_append]
  rfl

lemma reached_append (calls more : List Call) :
    reached (calls ++ more) = Run.run step (reached calls) more := Run.run_append _ _ _

/-- What stands in the state file after a write. -/
@[simp] lemma storedSlots_writePool (pool : LeasePool) (disk : Disk) :
    storedSlots (writePool pool disk) = pool.slots.map LeaseSlot.image := rfl

end Subyard.Lease
