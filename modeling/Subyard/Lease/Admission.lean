import Subyard.Lease.Grants

/-!
The admission fence across runs in which the state files may be damaged.

The fence is kept in the state file, by its schema version.  A rebuild of a damaged store writes
an ordinary schema, so it reopens admission without being asked to
(`fence_lost_in_rebuild`).

* `Event`, `advance`: calls, crashes, and the loss of one of the two files.
* `Fenced`: the state file is fenced or cannot be read.
* `fenced_admits_nobody`: no acquire succeeds in such a state.
* `fence_holds`: after a successful fence the state stays so until `OpenAdmission` is called, if
  no damaged store is rebuilt.
-/

namespace Subyard.Lease

open Text Fallible

/-- What can happen to the store: a call, a call that dies between the two files, or the loss of
a file to a reader. -/
inductive Event
  | call (call : Call)
  | crashed (call : Call)
  | mainDamaged
  | mainUnreadable
  | journalDamaged
  | journalUnreadable

/-- The files after an event. -/
def advance (disk : Disk) : Event → Disk
  | .call call => step disk call
  | .crashed call => crash disk call
  | .mainDamaged => { disk with main := .garbage }
  | .mainUnreadable => { disk with main := .unreadable }
  | .journalDamaged => { disk with journal := .garbage }
  | .journalUnreadable => { disk with journal := .unreadable }

/-- The state file is fenced, or it cannot be read. -/
def Fenced (disk : Disk) : Prop :=
  match disk.main with
  | .doc pool => pool.schemaVersion = leaseFencedSchemaVersion
  | .garbage | .unreadable => True
  | .absent => False

/-- The event reopens nothing: it is not a call of `OpenAdmission`, and not a rebuild of files
that do not load. -/
def keepsFence (disk : Disk) : Event → Bool
  | .call call | .crashed call =>
      match call.op with
      | .openAdmission => false
      | .rebuildCorruptPoolForRecovery _ => !corruptOnDisk disk
      | _ => true
  | _ => true

/-- The loaded pool of a fenced file is closed. -/
lemma load_fenced {disk : Disk} {pool : LeasePool} (hfenced : Fenced disk)
    (hload : load disk = .ok pool) :
    pool.admissionClosed = true ∧ pool.schemaVersion = leaseFencedSchemaVersion := by
  rw [Fenced] at hfenced
  rw [load] at hload
  split at hload
  · rename_i hmain
    simp [hmain] at hfenced
  · cases hload
  · cases hload
  · rename_i stored hmain
    simp only [hmain] at hfenced
    obtain ⟨_, hload⟩ := refuse_bind.mp hload
    obtain ⟨_, hload⟩ := refuse_bind.mp hload
    have hhead : (fenceSchema (upgradeSchema stored)).admissionClosed = true
        ∧ (fenceSchema (upgradeSchema stored)).schemaVersion = leaseFencedSchemaVersion := by
      rw [show upgradeSchema stored = stored by
        simp [upgradeSchema, hfenced, leaseFencedSchemaVersion], fenceSchema, if_pos hfenced]
      exact ⟨rfl, hfenced⟩
    -- the journal has no part in the header
    unfold mergeRecoveryJournal at hload
    split at hload
    · cases hload
      exact hhead
    · cases hload
    · cases hload
    · obtain ⟨_, hload⟩ := refuse_bind.mp hload
      obtain ⟨slots, _, hload⟩ := of_bind_ok hload
      cases hload
      exact hhead

/-- **A fenced store grants nothing.** -/
theorem fenced_admits_nobody {disk : Disk} (hfenced : Fenced disk) (call : Call) :
    grantOf disk call = none := by
  cases h : grantOf disk call with
  | none => rfl
  | some grant =>
    obtain ⟨_, _, opened, _, _, _, _, _, _, hacq⟩ := grant_acquired h
    obtain ⟨pool, hload, _, _, rfl⟩ := openPool_ok hacq.opens
    have hclosed := (load_fenced hfenced hload).1
    rw [hacq.admits] at hclosed
    cases hclosed

/-- A change of a closed pool is closed, unless the call is `OpenAdmission`. -/
lemma PoolChange.schemaVersion {call : Call} {pool pool' : LeasePool}
    (h : PoolChange call pool pool') (hop : call.op ≠ .openAdmission)
    (hpool : pool.schemaVersion = leaseFencedSchemaVersion) :
    pool'.schemaVersion = leaseFencedSchemaVersion := by
  cases h with
  | ordinary _ _ _ hheader =>
    generalize call.op = op at hheader hop
    cases hheader with
    | kept _ hschema _ _ => exact hschema.trans hpool
    | fenced _ hschema _ _ => exact hschema
    | opened => exact absurd rfl hop
  | retired => exact hpool
  | committed => exact hpool

lemma fenced_advance {disk : Disk} {event : Event} (hfenced : Fenced disk)
    (hkeeps : keepsFence disk event) : Fenced (advance disk event) := by
  cases event with
  | mainDamaged | mainUnreadable => exact trivial
  | journalDamaged | journalUnreadable => exact hfenced
  | crashed call =>
    rw [advance]
    rcases crash_cases call disk with ⟨_, hcrash⟩ | ⟨_, _, _, _, _, _, hcrash⟩
      | ⟨id, number, hop, hcorrupt, _⟩
    · rwa [hcrash]
    · rw [hcrash]
      exact hfenced
    · simp [keepsFence, hop, hcorrupt] at hkeeps
  | call call =>
    rcases step_cases call disk with hsame | ⟨pool', reply, hplan, hstep⟩
    · rwa [advance, hsame]
    · rw [advance, hstep]
      rcases plan_change hplan with ⟨pool, hload, hchange⟩ | ⟨id, number, hop, hcorrupt, _, _⟩
      · refine hchange.schemaVersion (fun hop => ?_) (load_fenced hfenced hload).2
        simp [keepsFence, hop] at hkeeps
      · simp [keepsFence, hop, hcorrupt] at hkeeps

/-- A successful fence is in the file. -/
lemma fenced_of_fence {disk : Disk} {store : LeaseStore} {expected : Bytes} {reply : Reply}
    (h : (exec ⟨store, .fenceExpectedPool expected⟩ disk).2 = .ok reply) :
    Fenced (step disk ⟨store, .fenceExpectedPool expected⟩) := by
  rw [step]
  cases hplan : (⟨store, .fenceExpectedPool expected⟩ : Call).plan disk with
  | error e =>
    rw [exec_of_plan_error hplan] at h
    cases h
  | ok result =>
    obtain ⟨written, answer⟩ := result
    simp only [Call.plan] at hplan
    obtain ⟨_, hfence, _⟩ := replying_ok hplan
    obtain ⟨opened, pool', _, hbody, rfl⟩ := withLock_ok hfence
    obtain ⟨_, hbody⟩ := refuse_bind.mp hbody
    cases hbody
    rw [exec]
    simp only [Call.plan, hplan]
    rfl

/-- **The fence holds until `OpenAdmission` is called, if no damaged store is rebuilt.**  After a
successful `FenceExpectedPool` and any further events without one of the two, no call is answered
with a grant. -/
theorem fence_holds (before after : List Event) (store : LeaseStore) (expected : Bytes)
    (reply : Reply)
    (hfence : (exec ⟨store, .fenceExpectedPool expected⟩ (Run.run advance emptyDisk before)).2
      = .ok reply)
    (hkeeps : Run.AllSteps advance (fun disk event => keepsFence disk event)
      (Run.run advance emptyDisk (before ++ [.call ⟨store, .fenceExpectedPool expected⟩])) after)
    (call : Call) :
    grantOf (Run.run advance emptyDisk
      (before ++ .call ⟨store, .fenceExpectedPool expected⟩ :: after)) call = none := by
  refine fenced_admits_nobody ?_ call
  rw [← List.singleton_append, ← List.append_assoc, Run.run_append]
  refine Run.invariant (I := Fenced) (fun _ _ h hk => fenced_advance h hk) ?_ hkeeps
  rw [Run.run_append]
  exact fenced_of_fence hfence

/-! ### A fence and a damaged file -/

/-- The binding of a pool of one slot that was never leased. -/
def singleSlotBinding : Bytes := poolOperationBinding { emptyPool with slots := [freshSlot 1] }

def singleSlotFence : Call := ⟨quietStore 1 1, .fenceExpectedPool singleSlotBinding⟩

def singleSlotAcquire : Call :=
  ⟨quietStore 1 1, .acquireSlot (constantDraw 7) (str "client") (str "key") [] [] (slotName 1)⟩

/-- `RecoverSlot` of the damaged store: the two operations of `BeginRecovery`, then the recovery
itself. -/
def singleSlotRecovery : List Event :=
  [.call ⟨quietStore 1 1, .beginScheduledRecovery (slotName 1) true⟩,
    .call ⟨quietStore 1 1, .rebuildCorruptPoolForRecovery (slotName 1)⟩,
    .call ⟨quietStore 1 1, .beginScheduledRecovery (slotName 1) true⟩,
    .call ⟨quietStore 1 1, .finishRecovery (slotName 1) none [] []⟩]

set_option maxRecDepth 100000 in
/-- The fence survives a lost journal. -/
theorem fence_holds_journal_damaged :
    (exec singleSlotFence emptyDisk).2 = .ok .done
      ∧ grantOf (Run.run advance emptyDisk [.call singleSlotFence, .journalDamaged])
          singleSlotAcquire = none := by
  have hfence : (exec singleSlotFence (Run.run advance emptyDisk [])).2 = .ok .done := by
    decide +kernel
  exact ⟨hfence, fence_holds [] [.journalDamaged] (quietStore 1 1) singleSlotBinding .done hfence
    (by decide +kernel) singleSlotAcquire⟩

set_option maxRecDepth 100000 in
/-- **A rebuild reopens admission.**  The store is fenced, its state file is damaged, the operator
recovers the slot, and an acquire succeeds although nobody called `OpenAdmission`. -/
theorem fence_lost_in_rebuild :
    (exec singleSlotFence emptyDisk).2 = .ok .done
      ∧ (grantOf (Run.run advance emptyDisk
          (.call singleSlotFence :: .mainDamaged :: singleSlotRecovery))
          singleSlotAcquire).isSome := by
  constructor <;> decide +kernel

end Subyard.Lease
