import Subyard.Lease.Step

/-!
What a call can do to the pool it finds, said once for all invariants.

* `Expired`: what the passage of time does to a slot.
* `BodyMove`: what the body of an operation does to a slot, one constructor for each way.
* `SlotChange`, `PoolChange`: a whole call, slot by slot.
* `plan_change`: **every pool that a call decides to write is a `PoolChange` of the pool it
  loaded, or the pool of a rebuild**.
-/

namespace Subyard.Lease

open Text Fallible

/-! ### One slot -/

/-- The reasons `expireStale` records. -/
def expiryReasons : List Bytes :=
  [requesterLostReason, heartbeatExpiredReason, provisioningExpiredReason]

/-- A slot is left alone, or a lease in use is fenced. -/
inductive Expired : LeaseSlot → LeaseSlot → Prop
  | kept (s : LeaseSlot) : Expired s s
  | fenced {s : LeaseSlot} {reason : Bytes} (hstate : s.state = .provisioning ∨ s.state = .held)
      (hreason : reason ∈ expiryReasons) :
      Expired s { s with state := .draining, failureReason := reason }

/-- The texts of an accepted request that were checked character by character. -/
structure AcquireRequest.Clean (request : AcquireRequest) : Prop where
  label : Ascii request.label
  purpose : Ascii request.purpose
  context : ∀ context ∈ request.context, context.AsciiTexts
  environment : ∀ spec ∈ request.environment, spec.AsciiTexts

/-- The request behind an acquiring operation, and what it draws. -/
def Op.acquisition : Op → Option (AcquireRequest × Draw)
  | .acquireSlot draw clientID fingerprint label purpose slotID =>
      some (⟨clientID, fingerprint, label, purpose, legacyLeaseContext label purpose, slotID,
        none⟩, draw)
  | .acquireV2Slot draw clientID fingerprint yard project run purpose slotID =>
      let context : LeaseContext :=
        { schemaVersion := leaseAttributionSchemaVersion, yard, project, run, purpose }
      some (⟨clientID, fingerprint, contextDisplayLabel context, purpose, some context, slotID,
        none⟩, draw)
  | .acquireV3Slot draw spec clientID fingerprint yard project run purpose slotID =>
      let context : LeaseContext :=
        { schemaVersion := leaseAttributionSchemaVersion, yard, project, run, purpose }
      some (⟨clientID, fingerprint, contextDisplayLabel context, purpose, some context, slotID,
        some spec⟩, draw)
  | _ => none

/-- The operation fences leases in use for this reason, on all slots or on the one it names. -/
def Op.drains : Op → Option (Bytes × Option Bytes)
  | .beginDrainAll reason => some (reason, none)
  | .beginDrainSlot id reason => some (reason, some id)
  | .beginExpectedDrain expected reason => some (reason, some expected.slotID)
  | _ => none

/-- The operation starts a recovery of the slot it names. -/
def Op.recovers : Op → Option Bytes
  | .beginScheduledRecovery id _ => some id
  | .beginExpectedRecovery expected => some expected.slotID
  | _ => none

/-- What the body of an operation does to a slot that it changes. -/
inductive BodyMove (store : LeaseStore) : Op → LeaseSlot → LeaseSlot → Prop
  | acquire {op : Op} {s : LeaseSlot} {request : AcquireRequest} {draw : Draw}
      {leaseID capability : Bytes} (hop : op.acquisition = some (request, draw))
      (hname : s.slotID = request.slotID) (hclean : request.Clean) (hstate : s.state = .available)
      (hid : randomToken draw.leaseID = .ok leaseID)
      (hcap : randomToken draw.capability = .ok capability) :
      BodyMove store op s
        (s.provision store.acquireOwner request leaseID capability (store.now 1))
  | reserve {config : CapacityConfig} {host : Telemetry} {grant : LeaseGrant} {s : LeaseSlot}
      (hname : s.slotID = grant.slotID) (hstate : s.state = .provisioning) :
      BodyMove store (.reserveEnvironment config host grant) s { s with reserved := true }
  | pinBase {grant : LeaseGrant} {fingerprint : Bytes} {s : LeaseSlot}
      (hname : s.slotID = grant.slotID) (hstate : s.state = .provisioning) :
      BodyMove store (.pinBase grant fingerprint) s { s with baseFingerprint := fingerprint }
  | clearLegacy {grant : LeaseGrant} {s : LeaseSlot} (hname : s.slotID = grant.slotID)
      (howned : ownedBy grant s) :
      BodyMove store (.clearLegacyRetained grant) s { s with legacyRetained := false }
  | handoff {grant : LeaseGrant} {s : LeaseSlot} (hname : s.slotID = grant.slotID)
      (howned : ownedBy grant s) (hstate : s.state = .held) :
      BodyMove store (.handoff grant) s { s with acquireOwner := none }
  | markHeld {grant : LeaseGrant} {s : LeaseSlot} (hname : s.slotID = grant.slotID)
      (howned : ownedBy grant s) (hstate : s.state = .provisioning) :
      BodyMove store (.markHeld grant) s
        { s with
          state := .held, readyAt := store.now 1, lastHeartbeatAt := store.now 1,
          expiresAt := store.now 1 + leaseTTL }
  | renew {grant : LeaseGrant} {s : LeaseSlot} (hname : s.slotID = grant.slotID)
      (howned : ownedBy grant s) (hstate : s.state = .held ∨ s.state = .provisioning) :
      BodyMove store (.renew grant) s
        { s with lastHeartbeatAt := store.now 1, expiresAt := store.now 1 + leaseTTL }
  | beginDrain {grant : LeaseGrant} {s : LeaseSlot} (hname : s.slotID = grant.slotID)
      (howned : ownedBy grant s) (hstate : s.state = .held ∨ s.state = .provisioning) :
      BodyMove store (.beginDrain grant) s { s with state := .draining }
  | abort {grant : LeaseGrant} {s : LeaseSlot} (hname : s.slotID = grant.slotID)
      (howned : ownedBy grant s) (hstate : s.state = .provisioning) :
      BodyMove store (.abortProvisioning grant) s { clearLease s with state := .available }
  | quarantine {grant : LeaseGrant} {cause : Bytes} {s : LeaseSlot}
      (hname : s.slotID = grant.slotID) (howned : ownedBy grant s) (hstate : s.state ≠ .draining) :
      BodyMove store (.quarantine grant cause) s
        { s with
          state := .quarantined, failureReason := boundedReason cause,
          nextRecoveryAt := store.now 1 }
  | drainFor {op : Op} {reason : Bytes} {target : Option Bytes} {s : LeaseSlot}
      (hop : op.drains = some (reason, target)) (hname : ∀ id ∈ target, s.slotID = id)
      (hstate : s.state = .held ∨ s.state = .provisioning) :
      BodyMove store op s (s.drainFor reason)
  | finishDrain {id : Bytes} {s : LeaseSlot} (hname : s.slotID = id) (hstate : s.state = .draining) :
      BodyMove store (.finishDrain id none) s { clearLease s with state := .available }
  | drainFailed {id text : Bytes} {s : LeaseSlot} (hname : s.slotID = id)
      (hstate : s.state = .draining) :
      BodyMove store (.finishDrain id (some text)) s
        { s with
          state := .quarantined, failureReason := boundedReason text,
          nextRecoveryAt := store.now 1 }
  | setIncident {id failureEventID incidentID : Bytes} {s : LeaseSlot} (hname : s.slotID = id)
      (hevent : brokerRecordID failureEventID) (hincident : brokerRecordID incidentID)
      (hstate : s.state = .quarantined ∨ s.state = .recovering) :
      BodyMove store (.setQuarantineIncident id failureEventID incidentID) s
        { s with
          lastFailureEventID := failureEventID
          incidentID := incidentID
          nextRecoveryAt := if s.nextRecoveryAt = 0 then store.now 1 else s.nextRecoveryAt }
  | interrupt {id text : Bytes} {s : LeaseSlot} (hname : s.slotID = id)
      (hstate : s.state = .recovering) :
      BodyMove store (.interruptRecovery id (some text)) s
        { s with
          state := .quarantined, failureReason := boundedReason text,
          nextRecoveryAt := store.now 1, recoveryStartedAt := 0 }
  | recover {op : Op} {id : Bytes} {s : LeaseSlot} (hop : op.recovers = some id)
      (hname : s.slotID = id) (hstate : s.state = .quarantined) :
      BodyMove store op s (s.recover (store.now 1))
  | recoveryFailed {id text failureEventID incidentID : Bytes} {s : LeaseSlot}
      (hname : s.slotID = id) (hstate : s.state = .recovering)
      (hevent : failureEventID = [] ∨ brokerRecordID failureEventID)
      (hincident : incidentID = [] ∨ brokerRecordID incidentID) :
      BodyMove store (.finishRecovery id (some text) failureEventID incidentID) s
        { s with
          state := .quarantined
          failureReason := boundedReason text
          lastFailureEventID := if failureEventID = [] then s.lastFailureEventID else failureEventID
          incidentID := if incidentID = [] then s.incidentID else incidentID
          nextRecoveryAt := store.now 1 + recoveryDelay s.recoveryAttempt
          recoveryStartedAt := 0 }
  | recovered {id failureEventID incidentID : Bytes} {s : LeaseSlot} (hname : s.slotID = id)
      (hstate : s.state = .recovering) :
      BodyMove store (.finishRecovery id none failureEventID incidentID) s s.recovered
  | retire {s : LeaseSlot} (hstate : s.state = .available ∨ s.fencedForResize)
      (hlegacy : s.legacyRetained = false) :
      BodyMove store .prepareResize s s.retire
  | legacyBegin {configured : ℕ} {expected : LeaseIdentity} {s : LeaseSlot}
      (hname : s.slotID = expected.slotID) (hlegacy : s.legacyRetained)
      (hstate : s.state = .available ∨ s.state = .quarantined) :
      BodyMove store (.retireLegacyBegin configured expected) s
        { s with state := .draining, failureReason := legacyRetirementReason }
  | legacyFinish {expected : LeaseIdentity} {s : LeaseSlot} (hname : s.slotID = expected.slotID)
      (hstate : s.state = .draining) :
      BodyMove store (.retireLegacyFinish expected) s
        { clearLease s with legacyRetained := false, state := .available }

/-- What a call does to one slot: time passes, then the body may change it. -/
inductive SlotChange (call : Call) (s : LeaseSlot) : LeaseSlot → Prop
  | expired {s' : LeaseSlot} (h : Expired s s') : SlotChange call s s'
  | body {mid s' : LeaseSlot} (h : Expired s mid) (hbody : BodyMove call.store call.op mid s') :
      SlotChange call s s'

lemma SlotChange.refl (call : Call) (s : LeaseSlot) : SlotChange call s s := .expired (.kept s)

/-- Time passing once more changes no more than that. -/
lemma Expired.trans {a b c : LeaseSlot} (hab : Expired a b) (hbc : Expired b c) : Expired a c := by
  cases hab with
  | kept => exact hbc
  | fenced hstate hreason =>
    cases hbc with
    | kept => exact .fenced hstate hreason
    | fenced hstate' _ => simp at hstate'

lemma expired_expire (reading : Reading) (s : LeaseSlot) : Expired s (s.expire reading) := by
  rw [LeaseSlot.expire]
  split
  · rename_i h
    exact .fenced h.1 (by simp [expiryReasons])
  · split
    · exact .kept s
    · split
      · exact .fenced (.inr (by assumption)) (by simp [expiryReasons])
      · exact .fenced (.inl (by assumption)) (by simp [expiryReasons])
      · exact .kept s

/-! ### The pool -/

/-- What a call does to the fields of the pool outside the slots. -/
inductive HeaderChange : Op → LeasePool → LeasePool → Prop
  | kept {op : Op} {pool pool' : LeasePool} (hclosed : pool'.admissionClosed = pool.admissionClosed)
      (hschema : pool'.schemaVersion = pool.schemaVersion)
      (htype : pool'.resourceType = pool.resourceType) (hid : pool'.resourceID = pool.resourceID) :
      HeaderChange op pool pool'
  | fenced {expected : Bytes} {pool pool' : LeasePool} (hclosed : pool'.admissionClosed = true)
      (hschema : pool'.schemaVersion = leaseFencedSchemaVersion)
      (htype : pool'.resourceType = pool.resourceType) (hid : pool'.resourceID = pool.resourceID) :
      HeaderChange (.fenceExpectedPool expected) pool pool'
  | opened {pool pool' : LeasePool} (hclosed : pool'.admissionClosed = false)
      (hschema : pool'.schemaVersion = leaseSchemaVersion)
      (htype : pool'.resourceType = pool.resourceType) (hid : pool'.resourceID = pool.resourceID) :
      HeaderChange .openAdmission pool pool'

/-- The slots have no part in it. -/
lemma HeaderChange.of_slots {op : Op} {pool pool' : LeasePool} {slots : List LeaseSlot}
    (h : HeaderChange op { pool with slots := slots } pool') : HeaderChange op pool pool' := by
  cases h with
  | kept hclosed hschema htype hid => exact .kept hclosed hschema htype hid
  | fenced hclosed hschema htype hid => exact .fenced hclosed hschema htype hid
  | opened hclosed hschema htype hid => exact .opened hclosed hschema htype hid

/-- The inventory an ordinary call starts from. -/
def LeasePool.inventory (pool : LeasePool) (count : ℕ) : List LeaseSlot :=
  sortSlots pool.slots ++ missingSlots pool.slots.length count

/-- What a call does to the pool it loaded. -/
inductive PoolChange (call : Call) (pool : LeasePool) : LeasePool → Prop
  | ordinary {pool' : LeasePool} (hcount : 1 ≤ call.store.slotCount)
      (hlen : pool.slots.length ≤ call.store.slotCount)
      (hslots : List.Forall₂ (SlotChange call) (pool.inventory call.store.slotCount) pool'.slots)
      (hheader : HeaderChange call.op pool pool')
      (hgrow : call.op = .prepareResize → pool'.slots = pool.inventory call.store.slotCount) :
      PoolChange call pool pool'
  | retired (hop : call.op = .prepareResize) (hlen : call.store.slotCount < pool.slots.length)
      (hretire : ∀ s ∈ pool.slots.drop call.store.slotCount,
        (s.state = .available ∨ s.fencedForResize) ∧ s.legacyRetained = false) :
      PoolChange call pool
        { pool with
          slots := pool.slots.take call.store.slotCount
            ++ (pool.slots.drop call.store.slotCount).map LeaseSlot.retire }
  | committed (hop : call.op = .commitResize) (hlen : call.store.slotCount ≤ pool.slots.length)
      (hfenced : ∀ s ∈ pool.slots.drop call.store.slotCount, s.fencedForResize) :
      PoolChange call pool { pool with slots := pool.slots.take call.store.slotCount }

/-- The fence of a shrink, slot by slot. -/
lemma retire_slotChange {call : Call} {slots : List LeaseSlot} {n : ℕ}
    (hop : call.op = .prepareResize)
    (hretire : ∀ s ∈ slots.drop n,
      (s.state = .available ∨ s.fencedForResize) ∧ s.legacyRetained = false) :
    List.Forall₂ (SlotChange call) slots
      (slots.take n ++ (slots.drop n).map LeaseSlot.retire) := by
  have hsplit : List.Forall₂ (SlotChange call) (slots.take n ++ slots.drop n)
      (slots.take n ++ (slots.drop n).map LeaseSlot.retire) := by
    refine List.rel_append (List.forall₂_same.mpr fun s _ => .refl call s) ?_
    rw [List.forall₂_map_right_iff, List.forall₂_same]
    intro s hs
    obtain ⟨hstate, hlegacy⟩ := hretire s hs
    exact .body (.kept s) (by rw [hop]; exact .retire hstate hlegacy)
  rwa [List.take_append_drop] at hsplit

/-! ### The inversion of a success -/

variable {α : Type} {store : LeaseStore} {disk : Disk} {pool pool' : LeasePool}
  {written : Option LeasePool} {change : SlotOp α} {answer : α} {grant : LeaseGrant} {draw : Draw}
  {request : AcquireRequest} {id reason clientID fingerprint purpose slotID : Bytes}
  {expected : LeaseIdentity} {a : Unit}

lemma replying_ok {op : StoreOp α} {reply : α → Reply} {answer : Reply}
    (h : op.replying reply disk = .ok (written, answer)) :
    ∃ a, op disk = .ok (written, a) ∧ answer = reply a := by
  obtain ⟨⟨w, a⟩, hop, h⟩ := of_bind_ok h
  simp only [pure, Except.pure, Except.ok.injEq, Prod.mk.injEq] at h
  exact ⟨a, by rw [hop, h.1], h.2.symm⟩

lemma reconcileSlotCount_ok {count : ℕ} (h : reconcileSlotCount pool count = .ok pool') :
    pool.slots.length ≤ count ∧ pool' = { pool with slots := pool.inventory count } := by
  rw [reconcileSlotCount] at h
  split at h
  · split at h <;> cases h
  · rename_i hlen
    refine ⟨?_, (Except.ok.inj h).symm⟩
    simp only [sortSlots, missingSlots, List.length_append, List.length_insertionSort,
      List.length_map, List.length_range'] at hlen
    omega

/-- The pool that the body of an ordinary call finds. -/
lemma openPool_ok (h : store.openPool disk = .ok pool) :
    ∃ loaded, load disk = .ok loaded ∧ 1 ≤ store.slotCount
      ∧ loaded.slots.length ≤ store.slotCount
      ∧ pool = { loaded with
          slots := (loaded.inventory store.slotCount).map (LeaseSlot.expire (store.readings 0)) } := by
  rw [LeaseStore.openPool, refuse_bind] at h
  obtain ⟨hcount, h⟩ := h
  obtain ⟨loaded, hload, h⟩ := of_bind_ok h
  obtain ⟨reconciled, hrec, h⟩ := of_bind_ok h
  obtain ⟨hlen, rfl⟩ := reconcileSlotCount_ok hrec
  exact ⟨loaded, hload, by omega, hlen, (Except.ok.inj h).symm⟩

lemma withLock_ok {body : LeasePool → Except LeaseError (LeasePool × α)}
    (h : store.withLock body disk = .ok (written, answer)) :
    ∃ opened pool, store.openPool disk = .ok opened ∧ body opened = .ok (pool, answer)
      ∧ written = some pool := by
  obtain ⟨opened, hopen, h⟩ := of_bind_ok h
  obtain ⟨⟨pool, a⟩, hbody, h⟩ := of_bind_ok h
  simp only [pure, Except.pure, Except.ok.injEq, Prod.mk.injEq] at h
  exact ⟨opened, pool, hopen, by rw [hbody, h.2], h.1.symm⟩

lemma onSlotElse_ok {missing : LeaseError}
    (h : onSlotElse missing id change pool = .ok (pool', answer)) :
    ∃ slot slot', findSlot pool id = some slot ∧ change slot = .ok (slot', answer)
      ∧ pool' = { pool with
          slots := Pointwise.update (fun s => s.slotID = id) (fun _ => slot') pool.slots } := by
  rw [onSlotElse] at h
  split at h
  · cases h
  · rename_i slot hfind
    obtain ⟨⟨slot', a⟩, hchange, h⟩ := of_bind_ok h
    simp only [pure, Except.pure, Except.ok.injEq, Prod.mk.injEq] at h
    exact ⟨slot, slot', hfind, by rw [hchange, h.2], h.1.symm⟩

lemma findSlot_eq_some {slot : LeaseSlot} (h : findSlot pool id = some slot) :
    slot ∈ pool.slots ∧ slot.slotID = id :=
  ⟨List.mem_of_find?_eq_some h, by simpa using List.find?_some h⟩

/-- An operation on one slot fails if it refuses every slot of that name. -/
lemma withLock_error (store : LeaseStore) (disk : Disk) (id : Bytes) (change : LeasePool → SlotOp α)
    (hrefuse : ∀ opened s, store.openPool disk = .ok opened → s ∈ opened.slots → s.slotID = id →
      ∃ e, change opened s = .error e) :
    ∃ e, store.withLock (fun pool => onSlot id (change pool) pool) disk = .error e := by
  cases h : store.withLock (fun pool => onSlot id (change pool) pool) disk with
  | error e => exact ⟨e, rfl⟩
  | ok result =>
    obtain ⟨written, answer⟩ := result
    obtain ⟨opened, pool', hopen, hbody, _⟩ := withLock_ok h
    obtain ⟨slot, slot', hfind, hchange, _⟩ := onSlotElse_ok hbody
    obtain ⟨hmem, hname⟩ := findSlot_eq_some hfind
    obtain ⟨e, he⟩ := hrefuse opened slot hopen hmem hname
    rw [he] at hchange
    cases hchange

/-- A call decided to write a change of the pool it loaded. -/
def Changes (call : Call) (disk : Disk) (written : Option LeasePool) : Prop :=
  ∃ pool pool', written = some pool' ∧ load disk = .ok pool ∧ PoolChange call pool pool'

/-- A body that changes the slots one by one makes an ordinary change. -/
lemma Changes.of_body (call : Call) (hop : call.op ≠ .prepareResize) {opened : LeasePool}
    (hopen : call.store.openPool disk = .ok opened) (hslots : List.Forall₂
      (fun s s' => Expired s s' ∨ ∃ mid, Expired s mid ∧ BodyMove call.store call.op mid s')
      opened.slots pool'.slots) (hheader : HeaderChange call.op opened pool') :
    Changes call disk (some pool') := by
  obtain ⟨pool, hload, hcount, hlen, rfl⟩ := openPool_ok hopen
  refine ⟨pool, pool', rfl, hload, .ordinary hcount hlen ?_ hheader.of_slots (absurd · hop)⟩
  rw [List.forall₂_map_left_iff] at hslots
  refine hslots.imp fun s s' hs => ?_
  rcases hs with hexp | ⟨mid, hexp, hbody⟩
  · exact .expired ((expired_expire _ s).trans hexp)
  · exact .body ((expired_expire _ s).trans hexp) hbody

/-- A change of the slot that was looked up makes an ordinary change, if it is a move of the call
or none at all. -/
lemma Changes.of_found (call : Call) (hop : call.op ≠ .prepareResize) {opened : LeasePool}
    {missing : LeaseError} (hopen : call.store.openPool disk = .ok opened)
    (hbody : onSlotElse missing id change opened = .ok (pool', answer))
    (hmove : ∀ s s' a, s.slotID = id → change s = .ok (s', a) →
      s' = s ∨ BodyMove call.store call.op s s') : Changes call disk (some pool') := by
  obtain ⟨slot, slot', hfind, hchange, rfl⟩ := onSlotElse_ok hbody
  refine Changes.of_body call hop hopen
    (Pointwise.forall₂_update (fun s => .inl (.kept s)) fun s hs => ?_) (.kept rfl rfl rfl rfl)
  obtain rfl : s = slot := Option.some.inj (hs.symm.trans hfind)
  rcases hmove s slot' answer (findSlot_eq_some hfind).2 hchange with rfl | hbody
  · exact .inl (.kept _)
  · exact .inr ⟨s, .kept s, hbody⟩

/-- An operation on one slot makes an ordinary change. -/
lemma onSlot_change (call : Call) (hop : call.op ≠ .prepareResize)
    (h : call.store.withLock (onSlot id change) disk = .ok (written, answer))
    (hmove : ∀ s s' a, s.slotID = id → change s = .ok (s', a) →
      s' = s ∨ BodyMove call.store call.op s s') : Changes call disk written := by
  obtain ⟨opened, pool', hopen, hbody, rfl⟩ := withLock_ok h
  exact Changes.of_found call hop hopen hbody hmove

/-- The same for the operations that ask for a grant. -/
lemma mutateOwned_change (call : Call) (hop : call.op ≠ .prepareResize)
    {mutate : LeaseSlot → Time → Except LeaseError (LeaseSlot × α)}
    (h : call.store.mutateOwned grant mutate disk = .ok (written, answer))
    (hmove : ∀ s s' a, s.slotID = grant.slotID → ownedBy grant s →
      mutate s (call.store.now 1) = .ok (s', a) → s' = s ∨ BodyMove call.store call.op s s') :
    Changes call disk written := by
  refine onSlot_change call hop h fun s s' a hname hs => ?_
  obtain ⟨howned, hs⟩ := refuse_bind.mp hs
  exact hmove s s' a hname (by simpa using howned) hs

/-! ### The operations one by one -/

lemma AcquireRequest.clean (h : request.validate = .ok ())
    (hlabel : request.context.isSome → Ascii request.label)
    (hcontext : ∀ context ∈ request.context, context.AsciiTexts)
    (henv : ∀ spec ∈ request.environment, spec.AsciiTexts) : request.Clean := by
  simp only [AcquireRequest.validate, refuse_bind, refuse_eq_ok, not_or, not_and] at h
  obtain ⟨_, _, _, _, hlab, hpurpose⟩ := h
  refine ⟨?_, ?_, hcontext, henv⟩
  · by_cases hc : request.context.isSome
    · exact hlabel hc
    · by_cases hnil : request.label = []
      · rw [hnil]
        exact ascii_nil
      · exact safeLeaseLabel_ascii (by simpa using hlab hnil (by simpa using hc))
  · by_cases hnil : request.purpose = []
    · rw [hnil]
      exact ascii_nil
    · exact safeLeaseLabel_ascii (by simpa using hpurpose hnil)

/-- The pool as an acquire finds it: the body fences expired leases a second time. -/
abbrev LeaseStore.atAcquire (store : LeaseStore) (opened : LeasePool) : LeasePool :=
  expireStale (store.readings 1) opened

/-- A successful acquire: what it found, what it drew, what it writes and what it answers. -/
structure Acquired (store : LeaseStore) (disk : Disk) (request : AcquireRequest) (draw : Draw)
    (opened : LeasePool) (slot : LeaseSlot) (leaseID capability : Bytes)
    (written : Option LeasePool) (grant : LeaseGrant) : Prop where
  valid : request.validate = .ok ()
  opens : store.openPool disk = .ok opened
  admits : opened.admissionClosed = false
  found : findSlot (store.atAcquire opened) request.slotID = some slot
  free : slot.state = .available
  drewID : randomToken draw.leaseID = .ok leaseID
  drewCapability : randomToken draw.capability = .ok capability
  writes : written = some { opened with
    slots := Pointwise.update (fun s => s.slotID = request.slotID)
      (fun _ => slot.provision store.acquireOwner request leaseID capability (store.now 1))
      (store.atAcquire opened).slots }
  answers : grant = (slot.provision store.acquireOwner request leaseID capability
    (store.now 1)).grant request capability

lemma acquire_ok (h : store.acquire request draw disk = .ok (written, grant)) :
    ∃ opened slot leaseID capability,
      Acquired store disk request draw opened slot leaseID capability written grant := by
  obtain ⟨_, hvalid, h⟩ := of_bind_ok h
  obtain ⟨opened, pool', hopen, hbody, rfl⟩ := withLock_ok h
  obtain ⟨hadmits, hbody⟩ := refuse_bind.mp hbody
  obtain ⟨slot, slot', hfind, hchange, rfl⟩ := onSlotElse_ok hbody
  obtain ⟨hstate, hchange⟩ := refuse_bind.mp hchange
  obtain ⟨leaseID, hid, hchange⟩ := of_bind_ok hchange
  obtain ⟨capability, hcap, hchange⟩ := of_bind_ok hchange
  simp only [pure, Except.pure, Except.ok.injEq, Prod.mk.injEq] at hchange
  obtain ⟨rfl, rfl⟩ := hchange
  exact ⟨opened, slot, leaseID, capability, hvalid, hopen, by simpa [expireStale] using hadmits,
    hfind, not_not.mp hstate, hid, hcap, rfl, rfl⟩

lemma acquire_change (call : Call) (hop : call.op.acquisition = some (request, draw))
    (hclean : request.validate = .ok () → request.Clean)
    (h : call.store.acquire request draw disk = .ok (written, grant)) :
    Changes call disk written := by
  obtain ⟨opened, slot, leaseID, capability, hacq⟩ := acquire_ok h
  -- the assignments to the slot that was found, after the second look at the clock
  have hslots : List.Forall₂ (fun s s' => s' = s ∨ BodyMove call.store call.op s s')
      (opened.slots.map (LeaseSlot.expire (call.store.readings 1)))
      (Pointwise.update (fun s => s.slotID = request.slotID)
        (fun _ => slot.provision call.store.acquireOwner request leaseID capability
          (call.store.now 1)) (opened.slots.map (LeaseSlot.expire (call.store.readings 1)))) := by
    refine Pointwise.forall₂_update (fun s => .inl rfl) fun s hs => .inr ?_
    obtain rfl : s = slot := Option.some.inj (hs.symm.trans hacq.found)
    exact .acquire hop (findSlot_eq_some hacq.found).2 (hclean hacq.valid) hacq.free hacq.drewID
      hacq.drewCapability
  rw [List.forall₂_map_left_iff] at hslots
  rw [hacq.writes]
  have hresize : call.op ≠ .prepareResize := by
    intro h
    rw [h] at hop
    cases hop
  refine Changes.of_body call hresize hacq.opens (hslots.imp fun s s' hs => ?_)
    (.kept rfl rfl rfl rfl)
  rcases hs with rfl | hbody
  · exact .inl (expired_expire _ s)
  · exact .inr ⟨_, expired_expire _ s, hbody⟩

/-- The three entry points of an acquire. -/
lemma acquireSlot_change {label : Bytes}
    (h : store.acquireSlot draw clientID fingerprint label purpose slotID disk
      = .ok (written, grant)) :
    Changes ⟨store, .acquireSlot draw clientID fingerprint label purpose slotID⟩ disk written := by
  obtain ⟨_, _, h⟩ := of_bind_ok h
  refine acquire_change ⟨store, _⟩ rfl (fun hvalid => AcquireRequest.clean hvalid ?_ ?_
    (by simp)) h
  · intro hsome
    obtain ⟨context, hcontext⟩ := Option.isSome_iff_exists.mp hsome
    exact legacyLeaseContext_label_ascii hcontext
  · intro context hcontext
    exact legacyLeaseContext_ascii hcontext

lemma acquireV2Slot_change {yard project run : Bytes}
    (h : store.acquireV2Slot draw clientID fingerprint yard project run purpose slotID disk
      = .ok (written, grant)) :
    Changes ⟨store, .acquireV2Slot draw clientID fingerprint yard project run purpose slotID⟩ disk
      written := by
  obtain ⟨_, _, h⟩ := of_bind_ok h
  obtain ⟨_, hcontext, h⟩ := of_bind_ok h
  have hascii := validateLeaseContext_ascii hcontext
  exact acquire_change ⟨store, _⟩ rfl (fun hvalid => AcquireRequest.clean hvalid
    (fun _ => hascii.displayLabel) (by rintro _ ⟨⟩; exact hascii) (by simp)) h

lemma acquireV3Slot_change {spec : EnvironmentSpec} {yard project run : Bytes}
    (h : store.acquireV3Slot draw spec clientID fingerprint yard project run purpose slotID disk
      = .ok (written, grant)) :
    Changes ⟨store, .acquireV3Slot draw spec clientID fingerprint yard project run purpose slotID⟩
      disk written := by
  obtain ⟨_, hspec, h⟩ := of_bind_ok h
  obtain ⟨_, _, h⟩ := of_bind_ok h
  obtain ⟨_, hcontext, h⟩ := of_bind_ok h
  have hascii := validateLeaseContext_ascii hcontext
  exact acquire_change ⟨store, _⟩ rfl (fun hvalid => AcquireRequest.clean hvalid
    (fun _ => hascii.displayLabel) (by rintro _ ⟨⟩; exact hascii)
    (by rintro _ ⟨⟩; exact EnvironmentSpec.validate_ascii hspec)) h

lemma reserveEnvironment_change {config : CapacityConfig} {host : Telemetry}
    (h : store.reserveEnvironment config host grant disk = .ok (written, a)) :
    Changes ⟨store, .reserveEnvironment config host grant⟩ disk written := by
  obtain ⟨opened, pool', hopen, hbody, rfl⟩ := withLock_ok h
  refine Changes.of_found ⟨store, _⟩ (by simp) hopen hbody fun s s' a hname hs => ?_
  obtain ⟨hcheck, hs⟩ := refuse_bind.mp hs
  split at hs
  · cases hs
  · obtain ⟨_, _, hs⟩ := of_bind_ok hs
    cases hs
    exact .inr (.reserve hname (by tauto))

lemma pinBase_change (h : store.pinBase grant fingerprint disk = .ok (written, a)) :
    Changes ⟨store, .pinBase grant fingerprint⟩ disk written := by
  refine onSlot_change ⟨store, _⟩ (by simp) h fun s s' a hname hs => ?_
  obtain ⟨hcheck, hs⟩ := refuse_bind.mp hs
  cases hs
  exact .inr (.pinBase hname (by tauto))

lemma clearLegacyRetained_change (h : store.clearLegacyRetained grant disk = .ok (written, a)) :
    Changes ⟨store, .clearLegacyRetained grant⟩ disk written := by
  refine mutateOwned_change ⟨store, _⟩ (by simp) h fun s s' a hname howned hs => ?_
  cases hs
  exact .inr (.clearLegacy hname howned)

lemma handoff_change (h : store.handoff grant disk = .ok (written, a)) :
    Changes ⟨store, .handoff grant⟩ disk written := by
  refine mutateOwned_change ⟨store, _⟩ (by simp) h fun s s' a hname howned hs => ?_
  obtain ⟨hstate, hs⟩ := refuse_bind.mp hs
  cases hs
  exact .inr (.handoff hname howned (not_not.mp hstate))

lemma markHeld_change {a : Time} (h : store.markHeld grant disk = .ok (written, a)) :
    Changes ⟨store, .markHeld grant⟩ disk written := by
  refine mutateOwned_change ⟨store, _⟩ (by simp) h fun s s' a hname howned hs => ?_
  obtain ⟨hstate, hs⟩ := refuse_bind.mp hs
  cases hs
  exact .inr (.markHeld hname howned (not_not.mp hstate))

lemma renew_change {a : Time} (h : store.renew grant disk = .ok (written, a)) :
    Changes ⟨store, .renew grant⟩ disk written := by
  refine mutateOwned_change ⟨store, _⟩ (by simp) h fun s s' a hname howned hs => ?_
  obtain ⟨hstate, hs⟩ := refuse_bind.mp hs
  cases hs
  exact .inr (.renew hname howned (by tauto))

lemma beginDrain_change (h : store.beginDrain grant disk = .ok (written, a)) :
    Changes ⟨store, .beginDrain grant⟩ disk written := by
  refine mutateOwned_change ⟨store, _⟩ (by simp) h fun s s' a hname howned hs => ?_
  rw [beginDrainSlotOwned] at hs
  split at hs
  · cases hs
    exact .inl rfl
  · obtain ⟨hstate, hs⟩ := refuse_bind.mp hs
    cases hs
    exact .inr (.beginDrain hname howned (by tauto))

lemma abortProvisioning_change (h : store.abortProvisioning grant disk = .ok (written, a)) :
    Changes ⟨store, .abortProvisioning grant⟩ disk written := by
  refine mutateOwned_change ⟨store, _⟩ (by simp) h fun s s' a hname howned hs => ?_
  obtain ⟨hstate, hs⟩ := refuse_bind.mp hs
  cases hs
  exact .inr (.abort hname howned (not_not.mp hstate))

lemma quarantine_change {cause : Bytes} (h : store.quarantine grant cause disk = .ok (written, a)) :
    Changes ⟨store, .quarantine grant cause⟩ disk written := by
  refine mutateOwned_change ⟨store, _⟩ (by simp) h fun s s' a hname howned hs => ?_
  obtain ⟨hstate, hs⟩ := refuse_bind.mp hs
  cases hs
  exact .inr (.quarantine hname howned hstate)

lemma beginDrainSlot_change (h : store.beginDrainSlot id reason disk = .ok (written, a)) :
    Changes ⟨store, .beginDrainSlot id reason⟩ disk written := by
  refine onSlot_change ⟨store, _⟩ (by simp) h fun s s' a hname hs => ?_
  rw [beginDrainNamedSlot] at hs
  split at hs <;> cases hs
  · exact .inl rfl
  · exact .inl rfl
  · exact .inr (.drainFor rfl (by rintro _ ⟨⟩; exact hname) (.inl (by assumption)))
  · exact .inr (.drainFor rfl (by rintro _ ⟨⟩; exact hname) (.inr (by assumption)))

lemma beginExpectedDrain_change {a : Bool}
    (h : store.beginExpectedDrain expected reason disk = .ok (written, a)) :
    Changes ⟨store, .beginExpectedDrain expected reason⟩ disk written := by
  obtain ⟨_, _, h⟩ := of_bind_ok h
  refine onSlot_change ⟨store, _⟩ (by simp) h fun s s' a hname hs => ?_
  obtain ⟨_, hs⟩ := refuse_bind.mp hs
  split at hs <;> cases hs
  · exact .inl rfl
  · exact .inr (.drainFor rfl (by rintro _ ⟨⟩; exact hname) (.inl (by assumption)))
  · exact .inr (.drainFor rfl (by rintro _ ⟨⟩; exact hname) (.inr (by assumption)))
  · exact .inl rfl

lemma finishDrain_change {stopErr : Option Bytes}
    (h : store.finishDrain id stopErr disk = .ok (written, a)) :
    Changes ⟨store, .finishDrain id stopErr⟩ disk written := by
  refine onSlot_change ⟨store, _⟩ (by simp) h fun s s' a hname hs => ?_
  unfold finishDrainSlot at hs
  split at hs
  · cases hs
    exact .inl rfl
  · obtain ⟨hstate, hs⟩ := refuse_bind.mp hs
    cases stopErr with
    | none =>
      cases hs
      exact .inr (.finishDrain hname (not_not.mp hstate))
    | some text =>
      cases hs
      exact .inr (.drainFailed hname (not_not.mp hstate))

lemma setQuarantineIncident_change {failureEventID incidentID : Bytes}
    (h : store.setQuarantineIncident id failureEventID incidentID disk = .ok (written, a)) :
    Changes ⟨store, .setQuarantineIncident id failureEventID incidentID⟩ disk written := by
  obtain ⟨hids, h⟩ := refuse_bind.mp h
  simp only [Bool.not_eq_true', not_or, Bool.not_eq_false] at hids
  refine onSlot_change ⟨store, _⟩ (by simp) h fun s s' a hname hs => ?_
  obtain ⟨hstate, hs⟩ := refuse_bind.mp hs
  cases hs
  exact .inr (.setIncident hname hids.1 hids.2 (by tauto))

lemma interruptRecovery_change {cause : Option Bytes}
    (h : store.interruptRecovery id cause disk = .ok (written, a)) :
    Changes ⟨store, .interruptRecovery id cause⟩ disk written := by
  cases cause with
  | none => cases h
  | some text =>
    refine onSlot_change ⟨store, _⟩ (by simp) h fun s s' a hname hs => ?_
    obtain ⟨hstate, hs⟩ := refuse_bind.mp hs
    cases hs
    exact .inr (.interrupt hname (not_not.mp hstate))

lemma beginScheduledRecovery_change {force : Bool} {a : Option LeaseSlot × Bool}
    (h : store.beginScheduledRecovery id force disk = .ok (written, a)) :
    Changes ⟨store, .beginScheduledRecovery id force⟩ disk written := by
  refine onSlot_change ⟨store, _⟩ (by simp) h fun s s' a hname hs => ?_
  rw [beginScheduledRecoverySlot] at hs
  split at hs
  · cases hs
    exact .inl rfl
  · obtain ⟨hstate, hs⟩ := refuse_bind.mp hs
    split at hs <;> cases hs
    · exact .inl rfl
    · exact .inr (.recover rfl hname (not_not.mp hstate))

lemma beginExpectedRecovery_change {a : LeaseSlot × Bool}
    (h : store.beginExpectedRecovery expected disk = .ok (written, a)) :
    Changes ⟨store, .beginExpectedRecovery expected⟩ disk written := by
  obtain ⟨_, _, h⟩ := of_bind_ok h
  refine onSlot_change ⟨store, _⟩ (by simp) h fun s s' a hname hs => ?_
  obtain ⟨_, hs⟩ := refuse_bind.mp hs
  split at hs <;> cases hs
  · exact .inl rfl
  · exact .inl rfl
  · exact .inr (.recover rfl hname (by assumption))

lemma finishRecovery_change {cause : Option Bytes} {failureEventID incidentID : Bytes}
    {a : LeaseSlot}
    (h : store.finishRecovery id cause failureEventID incidentID disk = .ok (written, a)) :
    Changes ⟨store, .finishRecovery id cause failureEventID incidentID⟩ disk written := by
  refine onSlot_change ⟨store, _⟩ (by simp) h fun s s' a hname hs => ?_
  obtain ⟨hstate, hs⟩ := refuse_bind.mp hs
  cases cause with
  | none =>
    cases hs
    exact .inr (.recovered hname (not_not.mp hstate))
  | some text =>
    obtain ⟨hevent, hs⟩ := refuse_bind.mp hs
    obtain ⟨hincident, hs⟩ := refuse_bind.mp hs
    cases hs
    simp only [Bool.not_eq_true', not_and, Bool.not_eq_false] at hevent hincident
    exact .inr (.recoveryFailed hname (not_not.mp hstate) (by tauto) (by tauto))

lemma retireLegacyBegin_change {configured : ℕ}
    (h : store.retireLegacyBegin configured expected disk = .ok (written, a)) :
    Changes ⟨store, .retireLegacyBegin configured expected⟩ disk written := by
  obtain ⟨_, h⟩ := refuse_bind.mp h
  refine onSlot_change ⟨store, _⟩ (by simp) h fun s s' a hname hs => ?_
  obtain ⟨_, hs⟩ := refuse_bind.mp hs
  obtain ⟨hlegacy, hs⟩ := refuse_bind.mp hs
  obtain ⟨hstate, hs⟩ := refuse_bind.mp hs
  cases hs
  exact .inr (.legacyBegin hname (by simpa using hlegacy) (by tauto))

lemma retireLegacyFinish_change (h : store.retireLegacyFinish expected disk = .ok (written, a)) :
    Changes ⟨store, .retireLegacyFinish expected⟩ disk written := by
  refine onSlot_change ⟨store, _⟩ (by simp) h fun s s' a hname hs => ?_
  obtain ⟨hcheck, hs⟩ := refuse_bind.mp hs
  cases hs
  exact .inr (.legacyFinish hname (by tauto))

lemma beginDrainAll_change (h : store.beginDrainAll reason disk = .ok (written, a)) :
    Changes ⟨store, .beginDrainAll reason⟩ disk written := by
  obtain ⟨opened, pool', hopen, hbody, rfl⟩ := withLock_ok h
  cases hbody
  refine Changes.of_body ⟨store, _⟩ (by simp) hopen ?_ (.kept rfl rfl rfl rfl)
  rw [List.forall₂_map_right_iff, List.forall₂_same]
  intro s _
  split
  · exact .inr ⟨s, .kept s, .drainFor rfl (by simp) (by assumption)⟩
  · exact .inl (.kept s)

lemma status_change {a : LeasePool} (h : store.status disk = .ok (written, a)) :
    Changes ⟨store, .status⟩ disk written := by
  obtain ⟨opened, pool', hopen, hbody, rfl⟩ := withLock_ok h
  cases hbody
  exact Changes.of_body ⟨store, _⟩ (by simp) hopen (List.forall₂_same.mpr fun s _ => .inl (.kept s))
    (.kept rfl rfl rfl rfl)

lemma fenceExpectedPool_change {expected : Bytes}
    (h : store.fenceExpectedPool expected disk = .ok (written, a)) :
    Changes ⟨store, .fenceExpectedPool expected⟩ disk written := by
  obtain ⟨opened, pool', hopen, hbody, rfl⟩ := withLock_ok h
  obtain ⟨_, hbody⟩ := refuse_bind.mp hbody
  cases hbody
  exact Changes.of_body ⟨store, _⟩ (by simp) hopen (List.forall₂_same.mpr fun s _ => .inl (.kept s))
    (.fenced rfl rfl rfl rfl)

lemma openAdmission_change (h : store.openAdmission disk = .ok (written, a)) :
    Changes ⟨store, .openAdmission⟩ disk written := by
  obtain ⟨opened, pool', hopen, hbody, rfl⟩ := withLock_ok h
  cases hbody
  exact Changes.of_body ⟨store, _⟩ (by simp) hopen (List.forall₂_same.mpr fun s _ => .inl (.kept s))
    (.opened rfl rfl rfl rfl)

lemma checkRetiring_ok {slots : List LeaseSlot} (h : checkRetiring slots = .ok a) :
    ∀ s ∈ slots, (s.state = .available ∨ s.fencedForResize) ∧ s.legacyRetained = false := by
  rw [checkRetiring] at h
  split at h
  · cases h
  · rename_i hnone
    intro s hs
    have hrefusal := List.findSome?_eq_none_iff.mp hnone s hs
    rw [retireRefusal] at hrefusal
    split at hrefusal
    · cases hrefusal
    · rename_i hlegacy
      split at hrefusal
      · rename_i hstate
        exact ⟨hstate.symm, by simpa using hlegacy⟩
      · cases hrefusal

lemma prepareResize_change {a : List LeaseSlot}
    (h : store.prepareResize disk = .ok (some pool', a)) :
    Changes ⟨store, .prepareResize⟩ disk (some pool') := by
  obtain ⟨pool, hload, h⟩ := of_bind_ok h
  split at h
  · rename_i hlt
    obtain ⟨grown, hgrown, h⟩ := of_bind_ok h
    cases h
    obtain ⟨hlen, rfl⟩ := reconcileSlotCount_ok hgrown
    exact ⟨pool, _, rfl, hload, .ordinary (by dsimp only; omega) hlen
      (List.forall₂_same.mpr fun s _ => .refl _ s) (.kept rfl rfl rfl rfl) fun _ => rfl⟩
  · split at h
    · cases h
    · obtain ⟨_, hcheck, h⟩ := of_bind_ok h
      cases h
      exact ⟨pool, _, rfl, hload, .retired rfl (by dsimp only; omega) (checkRetiring_ok hcheck)⟩

lemma commitResize_change (h : store.commitResize disk = .ok (written, a)) :
    Changes ⟨store, .commitResize⟩ disk written := by
  obtain ⟨pool, hload, h⟩ := of_bind_ok h
  obtain ⟨hlen, h⟩ := refuse_bind.mp h
  split at h
  · cases h
  · rename_i hnone
    cases h
    refine ⟨pool, _, rfl, hload, .committed rfl (by dsimp only; omega) fun s hs => ?_⟩
    simpa using List.find?_eq_none.mp hnone s hs

/-- A rebuild starts over, and only when the files do not load. -/
lemma rebuild_ok (h : store.rebuildCorruptPoolForRecovery id disk = .ok (written, a)) :
    corruptOnDisk disk ∧ ∃ number, slotNumber id store.slotCount = some number
      ∧ written = some (store.rebuiltPool number) := by
  rw [LeaseStore.rebuildCorruptPoolForRecovery] at h
  split at h
  · cases h
  · rename_i number hnumber
    split at h
    · cases h
    · rename_i e hload
      split at h
      · rename_i hcorrupt
        cases h
        exact ⟨by rw [corruptOnDisk, hload]; exact hcorrupt, number, hnumber, rfl⟩
      · cases h

/-- The operations that do not go through `withLock`. -/
def Op.unlocked : Op → Bool
  | .prepareResize | .resizePlan | .commitResize | .rebuildCorruptPoolForRecovery _ => true
  | _ => false

/-- Every operation through `withLock` that succeeds writes a change of the pool it loaded. -/
lemma plan_changes {call : Call} {reply : Reply} (h : call.plan disk = .ok (written, reply))
    (hop : call.op.unlocked = false) : Changes call disk written := by
  obtain ⟨store, op⟩ := call
  cases op <;> simp only [Call.plan] at h <;> obtain ⟨a, h, -⟩ := replying_ok h
  case prepareResize | resizePlan | commitResize | rebuildCorruptPoolForRecovery => cases hop
  case status => exact status_change h
  case acquireSlot => exact acquireSlot_change h
  case acquireV2Slot => exact acquireV2Slot_change h
  case acquireV3Slot => exact acquireV3Slot_change h
  case reserveEnvironment => exact reserveEnvironment_change h
  case pinBase => exact pinBase_change h
  case clearLegacyRetained => exact clearLegacyRetained_change h
  case handoff => exact handoff_change h
  case markHeld => exact markHeld_change h
  case renew => exact renew_change h
  case beginDrain => exact beginDrain_change h
  case abortProvisioning => exact abortProvisioning_change h
  case quarantine => exact quarantine_change h
  case beginDrainAll => exact beginDrainAll_change h
  case beginDrainSlot => exact beginDrainSlot_change h
  case beginExpectedDrain => exact beginExpectedDrain_change h
  case finishDrain => exact finishDrain_change h
  case setQuarantineIncident => exact setQuarantineIncident_change h
  case interruptRecovery => exact interruptRecovery_change h
  case beginScheduledRecovery => exact beginScheduledRecovery_change h
  case beginExpectedRecovery => exact beginExpectedRecovery_change h
  case finishRecovery => exact finishRecovery_change h
  case fenceExpectedPool => exact fenceExpectedPool_change h
  case openAdmission => exact openAdmission_change h
  case retireLegacyBegin => exact retireLegacyBegin_change h
  case retireLegacyFinish => exact retireLegacyFinish_change h

/-- **Every pool that a call decides to write is a change of the pool it loaded, or the pool of
a rebuild of files that do not load.** -/
theorem plan_change {call : Call} {reply : Reply} (h : call.plan disk = .ok (some pool', reply)) :
    (∃ pool, load disk = .ok pool ∧ PoolChange call pool pool')
      ∨ ∃ id number, call.op = .rebuildCorruptPoolForRecovery id ∧ corruptOnDisk disk
          ∧ slotNumber id call.store.slotCount = some number
          ∧ pool' = call.store.rebuiltPool number := by
  have of_changes : Changes call disk (some pool') →
      ∃ pool, load disk = .ok pool ∧ PoolChange call pool pool' := by
    rintro ⟨pool, _, ⟨⟩, hload, hchange⟩
    exact ⟨pool, hload, hchange⟩
  cases hop : call.op.unlocked with
  | false => exact .inl (of_changes (plan_changes h hop))
  | true =>
    obtain ⟨store, op⟩ := call
    cases op <;> cases hop <;> simp only [Call.plan] at h <;> obtain ⟨a, h, -⟩ := replying_ok h
    case prepareResize.refl => exact .inl (of_changes (prepareResize_change h))
    case commitResize.refl => exact .inl (of_changes (commitResize_change h))
    case resizePlan.refl =>
      obtain ⟨_, _, h⟩ := of_bind_ok h
      obtain ⟨_, _, h⟩ := of_bind_ok h
      cases h
    case rebuildCorruptPoolForRecovery.refl =>
      obtain ⟨hcorrupt, number, hnumber, hpool⟩ := rebuild_ok h
      exact .inr ⟨_, number, rfl, hcorrupt, hnumber, Option.some.inj hpool⟩

/-- **What a crash between the files leaves**: the files as they were, the new journal next to the
old state file, or, in a rebuild, the new journal alone. -/
theorem crash_cases (call : Call) (disk : Disk) :
    ((∀ pool reply, call.plan disk ≠ .ok (some pool, reply)) ∧ crash disk call = disk)
      ∨ (∃ pool pool' reply, load disk = .ok pool ∧ call.plan disk = .ok (some pool', reply)
          ∧ PoolChange call pool pool' ∧ crash disk call = writeJournal pool' disk)
      ∨ ∃ id number, call.op = .rebuildCorruptPoolForRecovery id ∧ corruptOnDisk disk
          ∧ crash disk call
            = { writeJournal (call.store.rebuiltPool number) disk with main := .absent } := by
  rw [crash]
  split
  · rename_i pool' reply id hplan hop
    obtain ⟨store, op⟩ := call
    obtain rfl : op = .rebuildCorruptPoolForRecovery id := hop
    simp only [Call.plan] at hplan
    obtain ⟨_, hrebuild, _⟩ := replying_ok hplan
    obtain ⟨hcorrupt, number, _, hpool⟩ := rebuild_ok hrebuild
    cases hpool
    exact .inr (.inr ⟨id, number, rfl, hcorrupt, rfl⟩)
  · rename_i pool' reply hplan hop
    rcases plan_change hplan with ⟨pool, hload, hchange⟩ | ⟨id, _, hrebuild, _⟩
    · exact .inr (.inl ⟨pool, pool', reply, hload, hplan, hchange, rfl⟩)
    · exact absurd hrebuild (hop id)
  · rename_i hnone _
    exact .inl ⟨fun pool reply hplan => hnone pool reply hplan, rfl⟩

end Subyard.Lease
