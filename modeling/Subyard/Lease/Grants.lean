import Subyard.Lease.Reach

/-!
The grants of a run and the slots that carry their lease ids.

* `grantOf`, `grants`: the grant a call answers with, and all grants of a run in order.
* `grant_acquired`: only an acquire answers with a grant, and it is the acquire of a free slot of
  a pool that admits.
* `leaseID_origin`: a lease id in the state file after a call was there before, in the slot of
  the same name, or is the one the call just issued.
-/

namespace Subyard.Lease

open Text Fallible

/-- The grant a call answers with. -/
def grantOf (disk : Disk) (call : Call) : Option LeaseGrant :=
  match (exec call disk).2 with
  | .ok (.granted grant) => some grant
  | _ => none

/-- The grants of a run, in order. -/
def grants : Disk → List Call → List LeaseGrant
  | _, [] => []
  | disk, call :: calls => (grantOf disk call).toList ++ grants (step disk call) calls

lemma grants_append (disk : Disk) (calls more : List Call) :
    grants disk (calls ++ more) = grants disk calls ++ grants (Run.run step disk calls) more := by
  induction calls generalizing disk with
  | nil => rfl
  | cons call calls ih => simp only [List.cons_append, grants, ih, Run.run_cons, List.append_assoc]

/-- A call of one of the acquiring operations, inverted. -/
lemma plan_of_acquisition {call : Call} {request : AcquireRequest} {draw : Draw} {disk : Disk}
    {written : Option LeasePool} {reply : Reply}
    (hop : call.op.acquisition = some (request, draw))
    (h : call.plan disk = .ok (written, reply)) :
    ∃ grant, reply = .granted grant
      ∧ call.store.acquire request draw disk = .ok (written, grant) := by
  obtain ⟨store, op⟩ := call
  cases op <;> simp only [Op.acquisition, reduceCtorEq, Option.some.injEq, Prod.mk.injEq] at hop
    <;> obtain ⟨rfl, rfl⟩ := hop <;> simp only [Call.plan] at h <;>
    obtain ⟨grant, hacq, rfl⟩ := replying_ok h
  case acquireSlot =>
    obtain ⟨_, _, hacq⟩ := of_bind_ok hacq
    exact ⟨grant, rfl, hacq⟩
  case acquireV2Slot =>
    obtain ⟨_, _, hacq⟩ := of_bind_ok hacq
    obtain ⟨_, _, hacq⟩ := of_bind_ok hacq
    exact ⟨grant, rfl, hacq⟩
  case acquireV3Slot =>
    obtain ⟨_, _, hacq⟩ := of_bind_ok hacq
    obtain ⟨_, _, hacq⟩ := of_bind_ok hacq
    obtain ⟨_, _, hacq⟩ := of_bind_ok hacq
    exact ⟨grant, rfl, hacq⟩

/-- Only an acquiring operation answers with a grant. -/
lemma acquisition_of_granted {call : Call} {disk : Disk} {written : Option LeasePool}
    {grant : LeaseGrant} (h : call.plan disk = .ok (written, .granted grant)) :
    ∃ request draw, call.op.acquisition = some (request, draw) := by
  obtain ⟨store, op⟩ := call
  cases op <;> simp only [Call.plan] at h <;> obtain ⟨_, _, hreply⟩ := replying_ok h
  case acquireSlot | acquireV2Slot | acquireV3Slot => exact ⟨_, _, rfl⟩
  all_goals cases hreply

/-- A grant is in the answer of the plan. -/
lemma grantOf_eq_some {disk : Disk} {call : Call} {grant : LeaseGrant} :
    grantOf disk call = some grant ↔ ∃ written, call.plan disk = .ok (written, .granted grant) := by
  rw [grantOf]
  constructor
  · intro h
    split at h
    · rename_i hreply
      cases h
      exact plan_of_exec_ok hreply
    · cases h
  · rintro ⟨written, hplan⟩
    rw [exec]
    cases written <;> simp [hplan]

/-- **Only an acquire of a free slot, in a pool that admits, answers with a grant.** -/
theorem grant_acquired {disk : Disk} {call : Call} {grant : LeaseGrant}
    (h : grantOf disk call = some grant) :
    ∃ request draw opened slot leaseID capability written,
      call.op.acquisition = some (request, draw)
        ∧ call.plan disk = .ok (written, .granted grant)
        ∧ Acquired call.store disk request draw opened slot leaseID capability written grant := by
  obtain ⟨written, hplan⟩ := grantOf_eq_some.mp h
  obtain ⟨request, draw, hop⟩ := acquisition_of_granted hplan
  obtain ⟨grant', hreply, hacq⟩ := plan_of_acquisition hop hplan
  cases hreply
  obtain ⟨opened, slot, leaseID, capability, hacq⟩ := acquire_ok hacq
  exact ⟨request, draw, opened, slot, leaseID, capability, written, hop, hplan, hacq⟩

section Acquired

variable {store : LeaseStore} {disk : Disk} {request : AcquireRequest} {draw : Draw}
  {opened : LeasePool} {slot : LeaseSlot} {leaseID capability : Bytes} {written : Option LeasePool}
  {grant : LeaseGrant}

lemma Acquired.grant_leaseID
    (h : Acquired store disk request draw opened slot leaseID capability written grant) :
    grant.leaseID = leaseID := by
  rw [h.answers]
  rfl

lemma Acquired.grant_slotID
    (h : Acquired store disk request draw opened slot leaseID capability written grant) :
    grant.slotID = request.slotID := by
  rw [h.answers]
  exact (findSlot_eq_some h.found).2

end Acquired

variable {s s' : LeaseSlot}

/-- The slot is leased to someone who may use it. -/
def LeaseSlot.InUse (s : LeaseSlot) : Prop := s.state = .provisioning ∨ s.state = .held

instance (s : LeaseSlot) : Decidable s.InUse := inferInstanceAs (Decidable (_ ∨ _))

lemma Expired.inUse (h : Expired s s') (huse : s'.InUse) : s' = s := by
  cases h with
  | kept => rfl
  | fenced => rcases huse with h | h <;> cases h

lemma Expired.leaseID (h : Expired s s') : s'.leaseID = s.leaseID := by
  cases h <;> rfl

/-- What a body does to a lease id: it keeps it, and the slot is in use only if it was; or it
clears it; or it writes the one just drawn. -/
lemma BodyMove.leaseID {store : LeaseStore} {op : Op} (h : BodyMove store op s s') :
    (s'.leaseID = s.leaseID ∧ (s'.InUse → s.InUse)) ∨ s'.leaseID = []
      ∨ ∃ request draw leaseID, op.acquisition = some (request, draw)
          ∧ s.slotID = request.slotID ∧ randomToken draw.leaseID = .ok leaseID
          ∧ s'.leaseID = leaseID := by
  cases h with
  | acquire hop hname hclean hstate hid hcap => exact .inr (.inr ⟨_, _, _, hop, hname, hid, rfl⟩)
  | abort | finishDrain | recovered | legacyFinish => exact .inr (.inl rfl)
  | markHeld hname howned hstate => exact .inl ⟨rfl, fun _ => .inl hstate⟩
  | reserve | pinBase | clearLegacy | handoff | renew | setIncident => exact .inl ⟨rfl, fun h => h⟩
  | beginDrain | quarantine | drainFor | drainFailed | interrupt | recover | recoveryFailed | retire
    | legacyBegin => exact .inl ⟨rfl, fun h => by rcases h with h | h <;> cases h⟩

lemma Reloaded.leaseID (h : Reloaded s s') : s'.leaseID = s.leaseID := by
  obtain ⟨recovery, legacy, rfl⟩ := h
  rfl

lemma Reloaded.inUse (h : Reloaded s s') : s'.InUse ↔ s.InUse := by
  obtain ⟨recovery, legacy, rfl⟩ := h
  rfl

/-- The same for a whole call, between the state files before and after it. -/
lemma Evolves.leaseID {call : Call} (h : Evolves call s s') (hs : Ascii s.leaseID) :
    (s'.leaseID = s.leaseID ∧ (s'.InUse → s.InUse)) ∨ s'.leaseID = []
      ∨ ∃ request draw, call.op.acquisition = some (request, draw)
          ∧ s.slotID = request.slotID ∧ randomToken draw.leaseID = .ok s'.leaseID := by
  obtain ⟨loaded, changed, hre, hchange, rfl⟩ := h
  -- an id that was kept is seven-bit and survives the file
  have hkept : changed.leaseID = loaded.leaseID → changed.image.leaseID = s.leaseID := by
    intro heq
    rw [← coerce_of_valid hs.valid, ← hre.leaseID, ← heq]
    rfl
  cases hchange with
  | expired hexp =>
    refine .inl ⟨hkept hexp.leaseID, fun huse => hre.inUse.mp ?_⟩
    rw [← hexp.inUse huse]
    exact huse
  | body hexp hbody =>
    rcases hbody.leaseID with ⟨heq, huse⟩ | hnil | ⟨request, draw, leaseID, hop, hname, hid, heq⟩
    · refine .inl ⟨hkept (heq.trans hexp.leaseID), fun h => hre.inUse.mp ?_⟩
      rw [← hexp.inUse (huse h)]
      exact huse h
    · exact .inr (.inl (coerce_eq_nil.mpr hnil))
    · refine .inr (.inr ⟨request, draw, hop, ?_, ?_⟩)
      · rw [← hname, hexp.slotID, hre.slotID]
      · show randomToken draw.leaseID = .ok (coerce changed.leaseID)
        rw [heq, coerce_of_valid (randomToken_ascii hid).valid]
        exact hid

/-- The lease ids in the state file are seven-bit, so they are read back as they were drawn. -/
lemma leaseID_ascii (calls : List Call) : ∀ s ∈ storedSlots (reached calls), Ascii s.leaseID := by
  refine slots_invariant (I := fun s => Ascii s.leaseID) (fun _ => ascii_nil)
    (fun _ _ _ => ascii_nil) (fun call s s' hs hev => ?_) calls
  rcases hev.leaseID hs with ⟨heq, _⟩ | hnil | ⟨_, _, _, _, hid⟩
  · rw [heq]
    exact hs
  · rw [hnil]
    exact ascii_nil
  · exact randomToken_ascii hid

/-- **Where a lease id in the state file comes from**: it was in the slot of that name before the
call, which was in use if the slot is now, or the call has just issued it. -/
theorem leaseID_origin (calls : List Call) (call : Call)
    (hs' : s' ∈ storedSlots (step (reached calls) call)) (hne : s'.leaseID ≠ []) :
    (∃ s ∈ storedSlots (reached calls), s.leaseID = s'.leaseID ∧ s.slotID = s'.slotID
        ∧ (s'.InUse → s.InUse))
      ∨ ∃ grant, grantOf (reached calls) call = some grant ∧ grant.leaseID = s'.leaseID
          ∧ grant.slotID = s'.slotID := by
  rcases step_cases call (reached calls) with hsame | ⟨pool', reply, hplan, hstep⟩
  · rw [hsame] at hs'
    exact .inl ⟨s', hs', rfl, rfl, fun h => h⟩
  rw [hstep, storedSlots_writePool] at hs'
  rcases plan_change hplan with ⟨pool, hload, hchange⟩ | ⟨id, number, _, _, _, rfl⟩
  · obtain ⟨before, hsub, hslots⟩ := hchange.evolves hload
    obtain ⟨s, hs, hev⟩ := Pointwise.exists_left hslots hs'
    have hcand := mem_candidates (hsub.subset hs)
    have hname : s'.slotID = s.slotID := hev.slotID_of_named (hcand.elim (slots_named calls s)
      fun ⟨number, hnumber⟩ => ⟨number, by rw [hnumber]; rfl⟩)
    have hascii : Ascii s.leaseID := hcand.elim (leaseID_ascii calls s)
      fun ⟨number, hnumber⟩ => by rw [hnumber]; exact ascii_nil
    rcases hev.leaseID hascii with ⟨heq, huse⟩ | hnil | ⟨request, draw, hop, hreq, hid⟩
    · -- a fresh slot carries no lease id
      rcases hcand with hs | ⟨number, rfl⟩
      · exact .inl ⟨s, hs, heq.symm, hname.symm, huse⟩
      · exact absurd heq hne
    · exact absurd hnil hne
    · obtain ⟨grant, rfl, hacq⟩ := plan_of_acquisition hop hplan
      obtain ⟨opened, slot, leaseID, capability, hacq⟩ := acquire_ok hacq
      refine .inr ⟨grant, grantOf_eq_some.mpr ⟨_, hplan⟩, ?_, ?_⟩
      · rw [hacq.grant_leaseID]
        exact Except.ok.inj (hacq.drewID.symm.trans hid)
      · rw [hacq.grant_slotID, hname, hreq]
  · obtain ⟨slot, hslot, rfl⟩ := List.mem_map.mp hs'
    obtain ⟨index, _, rfl⟩ := List.mem_map.mp hslot
    exact absurd rfl hne

/-! ### A lease in the ordinary way -/

/-- Two slots; the second is leased with the tokens drawn from one octet. -/
def secondSlotAcquire (b : UInt8) : Call :=
  ⟨quietStore 2 0, .acquireSlot (constantDraw b) (str "client") (str "key") [] [] (slotName 2)⟩

/-- The grant of its first lease. -/
def secondSlotGrant (b : UInt8) : LeaseGrant :=
  { slotID := slotName 2, resourceGeneration := 1, leaseID := hex (List.replicate 16 b),
    capability := hex (List.replicate 32 b), leaseEpoch := 1, expiresAt := provisioningTTL }

/-- The lease ends in the ordinary way. -/
def secondSlotRelease : List Call :=
  [⟨quietStore 2 0, .beginDrain (secondSlotGrant 7)⟩,
    ⟨quietStore 2 0, .finishDrain (slotName 2) none⟩]

/-- The pool shrinks to one slot. -/
def secondSlotDropped : List Call :=
  [⟨quietStore 1 0, .prepareResize⟩, ⟨quietStore 1 0, .commitResize⟩]

end Subyard.Lease
