import Subyard.Lease.Grants

/-!
A grant whose lease has ended is dead for good.

* `Left`, `Gone`: the slot of a grant is no longer in use for it, or no longer carries it.
* `stale_grant_fenced`: with distinct lease ids, the operations that need a live lease fail with
  such a grant, and every owner operation fails once the slot is gone for the grant; the files
  are left alone each time.
* `lost_grant_unknown_slot`: the failure need not be `ErrLeaseLost`, for a resize may have
  dropped the slot.
-/

namespace Subyard.Lease

open Text Fallible

/-- The slot of the grant is not in use for the grant. -/
def Left (disk : Disk) (grant : LeaseGrant) : Prop :=
  ∀ s ∈ storedSlots disk, s.slotID = grant.slotID → s.leaseID = grant.leaseID → ¬ s.InUse

/-- The slot of the grant was cleared, leased again or dropped. -/
def Gone (disk : Disk) (grant : LeaseGrant) : Prop :=
  ∀ s ∈ storedSlots disk, s.slotID = grant.slotID → s.leaseID ≠ grant.leaseID

instance (disk : Disk) (grant : LeaseGrant) : Decidable (Left disk grant) :=
  inferInstanceAs (Decidable (∀ s ∈ storedSlots disk, _))

instance (disk : Disk) (grant : LeaseGrant) : Decidable (Gone disk grant) :=
  inferInstanceAs (Decidable (∀ s ∈ storedSlots disk, _))

lemma Gone.left {disk : Disk} {grant : LeaseGrant} (h : Gone disk grant) : Left disk grant :=
  fun s hs hname hid => absurd hid (h s hs hname)

/-! ### Lease ids along a run -/

/-- Every lease id in the state file was issued, for the slot of that name. -/
lemma leaseID_issued (calls : List Call) : ∀ s ∈ storedSlots (reached calls), s.leaseID ≠ [] →
    ∃ grant ∈ grants emptyDisk calls, grant.leaseID = s.leaseID ∧ grant.slotID = s.slotID := by
  induction calls using List.reverseRecOn with
  | nil =>
    intro s hs
    cases hs
  | append_singleton calls call ih =>
    intro s hs hne
    rw [reached_concat] at hs
    rw [grants_append]
    rcases leaseID_origin calls call hs hne with ⟨old, hold, hid, hname, _⟩ | ⟨grant, hgrant, h⟩
    · obtain ⟨grant, hgrant, hgid, hgname⟩ := ih old hold (hid ▸ hne)
      exact ⟨grant, List.mem_append_left _ hgrant, hgid.trans hid, hgname.trans hname⟩
    · refine ⟨grant, List.mem_append_right _ ?_, h⟩
      rw [grants, show grantOf (Run.run step emptyDisk calls) call = some grant from hgrant]
      exact List.mem_cons_self ..

/-- A condition on the slots that carry a lease id, kept by every call that does not issue it:
what was so before cannot stop being so. -/
lemma carriers_run {P : LeaseSlot → Prop} {id : Bytes} (hne : id ≠ [])
    (hbad : ∀ s s' : LeaseSlot, (s'.InUse → s.InUse) → P s' → P s) (calls later : List Call)
    (hlater : ∀ grant ∈ grants (reached calls) later, grant.leaseID ≠ id)
    (h : ∀ s ∈ storedSlots (reached calls), s.leaseID = id → ¬ P s) :
    ∀ s ∈ storedSlots (reached (calls ++ later)), s.leaseID = id → ¬ P s := by
  induction later using List.reverseRecOn with
  | nil => simpa using h
  | append_singleton later call ih =>
    intro s hs hid hsbad
    rw [← List.append_assoc, reached_concat] at hs
    rw [grants_append] at hlater
    have hold := ih fun grant hgrant => hlater grant (List.mem_append_left _ hgrant)
    rcases leaseID_origin (calls ++ later) call hs (hid ▸ hne) with
      ⟨old, hmem, hoid, _, huse⟩ | ⟨grant, hgrant, hgid, _⟩
    · exact hold old hmem (hoid.trans hid) (hbad old s huse hsbad)
    · refine hlater grant (List.mem_append_right _ ?_) (hgid.trans hid)
      rw [← reached_append, grants, hgrant]
      exact List.mem_cons_self ..

/-- The grants before and after an issued one have other lease ids. -/
lemma grants_split {before after : List Call} {call : Call} {grant : LeaseGrant}
    (hgrant : grantOf (reached before) call = some grant)
    (hdistinct : ((grants emptyDisk (before ++ call :: after)).map (·.leaseID)).Nodup) :
    (∀ other ∈ grants (reached (before ++ [call])) after, other.leaseID ≠ grant.leaseID)
      ∧ ∀ other ∈ grants emptyDisk (before ++ call :: after), other.leaseID = grant.leaseID →
          other = grant := by
  have hmem : grant ∈ grants emptyDisk (before ++ call :: after) := by
    rw [grants_append]
    refine List.mem_append_right _ ?_
    rw [grants, show grantOf (Run.run step emptyDisk before) call = some grant from hgrant]
    exact List.mem_cons_self ..
  refine ⟨fun other hother heq => ?_,
    fun other hother heq => List.inj_on_of_nodup_map hdistinct hother hmem heq⟩
  rw [grants_append, grants, show grantOf (Run.run step emptyDisk before) call = some grant from
    hgrant, List.map_append, List.nodup_append] at hdistinct
  simp only [Option.toList_some, List.cons_append, List.nil_append, List.map_cons,
    List.nodup_cons] at hdistinct
  refine hdistinct.2.1.1 (List.mem_map.mpr ⟨other, ?_, heq⟩)
  rw [reached_concat] at hother
  exact hother

/-! ### Operations with a dead grant -/

/-- A slot of the opened pool that carries a lease id is a slot of the state file, and was in use
there if it still is. -/
lemma openPool_carrier {store : LeaseStore} {disk : Disk} {opened : LeasePool}
    (hopen : store.openPool disk = .ok opened) {s : LeaseSlot} (hs : s ∈ opened.slots)
    (hne : s.leaseID ≠ []) :
    ∃ stored ∈ storedSlots disk, stored.slotID = s.slotID ∧ stored.leaseID = s.leaseID
      ∧ (s.InUse → stored.InUse) := by
  obtain ⟨pool, hload, _, _, rfl⟩ := openPool_ok hopen
  obtain ⟨loaded, hloaded, rfl⟩ := List.mem_map.mp hs
  have hexp := expired_expire (store.readings 0) loaded
  rcases List.mem_append.mp hloaded with hmem | hmem
  · obtain ⟨stored, hstored, hre⟩ := Pointwise.exists_left (load_reloaded hload)
      ((sortSlots_perm pool.slots).mem_iff.mp hmem)
    refine ⟨stored, hstored, (hexp.slotID.trans hre.slotID).symm,
      (hexp.leaseID.trans hre.leaseID).symm, fun huse => hre.inUse.mp ?_⟩
    rw [← hexp.inUse huse]
    exact huse
  · obtain ⟨number, _, rfl⟩ := List.mem_map.mp hmem
    exact absurd hexp.leaseID hne

section Dead

variable {α : Type} (store : LeaseStore) {disk : Disk} {grant : LeaseGrant}

/-- An operation that lets only a lease in use pass fails with a grant that is not. -/
lemma error_of_left (hne : grant.leaseID ≠ []) (hleft : Left disk grant)
    {change : LeasePool → SlotOp α}
    (hguard : ∀ pool s s' a, change pool s = .ok (s', a) → s.leaseID = grant.leaseID ∧ s.InUse) :
    ∃ e, store.withLock (fun pool => onSlot grant.slotID (change pool) pool) disk = .error e := by
  refine withLock_error store disk grant.slotID change fun opened s hopen hmem hname => ?_
  cases hchange : change opened s with
  | error e => exact ⟨e, rfl⟩
  | ok result =>
    obtain ⟨hid, huse⟩ := hguard opened s result.1 result.2 hchange
    obtain ⟨stored, hstored, hsname, hsid, hsuse⟩ := openPool_carrier hopen hmem (hid ▸ hne)
    exact absurd (hsuse huse) (hleft stored hstored (hsname.trans hname) (hsid.trans hid))

/-- An owner operation fails with a grant whose slot is gone, and says so if it gets to look at
the slot. -/
lemma mutateOwned_error_of_gone (hne : grant.leaseID ≠ []) (hgone : Gone disk grant)
    (mutate : LeaseSlot → Time → Except LeaseError (LeaseSlot × α)) :
    ∃ e, store.mutateOwned grant mutate disk = .error e
      ∧ ∀ pool, store.openPool disk = .ok pool → (findSlot pool grant.slotID).isSome →
          e = .leaseLost := by
  rw [LeaseStore.mutateOwned, LeaseStore.withLock]
  cases hopen : store.openPool disk with
  | error e => exact ⟨e, rfl, fun _ h => by cases h⟩
  | ok opened =>
    simp only [onSlot, onSlotElse]
    cases hfind : findSlot opened grant.slotID with
    | none =>
      refine ⟨.unknownSlot grant.slotID, by simp [hfind, bind, Except.bind], fun pool h => ?_⟩
      cases h
      simp [hfind]
    | some slot =>
      obtain ⟨hmem, hname⟩ := findSlot_eq_some hfind
      -- a slot with the id of the grant would be in the state file under the same name
      have howned : ownedBy grant slot = false := by
        by_contra howned
        simp only [Bool.not_eq_false, ownedBy, Bool.and_eq_true, decide_eq_true_eq] at howned
        have hid := howned.1.1.1
        obtain ⟨stored, hstored, hsname, hsid, _⟩ := openPool_carrier hopen hmem (hid ▸ hne)
        exact hgone stored hstored (hsname.trans hname) (hsid.trans hid)
      exact ⟨.leaseLost, by simp [hfind, howned, refuse, bind, Except.bind], fun _ _ _ => rfl⟩

end Dead

/-- The grant an owner operation is called with: the operations behind `mutateOwned`. -/
def Op.ownerGrant : Op → Option LeaseGrant
  | .markHeld grant | .renew grant | .beginDrain grant | .abortProvisioning grant
  | .quarantine grant _ | .handoff grant | .clearLegacyRetained grant => some grant
  | _ => none

/-- The grant of an operation that only a lease in use lets pass. -/
def Op.liveGrant : Op → Option LeaseGrant
  | .markHeld grant | .renew grant | .abortProvisioning grant
  | .reserveEnvironment _ _ grant => some grant
  | _ => none

lemma exec_error_of_left {store : LeaseStore} {disk : Disk} {grant : LeaseGrant} {op : Op}
    (hop : op.liveGrant = some grant) (hne : grant.leaseID ≠ []) (hleft : Left disk grant) :
    ∃ e, exec ⟨store, op⟩ disk = (disk, .error e) := by
  have hfail : ∀ {α : Type} {change : LeasePool → SlotOp α} {reply : α → Reply},
      (∀ pool s s' a, change pool s = .ok (s', a) → s.leaseID = grant.leaseID ∧ s.InUse) →
      ∃ e, (store.withLock (fun pool => onSlot grant.slotID (change pool) pool)).replying reply disk
        = .error e := by
    intro α change reply hguard
    obtain ⟨e, he⟩ := error_of_left store hne hleft hguard
    exact ⟨e, replying_error he⟩
  have howned : ∀ s : LeaseSlot, ¬ (!ownedBy grant s) = true → s.leaseID = grant.leaseID := by
    intro s h
    simp only [Bool.not_eq_true', Bool.not_eq_false, ownedBy, Bool.and_eq_true,
      decide_eq_true_eq] at h
    exact h.1.1.1
  suffices hplan : ∃ e, (⟨store, op⟩ : Call).plan disk = .error e by
    obtain ⟨e, he⟩ := hplan
    exact ⟨e, exec_of_plan_error he⟩
  cases op <;> simp only [Op.liveGrant, reduceCtorEq, Option.some.injEq] at hop <;> subst hop <;>
    simp only [Call.plan]
  case markHeld =>
    refine hfail fun _ s s' a h => ?_
    obtain ⟨ho, h⟩ := refuse_bind.mp h
    obtain ⟨hstate, _⟩ := refuse_bind.mp h
    exact ⟨howned s ho, .inl (not_not.mp hstate)⟩
  case renew =>
    refine hfail fun _ s s' a h => ?_
    obtain ⟨ho, h⟩ := refuse_bind.mp h
    obtain ⟨hstate, _⟩ := refuse_bind.mp h
    exact ⟨howned s ho, by unfold LeaseSlot.InUse; tauto⟩
  case abortProvisioning =>
    refine hfail fun _ s s' a h => ?_
    obtain ⟨ho, h⟩ := refuse_bind.mp h
    obtain ⟨hstate, _⟩ := refuse_bind.mp h
    exact ⟨howned s ho, .inl (not_not.mp hstate)⟩
  case reserveEnvironment config host =>
    refine hfail fun _ s s' a h => ?_
    obtain ⟨hcheck, _⟩ := refuse_bind.mp h
    exact ⟨by tauto, .inl (by tauto)⟩

lemma exec_error_of_gone {store : LeaseStore} {disk : Disk} {grant : LeaseGrant} {op : Op}
    (hop : op.ownerGrant = some grant) (hne : grant.leaseID ≠ []) (hgone : Gone disk grant) :
    ∃ e, exec ⟨store, op⟩ disk = (disk, .error e)
      ∧ ∀ pool, store.openPool disk = .ok pool → (findSlot pool grant.slotID).isSome →
          e = .leaseLost := by
  have hfail : ∀ {α : Type} (mutate : LeaseSlot → Time → Except LeaseError (LeaseSlot × α))
      (reply : α → Reply), ∃ e, (store.mutateOwned grant mutate).replying reply disk = .error e
        ∧ ∀ pool, store.openPool disk = .ok pool → (findSlot pool grant.slotID).isSome →
          e = .leaseLost := by
    intro α mutate reply
    obtain ⟨e, he, hlost⟩ := mutateOwned_error_of_gone store hne hgone mutate
    exact ⟨e, replying_error he, hlost⟩
  suffices hplan : ∃ e, (⟨store, op⟩ : Call).plan disk = .error e
      ∧ ∀ pool, store.openPool disk = .ok pool → (findSlot pool grant.slotID).isSome →
          e = .leaseLost by
    obtain ⟨e, he, hlost⟩ := hplan
    exact ⟨e, exec_of_plan_error he, hlost⟩
  cases op <;> simp only [Op.ownerGrant, reduceCtorEq, Option.some.injEq] at hop <;> subst hop <;>
    simp only [Call.plan] <;> exact hfail _ _

/-- The slots that carry the id of a grant bear the name of its slot. -/
lemma carrier_name {before after : List Call} {call : Call} {grant : LeaseGrant}
    (hgrant : grantOf (reached before) call = some grant)
    (hdistinct : ((grants emptyDisk (before ++ call :: after)).map (·.leaseID)).Nodup)
    (hne : grant.leaseID ≠ []) : ∀ s ∈ storedSlots (reached (before ++ call :: after)),
      s.leaseID = grant.leaseID → s.slotID = grant.slotID := by
  intro s hs hid
  obtain ⟨other, hother, hoid, hname⟩ := leaseID_issued _ s hs (hid ▸ hne)
  rw [← hname, (grants_split hgrant hdistinct).2 other hother (hoid.trans hid)]

/-- **A grant whose lease has ended is fenced for good.**  The lease ids of the run are distinct.
Once the slot of a grant has left provisioning and held, no slot with its lease id is in use in
any later state, and the operations that need a live lease fail with it and leave the files
alone.  Once the slot is gone for the grant, every owner operation does, with `ErrLeaseLost` if
the store opens the pool and the slot is still there. -/
theorem stale_grant_fenced (before mid later : List Call) (call : Call) (grant : LeaseGrant)
    (hgrant : grantOf (reached before) call = some grant)
    (hdistinct : ((grants emptyDisk (before ++ call :: (mid ++ later))).map (·.leaseID)).Nodup) :
    (Left (reached (before ++ call :: mid)) grant →
      (∀ s ∈ storedSlots (reached (before ++ call :: (mid ++ later))),
        s.leaseID = grant.leaseID → ¬ s.InUse)
      ∧ ∀ (store : LeaseStore) (op : Op), op.liveGrant = some grant →
          ∃ e, exec ⟨store, op⟩ (reached (before ++ call :: (mid ++ later)))
            = (reached (before ++ call :: (mid ++ later)), .error e))
    ∧ (Gone (reached (before ++ call :: mid)) grant →
      (∀ s ∈ storedSlots (reached (before ++ call :: (mid ++ later))),
        s.leaseID ≠ grant.leaseID)
      ∧ ∀ (store : LeaseStore) (op : Op), op.ownerGrant = some grant →
          ∃ e, exec ⟨store, op⟩ (reached (before ++ call :: (mid ++ later)))
              = (reached (before ++ call :: (mid ++ later)), .error e)
            ∧ ∀ pool, store.openPool (reached (before ++ call :: (mid ++ later))) = .ok pool →
                (findSlot pool grant.slotID).isSome → e = .leaseLost) := by
  have hne : grant.leaseID ≠ [] := by
    obtain ⟨_, _, _, _, leaseID, _, _, _, _, hacq⟩ := grant_acquired hgrant
    rw [hacq.grant_leaseID]
    exact randomToken_ne_nil (by norm_num) hacq.drewID
  have hsplit : before ++ call :: (mid ++ later) = (before ++ call :: mid) ++ later := by simp
  -- the names of the carriers at the earlier state, and no issue of the id since
  have hmid : ((grants emptyDisk (before ++ call :: mid)).map (·.leaseID)).Nodup := by
    rw [hsplit, grants_append, List.map_append] at hdistinct
    exact hdistinct.of_append_left
  have hname := carrier_name hgrant hmid hne
  have hlater : ∀ other ∈ grants (reached (before ++ call :: mid)) later,
      other.leaseID ≠ grant.leaseID := by
    intro other hother
    refine (grants_split hgrant hdistinct).1 other ?_
    rw [grants_append]
    refine List.mem_append_right _ ?_
    rwa [← reached_append, List.append_assoc, List.singleton_append]
  rw [hsplit]
  refine ⟨fun hleft => ?_, fun hgone => ?_⟩
  · have hunused := carriers_run hne (fun _ _ huse => huse) _ later hlater
      fun s hs hid => hleft s hs (hname s hs hid) hid
    exact ⟨hunused, fun store op hop =>
      exec_error_of_left hop hne fun s hs _ hid => hunused s hs hid⟩
  · have hunused := carriers_run (P := fun _ => True) hne (fun _ _ _ h => h) _ later hlater
      fun s hs hid => absurd hid (hgone s hs (hname s hs hid))
    have hnone : ∀ s ∈ storedSlots (reached (before ++ call :: mid ++ later)),
        s.leaseID ≠ grant.leaseID := fun s hs hid => hunused s hs hid trivial
    exact ⟨hnone, fun store op hop => exec_error_of_gone hop hne fun s hs _ => hnone s hs⟩

/-! ### A released grant -/

set_option maxRecDepth 100000 in
theorem stale_grant_fenced_second_slot :
    grantOf emptyDisk (secondSlotAcquire 7) = some (secondSlotGrant 7)
      ∧ Gone (reached (secondSlotAcquire 7 :: secondSlotRelease)) (secondSlotGrant 7)
      ∧ ∃ e, exec ⟨quietStore 2 0, .renew (secondSlotGrant 7)⟩
            (reached (secondSlotAcquire 7 :: (secondSlotRelease ++ [secondSlotAcquire 8])))
          = (reached (secondSlotAcquire 7 :: (secondSlotRelease ++ [secondSlotAcquire 8])),
              .error e) := by
  have hgrant : grantOf (reached []) (secondSlotAcquire 7) = some (secondSlotGrant 7) := by
    decide +kernel
  have hgone : Gone (reached (secondSlotAcquire 7 :: secondSlotRelease)) (secondSlotGrant 7) := by
    decide +kernel
  have hfenced := stale_grant_fenced [] secondSlotRelease [secondSlotAcquire 8]
    (secondSlotAcquire 7) (secondSlotGrant 7) hgrant (by decide +kernel)
  exact ⟨hgrant, hgone, (hfenced.1 hgone.left).2 (quietStore 2 0) (.renew (secondSlotGrant 7)) rfl⟩

set_option maxRecDepth 100000 in
/-- **After a resize a dead grant meets an unknown slot**, not a lost lease. -/
theorem lost_grant_unknown_slot :
    grantOf emptyDisk (secondSlotAcquire 7) = some (secondSlotGrant 7)
      ∧ ((grants emptyDisk (secondSlotAcquire 7 :: (secondSlotRelease ++ secondSlotDropped))).map
          (·.leaseID)).Nodup
      ∧ Gone (reached (secondSlotAcquire 7 :: secondSlotRelease)) (secondSlotGrant 7)
      ∧ (exec ⟨quietStore 1 0, .renew (secondSlotGrant 7)⟩
            (reached (secondSlotAcquire 7 :: (secondSlotRelease ++ secondSlotDropped)))).2
          = .error (.unknownSlot (slotName 2)) := by
  refine ⟨?_, ?_, ?_, ?_⟩ <;> decide +kernel

end Subyard.Lease
