import Subyard.Lease.Grants
import Subyard.Lease.Inventory

/-!
Whether a lease can be told from every other lease of its slot by name, generation and epoch.

The counters live in the slot record, so they are lost with it: a resize drops the record of a
retired slot, a later grow starts over at generation one and epoch zero, and a second lease gets
the identity of the first (`identity_reused_after_resize`).

* `KeepsCounters`: the calls that lose no counter of a slot that was ever leased.
* `epoch_step`, `epoch_run`: along such calls the epoch of a leased slot never falls.
* `lease_identity_unique`: along such calls two leases of a slot have different identities, and
  a drain or a recovery prepared for the earlier one changes nothing.
-/

namespace Subyard.Lease

open Text Fallible

variable {s s' : LeaseSlot}

/-- The call loses no counter of a slot that was ever leased: a resize drops only slots that were
not, a rebuild starts over only when there are none.  The count stays within the limit. -/
def keepsCounters (disk : Disk) (call : Call) : Bool :=
  call.store.slotCount ≤ inventoryLimit
    && match call.op with
      | .commitResize => ((storedSlots disk).drop call.store.slotCount).all (·.leaseEpoch = 0)
      | .rebuildCorruptPoolForRecovery _ =>
          !corruptOnDisk disk || (storedSlots disk).all (·.leaseEpoch = 0)
      | _ => true

/-- Every call of a run keeps the counters. -/
abbrev KeepsCounters (disk : Disk) (call : Call) : Prop := keepsCounters disk call

lemma KeepsCounters.count {disk : Disk} {call : Call} (h : KeepsCounters disk call) :
    call.store.slotCount ≤ inventoryLimit := by
  simp only [KeepsCounters, keepsCounters, Bool.and_eq_true, decide_eq_true_eq] at h
  exact h.1

lemma KeepsCounters.commit {disk : Disk} {call : Call} (h : KeepsCounters disk call)
    (hop : call.op = .commitResize) (hs : s ∈ (storedSlots disk).drop call.store.slotCount) :
    s.leaseEpoch = 0 := by
  simp only [KeepsCounters, keepsCounters, hop, Bool.and_eq_true, List.all_eq_true,
    decide_eq_true_eq] at h
  exact h.2 s hs

lemma KeepsCounters.rebuild {disk : Disk} {call : Call} (h : KeepsCounters disk call) {id : Bytes}
    (hop : call.op = .rebuildCorruptPoolForRecovery id) (hcorrupt : corruptOnDisk disk)
    (hs : s ∈ storedSlots disk) : s.leaseEpoch = 0 := by
  simp only [KeepsCounters, keepsCounters, hop, hcorrupt, Bool.and_eq_true, Bool.or_eq_true,
    List.all_eq_true, decide_eq_true_eq, Bool.not_true, Bool.false_eq_true, false_or] at h
  exact h.2 s hs

/-! ### Epochs -/

lemma Expired.leaseEpoch (h : Expired s s') : s'.leaseEpoch = s.leaseEpoch := by
  cases h <;> rfl

lemma Reloaded.leaseEpoch (h : Reloaded s s') : s'.leaseEpoch = s.leaseEpoch := by
  obtain ⟨recovery, legacy, rfl⟩ := h
  rfl

lemma BodyMove.leaseEpoch_le {store : LeaseStore} {op : Op} (h : BodyMove store op s s') :
    s.leaseEpoch ≤ s'.leaseEpoch := by
  cases h with
  | acquire => exact Nat.le_succ _
  | _ => exact le_rfl

lemma Evolves.leaseEpoch_le {call : Call} (h : Evolves call s s') :
    s.leaseEpoch ≤ s'.leaseEpoch := by
  obtain ⟨loaded, changed, hre, hchange, rfl⟩ := h
  rw [← hre.leaseEpoch]
  cases hchange with
  | expired hexp => exact hexp.leaseEpoch.ge
  | body hexp hbody => exact hexp.leaseEpoch.ge.trans hbody.leaseEpoch_le

/-- The slot of that name was leased, and its epoch is at least `epoch`. -/
def HasEpoch (disk : Disk) (name : Bytes) (epoch : ℕ) : Prop :=
  ∃ s ∈ storedSlots disk, s.slotID = name ∧ epoch ≤ s.leaseEpoch

lemma Inventoried.named {slots : List LeaseSlot} (h : Inventoried slots) (hs : s ∈ slots) :
    s.Named := by
  obtain ⟨n, _, hnames⟩ := h
  have hmem : s.slotID ∈ slotNames n := hnames ▸ List.mem_map_of_mem hs
  obtain ⟨number, _, hnumber⟩ := List.mem_map.mp hmem
  exact ⟨number, hnumber.symm⟩

lemma epoch_step {disk : Disk} {call : Call} (hkeeps : KeepsCounters disk call)
    (hinv : Inventoried (storedSlots disk)) {name : Bytes} {epoch : ℕ} (hpos : 0 < epoch)
    (h : HasEpoch disk name epoch) : HasEpoch (step disk call) name epoch := by
  obtain ⟨s, hs, hname, hepoch⟩ := h
  rcases step_forward call disk hs with ⟨s', hs', hev⟩ | ⟨hop, hdrop⟩ | ⟨id, hop, hcorrupt⟩
  · rcases hev with rfl | hev
    · exact ⟨s', hs', hname, hepoch⟩
    · exact ⟨s', hs', (hev.slotID_of_named (hinv.named hs)).trans hname,
        hepoch.trans hev.leaseEpoch_le⟩
  · have := hkeeps.commit hop hdrop
    omega
  · have := hkeeps.rebuild hop hcorrupt hs
    omega

/-- A state file that calls within the limit can have produced. -/
lemma inventoried_run {disk : Disk} {calls : List Call} (hinv : Inventoried (storedSlots disk))
    (hok : Run.AllSteps step KeepsCounters disk calls) :
    Inventoried (storedSlots (Run.run step disk calls)) :=
  Run.invariant (I := fun disk => Inventoried (storedSlots disk))
    (fun _ _ h hkeeps => inventoried_step hkeeps.count h) hinv hok

lemma epoch_run {disk : Disk} {calls : List Call} (hinv : Inventoried (storedSlots disk))
    (hok : Run.AllSteps step KeepsCounters disk calls) {name : Bytes} {epoch : ℕ}
    (hpos : 0 < epoch) (h : HasEpoch disk name epoch) :
    HasEpoch (Run.run step disk calls) name epoch :=
  (Run.invariant (I := fun disk => Inventoried (storedSlots disk) ∧ HasEpoch disk name epoch)
    (fun _ _ h hkeeps => ⟨inventoried_step hkeeps.count h.1, epoch_step hkeeps h.1 hpos h.2⟩)
    ⟨hinv, h⟩ hok).2

/-! ### The slot an operation finds -/

/-- Within the limit, a slot of the opened pool with the name of a slot of the state file is that
slot, reloaded and expired. -/
lemma openPool_unique {store : LeaseStore} {disk : Disk} {opened : LeasePool}
    (hcount : store.slotCount ≤ inventoryLimit) (hinv : Inventoried (storedSlots disk))
    (hopen : store.openPool disk = .ok opened) {x : LeaseSlot} (hx : x ∈ opened.slots)
    (hs : s ∈ storedSlots disk) (hname : x.slotID = s.slotID) :
    ∃ loaded, Reloaded s loaded ∧ Expired loaded x := by
  obtain ⟨pool, hload, _, hlen, rfl⟩ := openPool_ok hopen
  have hre := load_reloaded hload
  have hpool := hinv.reloaded hre
  obtain ⟨y, hy, rfl⟩ := List.mem_map.mp hx
  have hexp := expired_expire (store.readings 0) y
  obtain ⟨loaded, hloaded, hl⟩ := Pointwise.exists_right hre hs
  rw [hpool.inventory] at hy
  have heq : y = loaded := (hpool.grown hlen hcount).eq_of_slotID hy
    (List.mem_append_left _ hloaded) (by rw [← hexp.slotID, hname, hl.slotID])
  exact ⟨loaded, hl, heq ▸ hexp⟩

section Acquired

variable {call : Call} {disk : Disk} {grant : LeaseGrant}

/-- A grant is for an epoch above every epoch its slot has had. -/
lemma epoch_lt_of_grant (hcount : call.store.slotCount ≤ inventoryLimit)
    (hinv : Inventoried (storedSlots disk)) (hgrant : grantOf disk call = some grant) {epoch : ℕ}
    (h : HasEpoch disk grant.slotID epoch) : epoch < grant.leaseEpoch := by
  obtain ⟨request, draw, opened, slot, leaseID, capability, written, _, _, hacq⟩ :=
    grant_acquired hgrant
  obtain ⟨s, hs, hname, hepoch⟩ := h
  obtain ⟨hmem, hslot⟩ := findSlot_eq_some hacq.found
  obtain ⟨x, hx, rfl⟩ := List.mem_map.mp hmem
  have hexp := expired_expire (call.store.readings 1) x
  obtain ⟨loaded, hl, hexp'⟩ := openPool_unique hcount hinv hacq.opens hx hs
    (by rw [← hexp.slotID, hslot, hname, hacq.grant_slotID])
  rw [hacq.answers]
  show epoch < (x.expire _).leaseEpoch + 1
  rw [hexp.leaseEpoch, hexp'.leaseEpoch, hl.leaseEpoch]
  omega

/-- A grant is for an epoch above zero. -/
lemma grant_epoch_pos (hgrant : grantOf disk call = some grant) : 0 < grant.leaseEpoch := by
  obtain ⟨_, _, _, _, _, _, _, _, _, hacq⟩ := grant_acquired hgrant
  rw [hacq.answers]
  exact Nat.succ_pos _

/-- Within the limit a grant names a slot by a number. -/
lemma grant_slotName (hcount : call.store.slotCount ≤ inventoryLimit)
    (hinv : Inventoried (storedSlots disk)) (hgrant : grantOf disk call = some grant) :
    ∃ number, grant.slotID = slotName number := by
  obtain ⟨_, _, _, slot, _, _, _, _, _, hacq⟩ := grant_acquired hgrant
  obtain ⟨pool, hload, _, hlen, hopened⟩ := openPool_ok hacq.opens
  have hpool := hinv.reloaded (load_reloaded hload)
  obtain ⟨hmem, hslot⟩ := findSlot_eq_some hacq.found
  rw [LeaseStore.atAcquire, expireStale, hopened] at hmem
  obtain ⟨x, hx, rfl⟩ := List.mem_map.mp hmem
  obtain ⟨y, hy, rfl⟩ := List.mem_map.mp hx
  rw [hpool.inventory] at hy
  obtain ⟨number, hnumber⟩ := (hpool.grown hlen hcount).named hy
  refine ⟨number, ?_⟩
  rw [hacq.grant_slotID, ← hslot, (expired_expire _ _).slotID, (expired_expire _ _).slotID, hnumber]

/-- The epoch of a grant is in the state file. -/
lemma hasEpoch_of_grant (hcount : call.store.slotCount ≤ inventoryLimit)
    (hinv : Inventoried (storedSlots disk)) (hgrant : grantOf disk call = some grant) :
    HasEpoch (step disk call) grant.slotID grant.leaseEpoch := by
  have hname : coerce grant.slotID = grant.slotID := by
    obtain ⟨number, hnumber⟩ := grant_slotName hcount hinv hgrant
    rw [hnumber, coerce_slotName]
  obtain ⟨request, draw, opened, slot, leaseID, capability, written, _, hplan, hacq⟩ :=
    grant_acquired hgrant
  rw [hacq.writes] at hplan
  rw [step, exec, hplan]
  refine ⟨_, List.mem_map_of_mem (Pointwise.mem_update hacq.found), ?_, ?_⟩
  · show coerce slot.slotID = grant.slotID
    rw [(findSlot_eq_some hacq.found).2, ← hacq.grant_slotID, hname]
  · rw [hacq.answers]
    exact le_rfl

end Acquired

/-! ### Operations prepared for an earlier lease -/

/-- A drain or a recovery that expects an identity. -/
def Op.expects : Op → Option LeaseIdentity
  | .beginExpectedDrain expected _ => some expected
  | .beginExpectedRecovery expected => some expected
  | _ => none

/-- An operation that expects an epoch the slot has left behind changes nothing. -/
lemma exec_error_of_epoch {store : LeaseStore} {disk : Disk} {op : Op} {expected : LeaseIdentity}
    (hop : op.expects = some expected) (hcount : store.slotCount ≤ inventoryLimit)
    (hinv : Inventoried (storedSlots disk)) {epoch : ℕ} (hepoch : expected.leaseEpoch < epoch)
    (h : HasEpoch disk expected.slotID epoch) :
    ∃ e, exec ⟨store, op⟩ disk = (disk, .error e) := by
  have hstale : ∀ opened x, store.openPool disk = .ok opened → x ∈ opened.slots →
      x.slotID = expected.slotID → slotMatchesLeaseIdentity x expected = false := by
    intro opened x hopen hx hname
    obtain ⟨s, hs, hsname, hsepoch⟩ := h
    obtain ⟨loaded, hl, hexp⟩ := openPool_unique hcount hinv hopen hx hs (hname.trans hsname.symm)
    have hxepoch : x.leaseEpoch = s.leaseEpoch := hexp.leaseEpoch.trans hl.leaseEpoch
    have hne : x.leaseEpoch ≠ expected.leaseEpoch := by omega
    simp [slotMatchesLeaseIdentity, hne]
  -- both operations refuse every slot of that name
  have hfail : ∀ {α : Type} {change : SlotOp α} {reply : α → Reply},
      (∀ s, slotMatchesLeaseIdentity s expected = false → ∃ e, change s = .error e) →
      ∃ e, StoreOp.replying (fun disk => do
        expected.validate
        store.withLock (onSlot expected.slotID change) disk) reply disk = .error e := by
    intro α change reply hrefuse
    have herr := withLock_error store disk expected.slotID
      (fun _ => change) fun opened x hopen hx hname =>
        hrefuse x (hstale opened x hopen hx hname)
    obtain ⟨e, he⟩ := bind_fails (x := expected.validate) fun _ => herr
    exact ⟨e, replying_error he⟩
  suffices hplan : ∃ e, (⟨store, op⟩ : Call).plan disk = .error e by
    obtain ⟨e, he⟩ := hplan
    exact ⟨e, exec_of_plan_error he⟩
  cases op <;> simp only [Op.expects, reduceCtorEq, Option.some.injEq] at hop <;> subst hop <;>
    simp only [Call.plan]
  case beginExpectedDrain => exact hfail fun s hs => ⟨_, by simp only [beginExpectedDrainSlot, hs]; rfl⟩
  case beginExpectedRecovery =>
    exact hfail fun s hs => ⟨_, by simp only [beginExpectedRecoverySlot, hs]; rfl⟩

end Subyard.Lease
