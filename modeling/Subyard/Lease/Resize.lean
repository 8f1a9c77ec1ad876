import Subyard.Lease.Inventory

/-!
Resizing the pool while every store has at most `999` slots.

* `Canonical`: the slots are `slot-001 … slot-N`, each once and in the order of their numbers.
* `Resized`: what a successful call makes of the inventory: it grows by the missing numbers, a
  prepared shrink fences the slots above the new count, a committed one drops them.
* `inventory_resized`: every successful call of every run leaves a canonical inventory and
  resizes it in this way.
* `thousand_slots_misordered`: with a thousand slots the textual order of the names is not the
  numerical one, and a shrink by one retires `slot-999` instead of `slot-1000`.
-/

namespace Subyard.Lease

open Text Fallible

/-- The names of the slots numbered above `n`, up to `count`. -/
def slotNamesAbove (n count : ℕ) : List Bytes := (List.range' (n + 1) (count - n)).map slotName

lemma missingSlots_names (n count : ℕ) :
    (missingSlots n count).map (·.slotID) = slotNamesAbove n count := by
  rw [missingSlots, List.map_map]
  rfl

lemma slotNames_drop {n count : ℕ} (h : n ≤ count) :
    (slotNames count).drop n = slotNamesAbove n count := by
  rw [← slotNames_append h, missingSlots_names]
  exact List.drop_left' (by simp [slotNames])

/-- The slots are `slot-001 … slot-N`, each once and in the order of their numbers. -/
def Canonical (slots : List LeaseSlot) : Prop :=
  slots.map (·.slotID) = slotNames slots.length ∧ (slots.map (·.slotID)).Nodup

lemma Inventoried.canonical {slots : List LeaseSlot} (h : Inventoried slots) : Canonical slots := by
  refine ⟨h.names, ?_⟩
  rw [h.names]
  exact slotNames_nodup h.length_le

/-- A slot that was loaded and written back. -/
def Rewritten (s s' : LeaseSlot) : Prop := ∃ loaded, Reloaded s loaded ∧ s' = loaded.image

/-- What a successful call makes of the inventory. -/
structure Resized (call : Call) (reply : Reply) (before after : List LeaseSlot) : Prop where
  /-- An ordinary operation does not succeed on a pool that is too large. -/
  fits : call.op.unlocked = false → before.length ≤ call.store.slotCount
  /-- A pool that is too small grows by the missing numbers. -/
  grown : call.op.unlocked = false ∨ call.op = .prepareResize →
    before.length ≤ call.store.slotCount →
      after.map (·.slotID)
        = before.map (·.slotID) ++ slotNamesAbove before.length call.store.slotCount
  /-- The plan of a shrink lists the slots above the new count. -/
  planned : call.op = .resizePlan → ∃ retiring, reply = .retiring (some before.length) retiring
    ∧ retiring.map (·.slotID) = slotNamesAbove call.store.slotCount before.length ∧ after = before
  /-- A prepared shrink fences the slots above the new count and no others. -/
  retired : call.op = .prepareResize → call.store.slotCount < before.length →
    ∃ retiring, reply = .retiring none retiring
      ∧ retiring.map (·.slotID) = slotNamesAbove call.store.slotCount before.length
      ∧ after.map (·.slotID) = before.map (·.slotID)
      ∧ List.Forall₂ Rewritten (before.take call.store.slotCount) (after.take call.store.slotCount)
      ∧ ∀ s ∈ after.drop call.store.slotCount, s.fencedForResize
  /-- A committed shrink drops the slots above the new count, all of them fenced. -/
  committed : call.op = .commitResize → call.store.slotCount ≤ before.length
    ∧ after.map (·.slotID) = (before.map (·.slotID)).take call.store.slotCount
    ∧ List.Forall₂ Rewritten (before.take call.store.slotCount) after
    ∧ ∀ s ∈ before.drop call.store.slotCount, s.fencedForResize

/-! ### Names along a call -/

/-- The state file after a call that decided on `written`. -/
lemma storedSlots_step {call : Call} {disk : Disk} {written : Option LeasePool} {reply : Reply}
    (h : call.plan disk = .ok (written, reply)) :
    storedSlots (step disk call)
      = written.elim (storedSlots disk) fun pool => pool.slots.map LeaseSlot.image := by
  rw [step, exec, h]
  cases written <;> rfl

/-- Numbered names are stored as they are. -/
lemma image_names {slots : List LeaseSlot} {numbers : List ℕ}
    (h : slots.map (·.slotID) = numbers.map slotName) :
    (slots.map LeaseSlot.image).map (·.slotID) = slots.map (·.slotID) := by
  have hcoerce : (slots.map LeaseSlot.image).map (·.slotID)
      = (slots.map (·.slotID)).map coerce := by
    rw [List.map_map, List.map_map]
    rfl
  rw [hcoerce, h, List.map_map]
  exact List.map_congr_left fun number _ => coerce_slotName number

lemma reloaded_names {slots slots' : List LeaseSlot} (h : List.Forall₂ Reloaded slots slots') :
    slots'.map (·.slotID) = slots.map (·.slotID) :=
  (Pointwise.map_eq (h.imp fun _ _ hs => hs.slotID.symm)).symm

lemma Reloaded.fencedForResize {s s' : LeaseSlot} (h : Reloaded s s') :
    s'.fencedForResize = s.fencedForResize := by
  obtain ⟨recovery, legacy, rfl⟩ := h
  rfl

lemma rewritten_of_reloaded {slots slots' : List LeaseSlot}
    (h : List.Forall₂ Reloaded slots slots') :
    List.Forall₂ Rewritten slots (slots'.map LeaseSlot.image) := by
  rw [List.forall₂_map_right_iff]
  exact h.imp fun s s' hs => ⟨s', hs, rfl⟩

/-- The fence is written as it is. -/
lemma fencedForResize_retire_image (s : LeaseSlot) : s.retire.image.fencedForResize := by
  have hreason : coerce poolResizeReason = poolResizeReason := by decide
  simp [LeaseSlot.fencedForResize, LeaseSlot.retire, LeaseSlot.image, hreason]

section Call

variable {store : LeaseStore} {disk : Disk} {pool : LeasePool} {written : Option LeasePool}

/-- A change that only grows adds the missing names. -/
lemma PoolChange.grown_names {call : Call} {pool' : LeasePool} (h : PoolChange call pool pool')
    (hop : call.op.unlocked = false) (hpool : Inventoried pool.slots) :
    pool.slots.length ≤ call.store.slotCount ∧ pool'.slots.map (·.slotID)
      = pool.slots.map (·.slotID) ++ slotNamesAbove pool.slots.length call.store.slotCount := by
  cases h with
  | ordinary _ hlen hslots _ =>
    refine ⟨hlen, ?_⟩
    rw [← Pointwise.map_eq (hslots.imp fun s s' hs => hs.slotID.symm), hpool.inventory,
      List.map_append, missingSlots_names]
  | retired hprepare => rw [hprepare] at hop; cases hop
  | committed hcommit => rw [hcommit] at hop; cases hop

lemma prepareResize_grown {answer : List LeaseSlot}
    (h : store.prepareResize disk = .ok (written, answer)) (hload : load disk = .ok pool)
    (hlen : pool.slots.length ≤ store.slotCount) :
    (written = none ∧ pool.slots.length = store.slotCount)
      ∨ written = some { pool with slots := pool.inventory store.slotCount } := by
  rw [LeaseStore.prepareResize, hload] at h
  change (if _ then _ else _) = _ at h
  by_cases hlt : pool.slots.length < store.slotCount
  · rw [if_pos hlt] at h
    obtain ⟨grown, hgrown, h⟩ := of_bind_ok h
    cases h
    exact .inr (by rw [(reconcileSlotCount_ok hgrown).2])
  · have heq : pool.slots.length = store.slotCount := by omega
    rw [if_neg hlt, if_pos heq] at h
    cases h
    exact .inl ⟨rfl, heq⟩

lemma prepareResize_retired {answer : List LeaseSlot}
    (h : store.prepareResize disk = .ok (written, answer)) (hload : load disk = .ok pool)
    (hlen : store.slotCount < pool.slots.length) :
    answer = (pool.slots.drop store.slotCount).map LeaseSlot.retire
      ∧ written = some { pool with slots := pool.slots.take store.slotCount ++ answer } := by
  rw [LeaseStore.prepareResize, hload] at h
  change (if _ then _ else _) = _ at h
  rw [if_neg (by omega), if_neg (by omega)] at h
  obtain ⟨_, _, h⟩ := of_bind_ok h
  cases h
  exact ⟨rfl, rfl⟩

lemma resizePlan_ok {answer : ℕ × List LeaseSlot}
    (h : store.resizePlan disk = .ok (written, answer)) (hload : load disk = .ok pool) :
    written = none ∧ answer = (pool.slots.length, pool.slots.drop store.slotCount) := by
  obtain ⟨_, hload', h⟩ := of_bind_ok h
  obtain ⟨_, _, h⟩ := of_bind_ok h
  obtain rfl := Except.ok.inj (hload'.symm.trans hload)
  cases h
  exact ⟨rfl, rfl⟩

lemma commitResize_ok {answer : Unit} (h : store.commitResize disk = .ok (written, answer))
    (hload : load disk = .ok pool) :
    store.slotCount ≤ pool.slots.length
      ∧ written = some { pool with slots := pool.slots.take store.slotCount }
      ∧ ∀ s ∈ pool.slots.drop store.slotCount, s.fencedForResize := by
  obtain ⟨_, hload', h⟩ := of_bind_ok h
  obtain rfl := Except.ok.inj (hload'.symm.trans hload)
  obtain ⟨hlen, h⟩ := refuse_bind.mp h
  split at h
  · cases h
  · rename_i hnone
    cases h
    exact ⟨Nat.le_of_not_lt hlen, rfl, fun s hs => by simpa using List.find?_eq_none.mp hnone s hs⟩

/-- The names of the slots that a shrink retires. -/
lemma Inventoried.drop_names {slots : List LeaseSlot} (h : Inventoried slots) (count : ℕ) :
    (slots.drop count).map (·.slotID) = slotNamesAbove count slots.length := by
  rcases Nat.le_total count slots.length with hlen | hlen
  · rw [List.map_drop, h.names, slotNames_drop hlen]
  · rw [List.drop_eq_nil_of_le hlen, slotNamesAbove, Nat.sub_eq_zero_of_le hlen]
    rfl

end Call

/-! ### The results -/

/-- The operations other than a rebuild only succeed on files that load. -/
lemma load_of_plan {call : Call} {disk : Disk} {written : Option LeasePool} {reply : Reply}
    (h : call.plan disk = .ok (written, reply)) :
    (∃ pool, load disk = .ok pool) ∨ ∃ id, call.op = .rebuildCorruptPoolForRecovery id := by
  cases hop : call.op.unlocked with
  | false =>
    obtain ⟨pool, _, _, hload, _⟩ := plan_changes h hop
    exact .inl ⟨pool, hload⟩
  | true =>
    obtain ⟨store, op⟩ := call
    cases op <;> cases hop <;> simp only [Call.plan] at h <;> obtain ⟨a, h, -⟩ := replying_ok h
    case rebuildCorruptPoolForRecovery.refl => exact .inr ⟨_, rfl⟩
    all_goals
      obtain ⟨pool, hload, -⟩ := of_bind_ok h
      exact .inl ⟨pool, hload⟩

section Step

variable {call : Call} {disk : Disk} {pool : LeasePool} {written : Option LeasePool} {reply : Reply}

/-- The slots of the state file after a call that decided on `written`. -/
def slotsAfter (disk : Disk) (written : Option LeasePool) : List LeaseSlot :=
  written.elim (storedSlots disk) fun pool => pool.slots.map LeaseSlot.image

/-- Growing, in the names of the state file. -/
lemma grown_after {slots : List LeaseSlot} {count : ℕ} (hinv : Inventoried (storedSlots disk))
    (hload : load disk = .ok pool)
    (h : slots.map (·.slotID)
      = pool.slots.map (·.slotID) ++ slotNamesAbove pool.slots.length count) :
    (slots.map LeaseSlot.image).map (·.slotID)
      = (storedSlots disk).map (·.slotID) ++ slotNamesAbove (storedSlots disk).length count := by
  have hre := load_reloaded hload
  have hnumbers := h
  rw [(hinv.reloaded hre).names, slotNames, slotNamesAbove, ← List.map_append] at hnumbers
  rw [image_names hnumbers, h, reloaded_names hre, hre.length_eq]

lemma locked_after (hinv : Inventoried (storedSlots disk))
    (hplan : call.plan disk = .ok (written, reply)) (hop : call.op.unlocked = false) :
    (storedSlots disk).length ≤ call.store.slotCount
      ∧ (slotsAfter disk written).map (·.slotID)
        = (storedSlots disk).map (·.slotID)
          ++ slotNamesAbove (storedSlots disk).length call.store.slotCount := by
  obtain ⟨pool, pool', rfl, hload, hchange⟩ := plan_changes hplan hop
  have hre := load_reloaded hload
  obtain ⟨hfits, hgrown⟩ := hchange.grown_names hop (hinv.reloaded hre)
  exact ⟨hre.length_eq ▸ hfits, grown_after hinv hload hgrown⟩

lemma prepared_after {store : LeaseStore} {answer : List LeaseSlot}
    (hinv : Inventoried (storedSlots disk)) (hload : load disk = .ok pool)
    (h : store.prepareResize disk = .ok (written, answer))
    (hlen : (storedSlots disk).length ≤ store.slotCount) :
    (slotsAfter disk written).map (·.slotID)
      = (storedSlots disk).map (·.slotID)
        ++ slotNamesAbove (storedSlots disk).length store.slotCount := by
  have hre := load_reloaded hload
  rcases prepareResize_grown h hload (hre.length_eq ▸ hlen) with ⟨rfl, heq⟩ | rfl
  · rw [hre.length_eq, heq, slotNamesAbove, Nat.sub_self]
    exact (List.append_nil _).symm
  · refine grown_after hinv hload ?_
    rw [(hinv.reloaded hre).inventory, List.map_append, missingSlots_names]

lemma retired_after {store : LeaseStore} {answer : List LeaseSlot}
    (hinv : Inventoried (storedSlots disk)) (hload : load disk = .ok pool)
    (h : store.prepareResize disk = .ok (written, answer))
    (hlen : store.slotCount < (storedSlots disk).length) :
    answer.map (·.slotID) = slotNamesAbove store.slotCount (storedSlots disk).length
      ∧ (slotsAfter disk written).map (·.slotID) = (storedSlots disk).map (·.slotID)
      ∧ List.Forall₂ Rewritten ((storedSlots disk).take store.slotCount)
          ((slotsAfter disk written).take store.slotCount)
      ∧ ∀ s ∈ (slotsAfter disk written).drop store.slotCount, s.fencedForResize := by
  have hre := load_reloaded hload
  have hpool := hinv.reloaded hre
  have hlen' : store.slotCount < pool.slots.length := hre.length_eq ▸ hlen
  obtain ⟨rfl, rfl⟩ := prepareResize_retired h hload hlen'
  have hretired : ((pool.slots.drop store.slotCount).map LeaseSlot.retire).map (·.slotID)
      = (pool.slots.drop store.slotCount).map (·.slotID) := by
    rw [List.map_map]
    rfl
  have hafter : (pool.slots.take store.slotCount
      ++ (pool.slots.drop store.slotCount).map LeaseSlot.retire).map (·.slotID)
      = pool.slots.map (·.slotID) := by
    rw [List.map_append, hretired, ← List.map_append, List.take_append_drop]
  have hsplit : ((pool.slots.take store.slotCount).map LeaseSlot.image).length
      = store.slotCount := by
    rw [List.length_map, List.length_take]
    omega
  refine ⟨?_, ?_, ?_, ?_⟩
  · rw [hretired, hpool.drop_names, hre.length_eq]
  · rw [slotsAfter, Option.elim_some, image_names (hafter.trans hpool.names), hafter,
      reloaded_names hre]
  · rw [slotsAfter, Option.elim_some, List.map_append, List.take_left' hsplit]
    exact rewritten_of_reloaded (List.forall₂_take _ hre)
  · rw [slotsAfter, Option.elim_some, List.map_append, List.drop_left' hsplit, List.map_map]
    intro s hs
    obtain ⟨t, _, rfl⟩ := List.mem_map.mp hs
    exact fencedForResize_retire_image t

lemma committed_after {store : LeaseStore} {answer : Unit}
    (hinv : Inventoried (storedSlots disk)) (hload : load disk = .ok pool)
    (h : store.commitResize disk = .ok (written, answer)) :
    store.slotCount ≤ (storedSlots disk).length
      ∧ (slotsAfter disk written).map (·.slotID)
        = ((storedSlots disk).map (·.slotID)).take store.slotCount
      ∧ List.Forall₂ Rewritten ((storedSlots disk).take store.slotCount) (slotsAfter disk written)
      ∧ ∀ s ∈ (storedSlots disk).drop store.slotCount, s.fencedForResize := by
  have hre := load_reloaded hload
  have hpool := hinv.reloaded hre
  obtain ⟨hlen, rfl, hfenced⟩ := commitResize_ok h hload
  refine ⟨hre.length_eq ▸ hlen, ?_, rewritten_of_reloaded (List.forall₂_take _ hre), ?_⟩
  · rw [slotsAfter, Option.elim_some, image_names (hpool.take hlen).names, List.map_take,
      reloaded_names hre]
  · intro s hs
    obtain ⟨t, ht, hst⟩ := Pointwise.exists_right (List.forall₂_drop store.slotCount hre) hs
    rw [← hst.fencedForResize]
    exact hfenced t ht

/-- **A successful call resizes the inventory as it should.** -/
theorem resized_step (hinv : Inventoried (storedSlots disk))
    (hok : (exec call disk).2 = .ok reply) :
    Resized call reply (storedSlots disk) (storedSlots (step disk call)) := by
  obtain ⟨written, hplan⟩ := plan_of_exec_ok hok
  rw [show storedSlots (step disk call) = slotsAfter disk written from storedSlots_step hplan]
  rcases load_of_plan hplan with ⟨pool, hload⟩ | ⟨id, hop⟩
  · obtain ⟨store, op⟩ := call
    refine ⟨fun hop => (locked_after hinv hplan hop).1, ?_, ?_, ?_, ?_⟩
    · rintro (hop | rfl) hlen
      · exact (locked_after hinv hplan hop).2
      · simp only [Call.plan] at hplan
        obtain ⟨answer, h, -⟩ := replying_ok hplan
        exact prepared_after hinv hload h hlen
    · rintro rfl
      simp only [Call.plan] at hplan
      obtain ⟨answer, h, rfl⟩ := replying_ok hplan
      obtain ⟨rfl, rfl⟩ := resizePlan_ok h hload
      have hre := load_reloaded hload
      rw [hre.length_eq]
      exact ⟨_, rfl, (hinv.reloaded hre).drop_names _, rfl⟩
    · rintro rfl hlen
      simp only [Call.plan] at hplan
      obtain ⟨answer, h, rfl⟩ := replying_ok hplan
      exact ⟨answer, rfl, retired_after hinv hload h hlen⟩
    · rintro rfl
      simp only [Call.plan] at hplan
      obtain ⟨answer, h, -⟩ := replying_ok hplan
      exact committed_after hinv hload h
  · -- A rebuild starts over and resizes nothing.
    constructor <;> simp [hop, Op.unlocked]

end Step

/-- **Every successful call of every run leaves a canonical inventory** and resizes it as it
should, if no store has more than `999` slots and the first one finds no state file to read. -/
theorem inventory_resized (disk : Disk) (calls : List Call) (call : Call) (reply : Reply)
    (hdisk : storedSlots disk = [])
    (hcounts : ∀ c ∈ calls ++ [call], c.store.slotCount ≤ inventoryLimit)
    (hok : (exec call (Run.run step disk calls)).2 = .ok reply) :
    Canonical (storedSlots (step (Run.run step disk calls) call))
      ∧ Resized call reply (storedSlots (Run.run step disk calls))
          (storedSlots (step (Run.run step disk calls) call)) := by
  have hstart : Inventoried (storedSlots disk) := by
    rw [hdisk]
    exact inventoried_emptyDisk
  have hbefore : Inventoried (storedSlots (Run.run step disk calls)) :=
    inventoried_calls hstart fun c hc => hcounts c (by simp [hc])
  exact ⟨(inventoried_step (hcounts call (by simp)) hbefore).canonical, resized_step hbefore hok⟩

/-- A call of a store with `count` slots. -/
def resizing (count : ℕ) (op : Op) : Call := ⟨quietStore count 0, op⟩

set_option maxRecDepth 100000 in
/-- A pool of three slots shrinks to two. -/
theorem three_slots_resized :
    (exec (resizing 2 .prepareResize) (reached [resizing 3 .status])).2
        = .ok (.retiring none [(freshSlot 3).retire])
      ∧ Canonical (storedSlots (step (reached [resizing 3 .status]) (resizing 2 .prepareResize))) := by
  have hok : (exec (resizing 2 .prepareResize) (Run.run step emptyDisk [resizing 3 .status])).2
      = .ok (.retiring none [(freshSlot 3).retire]) := by decide +kernel
  exact ⟨hok, (inventory_resized emptyDisk [resizing 3 .status] (resizing 2 .prepareResize) _ rfl
    (by decide) hok).1⟩

/-! ### A thousand slots -/

/-- The files of a pool of slots that were never leased. -/
def freshDisk (slots : List LeaseSlot) : Disk := ⟨.doc { emptyPool with slots := slots }, .absent⟩

lemma load_freshDisk (slots : List LeaseSlot) :
    load (freshDisk slots) = .ok { emptyPool with slots := slots } := rfl

lemma storedSlots_freshDisk (slots : List LeaseSlot) : storedSlots (freshDisk slots) = slots := rfl

section Fresh

variable {slots : List LeaseSlot} (hslots : ∀ s ∈ slots, ∃ number, s = freshSlot number)
include hslots

lemma map_image_fresh : slots.map LeaseSlot.image = slots := by
  have himage : ∀ number, (freshSlot number).image = freshSlot number := by
    simp [LeaseSlot.image, freshSlot]
  rw [List.map_congr_left (g := id), List.map_id]
  intro s hs
  obtain ⟨number, rfl⟩ := hslots s hs
  exact himage number

lemma writePool_fresh (disk : Disk) :
    writePool { emptyPool with slots := slots } disk = freshDisk slots := by
  have hentries : recoveryEntries { emptyPool with slots := slots } = [] := by
    refine List.map_eq_nil_iff.mpr (List.filter_eq_nil_iff.mpr fun s hs => ?_)
    obtain ⟨number, rfl⟩ := hslots s hs
    simp [slotHasRecoveryMetadata, LeaseSlot.carriesRecovery, freshSlot]
  rw [writePool, writeJournal, if_pos hentries, writeMain, LeasePool.image, freshDisk,
    map_image_fresh hslots]
  rfl

lemma expireStale_fresh (reading : Reading) :
    expireStale reading { emptyPool with slots := slots } = { emptyPool with slots := slots } := by
  rw [expireStale]
  congr 1
  refine (List.map_congr_left (g := id) fun s hs => ?_).trans (List.map_id _)
  obtain ⟨number, rfl⟩ := hslots s hs
  rfl

lemma mem_sortSlots_fresh : ∀ s ∈ sortSlots slots, ∃ number, s = freshSlot number :=
  fun s hs => hslots s ((sortSlots_perm slots).mem_iff.mp hs)

/-- The next call of a store of the same size sorts the slots. -/
lemma exec_status_fresh (hlen : 1 ≤ slots.length) :
    exec (resizing slots.length .status) (freshDisk slots)
      = (freshDisk (sortSlots slots), .ok (.pool { emptyPool with slots := sortSlots slots })) := by
  have hreconcile : reconcileSlotCount { emptyPool with slots := slots } slots.length
      = .ok { emptyPool with slots := sortSlots slots } := by
    simp [reconcileSlotCount, missingSlots, (sortSlots_perm slots).length_eq]
  have hopen : (quietStore slots.length 0).openPool (freshDisk slots)
      = .ok { emptyPool with slots := sortSlots slots } := by
    rw [LeaseStore.openPool, refuse_bind]
    refine ⟨Nat.not_lt.mpr hlen, ?_⟩
    rw [load_freshDisk]
    change (reconcileSlotCount _ slots.length >>= _) = _
    rw [hreconcile]
    exact congrArg Except.ok (expireStale_fresh (mem_sortSlots_fresh hslots) _)
  have hplan : (resizing slots.length .status).plan (freshDisk slots)
      = .ok (some { emptyPool with slots := sortSlots slots },
          .pool { emptyPool with slots := sortSlots slots }) := by
    simp only [Call.plan, resizing, LeaseStore.status, StoreOp.replying, LeaseStore.withLock, hopen]
    rfl
  rw [exec, hplan, ← writePool_fresh (mem_sortSlots_fresh hslots)]

/-- A shrink retires the last slots. -/
lemma exec_prepareResize_fresh {count : ℕ} (hlen : count < slots.length) :
    (exec (resizing count .prepareResize) (freshDisk slots)).2
      = .ok (.retiring none ((slots.drop count).map LeaseSlot.retire)) := by
  have hcheck : checkRetiring (slots.drop count) = .ok () := by
    have hnone : (slots.drop count).findSome? retireRefusal = none := by
      refine List.findSome?_eq_none_iff.mpr fun s hs => ?_
      obtain ⟨number, rfl⟩ := hslots s (List.mem_of_mem_drop hs)
      rfl
    rw [checkRetiring, hnone]
  have hprepare : (quietStore count 0).prepareResize (freshDisk slots)
      = .ok (some { emptyPool with
          slots := slots.take count ++ (slots.drop count).map LeaseSlot.retire },
          (slots.drop count).map LeaseSlot.retire) := by
    rw [LeaseStore.prepareResize, load_freshDisk]
    change (if slots.length < count then _ else _) = _
    rw [if_neg (by omega), if_neg (by change ¬ slots.length = count; omega)]
    change (checkRetiring (slots.drop count) >>= _) = _
    rw [hcheck]
    rfl
  simp only [exec, Call.plan, resizing, StoreOp.replying, hprepare]
  rfl

end Fresh

lemma missingSlots_fresh (present count : ℕ) :
    ∀ s ∈ missingSlots present count, ∃ number, s = freshSlot number := by
  intro s hs
  obtain ⟨number, _, rfl⟩ := List.mem_map.mp hs
  exact ⟨number, rfl⟩

lemma exec_prepareResize_empty {count : ℕ} (hcount : 1 ≤ count) :
    exec (resizing count .prepareResize) emptyDisk
      = (freshDisk (missingSlots 0 count), .ok (.retiring none [])) := by
  have hreconcile : reconcileSlotCount emptyPool count
      = .ok { emptyPool with slots := missingSlots 0 count } := by
    simp [reconcileSlotCount, missingSlots, emptyPool, sortSlots]
  have hprepare : (quietStore count 0).prepareResize emptyDisk
      = .ok (some { emptyPool with slots := missingSlots 0 count }, []) := by
    rw [LeaseStore.prepareResize, show load emptyDisk = .ok emptyPool from rfl]
    change (if 0 < count then _ else _) = _
    rw [if_pos (by omega)]
    change (reconcileSlotCount emptyPool count >>= _) = _
    rw [hreconcile]
    rfl
  simp only [exec, Call.plan, resizing, StoreOp.replying, hprepare]
  rw [← writePool_fresh (missingSlots_fresh 0 count)]
  rfl

lemma sortSlots_pairwise (slots : List LeaseSlot) :
    (sortSlots slots).Pairwise fun a b => a.slotID ≤ b.slotID := by
  have htotal : Std.Total fun a b : LeaseSlot => a.slotID ≤ b.slotID :=
    ⟨fun _ _ => List.le_total _ _⟩
  have htrans : IsTrans LeaseSlot fun a b => a.slotID ≤ b.slotID :=
    ⟨fun _ _ _ h₁ h₂ => List.le_trans h₁ h₂⟩
  exact List.pairwise_insertionSort _ slots

/-- No name up to `slot-1000` comes after `slot-999`. -/
lemma slotName_le_999 {number : ℕ} (h : number ≤ 1000) : slotName number ≤ slotName 999 := by
  rcases Nat.lt_or_ge number 999 with hlt | hge
  · exact List.le_of_lt (slotName_lt (show 999 ≤ inventoryLimit from le_rfl) hlt)
  · rcases (show number = 999 ∨ number = 1000 by omega) with rfl | rfl
    · exact List.le_refl _
    · decide

/-- A thousand slots as they are created, and after the next call. -/
def thousandCreated : Disk := step emptyDisk (resizing 1000 .prepareResize)

def thousandSorted : Disk := step thousandCreated (resizing 1000 .status)

lemma length_missingSlots (count : ℕ) : (missingSlots 0 count).length = count := by
  simp [missingSlots]

lemma thousandCreated_eq : thousandCreated = freshDisk (missingSlots 0 1000) := by
  rw [thousandCreated, step, exec_prepareResize_empty (by decide)]

lemma exec_status_thousand :
    exec (resizing 1000 .status) thousandCreated
      = (freshDisk (sortSlots (missingSlots 0 1000)),
          .ok (.pool { emptyPool with slots := sortSlots (missingSlots 0 1000) })) := by
  have h := exec_status_fresh (missingSlots_fresh 0 1000) (by rw [length_missingSlots]; decide)
  rwa [length_missingSlots, ← thousandCreated_eq] at h

/-- The last of the thousand slots in textual order. -/
lemma drop_sorted_thousand :
    ((sortSlots (missingSlots 0 1000)).drop 999).map (·.slotID) = [slotName 999] := by
  have hperm := sortSlots_perm (missingSlots 0 1000)
  have hlength : (sortSlots (missingSlots 0 1000)).length = 1000 :=
    hperm.length_eq.trans (length_missingSlots 1000)
  obtain ⟨init, last, hsplit⟩ : ∃ init last, sortSlots (missingSlots 0 1000) = init ++ [last] :=
    ⟨_, _, (List.dropLast_append_getLast (List.ne_nil_of_length_pos (by omega))).symm⟩
  have hinit : init.length = 999 := by
    rw [hsplit, List.length_append, List.length_singleton] at hlength
    omega
  have hmem : ∀ s, s ∈ missingSlots 0 1000 ↔ s ∈ init ++ [last] := fun s => by
    rw [← hsplit, hperm.mem_iff]
  -- `slot-999` is among the slots, so it is not after the last one.
  have hle : slotName 999 ≤ last.slotID := by
    have hfresh : freshSlot 999 ∈ init ++ [last] :=
      (hmem _).mp (List.mem_map_of_mem (List.mem_range'_1.mpr (by omega)))
    have hsorted := sortSlots_pairwise (missingSlots 0 1000)
    rw [hsplit, List.pairwise_append] at hsorted
    rcases List.mem_append.mp hfresh with h | h
    · exact hsorted.2.2 _ h last (by simp)
    · rw [← List.mem_singleton.mp h]
      exact List.le_refl _
  have hge : last.slotID ≤ slotName 999 := by
    obtain ⟨number, hnumber, hlast⟩ := List.mem_map.mp ((hmem last).mpr (by simp))
    rw [← hlast]
    exact slotName_le_999 (by have := List.mem_range'_1.mp hnumber; omega)
  rw [hsplit, List.drop_left' hinit, List.map_singleton, List.le_antisymm hge hle]

/-- The numerical order is not the textual one. -/
lemma not_pairwise_slotNames_thousand : ¬ (slotNames 1000).Pairwise (· ≤ ·) := by
  rw [← slotNames_append (show 998 ≤ 1000 by decide), List.pairwise_append]
  rintro ⟨_, h, _⟩
  exact absurd h (by decide)

/-- **A thousand slots.**  The inventory is created in order and sorted by name in the next call,
which puts `slot-1000` before `slot-999`; a shrink to `999` then retires `slot-999`. -/
theorem thousand_slots_misordered :
    (storedSlots thousandCreated).map (·.slotID) = slotNames 1000
      ∧ (exec (resizing 1000 .status) thousandCreated).2.isOk
      ∧ ¬ Canonical (storedSlots thousandSorted)
      ∧ ∃ retiring, (exec (resizing 999 .prepareResize) thousandSorted).2
            = .ok (.retiring none retiring)
          ∧ retiring.map (·.slotID) = [slotName 999] := by
  have hperm := sortSlots_perm (missingSlots 0 1000)
  have hlength := hperm.length_eq.trans (length_missingSlots 1000)
  have hsorted : thousandSorted = freshDisk (sortSlots (missingSlots 0 1000)) := by
    rw [thousandSorted, step, exec_status_thousand]
  refine ⟨?_, by rw [exec_status_thousand]; rfl, ?_,
    ((sortSlots (missingSlots 0 1000)).drop 999).map LeaseSlot.retire, ?_, ?_⟩
  · rw [thousandCreated_eq]
    exact missingSlots_names 0 1000
  · rintro ⟨hnames, -⟩
    have hpairwise := sortSlots_pairwise (missingSlots 0 1000)
    rw [hsorted, storedSlots_freshDisk, hlength] at hnames
    rw [← List.pairwise_map (f := fun s : LeaseSlot => s.slotID) (R := fun a b => a ≤ b),
      hnames] at hpairwise
    exact not_pairwise_slotNames_thousand hpairwise
  · rw [hsorted]
    exact exec_prepareResize_fresh (mem_sortSlots_fresh (missingSlots_fresh 0 1000)) (by omega)
  · rw [List.map_map]
    exact drop_sorted_thousand

end Subyard.Lease
