import Subyard.Lease.Moves

/-!
The state file along a run.

* `Reloaded`: what a reload can change in a slot, namely the five fields of the journal and the
  legacy mark.
* `Evolves`: a slot of the state file before a call and the same slot after it.
* `step_slots`: the slots after a call are those before it or fresh ones, each evolved, or the
  quarantined slots of a rebuild.
* `slots_invariant`: what holds of fresh and rebuilt slots and is kept by `Evolves` holds of
  every slot in every reachable state.
-/

namespace Subyard.Lease

open Text Fallible

/-- The slot as `load` returns it. -/
def Reloaded (s s' : LeaseSlot) : Prop :=
  ∃ recovery legacy, s' = { s.withRecovery recovery with legacyRetained := legacy }

lemma Reloaded.refl (s : LeaseSlot) : Reloaded s s := ⟨s.recovery, s.legacyRetained, rfl⟩

lemma Reloaded.trans {a b c : LeaseSlot} (hab : Reloaded a b) (hbc : Reloaded b c) :
    Reloaded a c := by
  obtain ⟨_, _, rfl⟩ := hab
  obtain ⟨recovery, legacy, rfl⟩ := hbc
  exact ⟨recovery, legacy, rfl⟩

lemma mergeEntry_reloaded (recovery : LeaseRecoverySlot) (slots : List LeaseSlot) :
    List.Forall₂ Reloaded slots (mergeEntry recovery slots) := by
  refine Pointwise.forall₂_update Reloaded.refl fun s _ => ?_
  split
  · exact ⟨recovery, s.legacyRetained, rfl⟩
  · exact .refl s

lemma mergeEntries_reloaded {seen : List Bytes} {entries : List LeaseRecoverySlot}
    {slots slots' : List LeaseSlot} (h : mergeEntries seen entries slots = .ok slots') :
    List.Forall₂ Reloaded slots slots' := by
  induction entries generalizing seen slots with
  | nil =>
    cases h
    exact List.forall₂_same.mpr fun s _ => .refl s
  | cons recovery rest ih =>
    rw [mergeEntries, refuse_bind, refuse_bind] at h
    exact Pointwise.trans (T := Reloaded) (fun _ _ _ h1 h2 => h1.trans h2)
      (mergeEntry_reloaded recovery slots) (ih h.2.2)

lemma upgradeSchema_reloaded (pool : LeasePool) :
    List.Forall₂ Reloaded pool.slots (upgradeSchema pool).slots := by
  rw [upgradeSchema]
  split
  · rw [List.forall₂_map_right_iff, List.forall₂_same]
    exact fun s _ => ⟨s.recovery, true, rfl⟩
  · exact List.forall₂_same.mpr fun s _ => .refl s

lemma fenceSchema_slots (pool : LeasePool) : (fenceSchema pool).slots = pool.slots := by
  rw [fenceSchema]
  split <;> rfl

/-- **Loading changes nothing but the journal's fields and the legacy mark.** -/
theorem load_reloaded {disk : Disk} {pool : LeasePool} (h : load disk = .ok pool) :
    List.Forall₂ Reloaded (storedSlots disk) pool.slots := by
  rw [load] at h
  rw [storedSlots]
  split at h
  · rename_i hmain
    cases h
    rw [hmain]
    exact .nil
  · cases h
  · cases h
  · rename_i stored hmain
    rw [hmain]
    obtain ⟨_, h⟩ := refuse_bind.mp h
    obtain ⟨_, h⟩ := refuse_bind.mp h
    have hup : List.Forall₂ Reloaded stored.slots (fenceSchema (upgradeSchema stored)).slots := by
      rw [fenceSchema_slots]
      exact upgradeSchema_reloaded stored
    unfold mergeRecoveryJournal at h
    split at h
    · cases h
      exact hup
    · cases h
    · cases h
    · obtain ⟨_, h⟩ := refuse_bind.mp h
      obtain ⟨slots, hmerge, h⟩ := of_bind_ok h
      cases h
      exact Pointwise.trans (T := Reloaded) (fun _ _ _ h1 h2 => h1.trans h2) hup
        (mergeEntries_reloaded hmerge)

lemma sortSlots_perm (slots : List LeaseSlot) : (sortSlots slots).Perm slots :=
  List.perm_insertionSort _ slots

/-- A slot of the state file and what a call makes of it there. -/
def Evolves (call : Call) (s s' : LeaseSlot) : Prop :=
  ∃ loaded changed, Reloaded s loaded ∧ SlotChange call loaded changed ∧ s' = changed.image

/-- The slots a call can start from: those of the state file and the ones it may have to add. -/
def candidates (call : Call) (disk : Disk) : List LeaseSlot :=
  storedSlots disk ++ missingSlots (storedSlots disk).length call.store.slotCount

/-- The slots of a changed pool come from those of the state file and from fresh ones. -/
lemma PoolChange.evolves {call : Call} {disk : Disk} {pool pool' : LeasePool}
    (hload : load disk = .ok pool) (h : PoolChange call pool pool') :
    ∃ before, before.Subperm (candidates call disk)
      ∧ List.Forall₂ (Evolves call) before (pool'.slots.map LeaseSlot.image) := by
  have hre := load_reloaded hload
  have hcomp : ∀ s loaded changed, Reloaded s loaded → SlotChange call loaded changed →
      Evolves call s changed.image := fun s loaded changed h1 h2 => ⟨loaded, changed, h1, h2, rfl⟩
  simp only [List.forall₂_map_right_iff]
  cases h with
  | ordinary hcount hlen hslots hheader =>
    obtain ⟨before, hperm, hbefore⟩ := Pointwise.of_perm hre (sortSlots_perm pool.slots).symm
    refine ⟨before ++ missingSlots pool.slots.length call.store.slotCount, ?_, ?_⟩
    · rw [← hre.length_eq]
      exact (hperm.symm.append_right _).subperm
    · exact Pointwise.trans hcomp (List.rel_append hbefore
        (List.forall₂_same.mpr fun s _ => .refl s)) hslots
  | retired hop hlen hretire =>
    refine ⟨storedSlots disk, (List.sublist_append_left _ _).subperm,
      Pointwise.trans hcomp hre ?_⟩
    exact retire_slotChange hop hretire
  | committed hop hlen hfenced =>
    refine ⟨(storedSlots disk).take call.store.slotCount,
      ((List.take_sublist _ _).trans (List.sublist_append_left _ _)).subperm, ?_⟩
    exact Pointwise.trans hcomp (List.forall₂_take _ hre)
      (List.forall₂_same.mpr fun s _ => .refl call s)

/-- **The slots of the state file after a call**: as before, evolved from those before and from
fresh ones, or those of a rebuild. -/
theorem step_slots (call : Call) (disk : Disk) :
    step disk call = disk
      ∨ (∃ before, before.Subperm (candidates call disk)
          ∧ List.Forall₂ (Evolves call) before (storedSlots (step disk call)))
      ∨ ∃ id number, call.op = .rebuildCorruptPoolForRecovery id ∧ corruptOnDisk disk
          ∧ storedSlots (step disk call)
            = (call.store.rebuiltPool number).slots.map LeaseSlot.image := by
  rcases step_cases call disk with hsame | ⟨pool', reply, hplan, hstep⟩
  · exact .inl hsame
  · rw [hstep, storedSlots_writePool]
    rcases plan_change hplan with ⟨pool, hload, hchange⟩ | ⟨id, number, hop, hcorrupt, _, rfl⟩
    · exact .inr (.inl (hchange.evolves hload))
    · exact .inr (.inr ⟨id, number, hop, hcorrupt, rfl⟩)

/-- **A slot of the state file is still there after a call**, unless a resize dropped it or a
rebuild started over. -/
theorem step_forward (call : Call) (disk : Disk) {s : LeaseSlot} (hs : s ∈ storedSlots disk) :
    (∃ s' ∈ storedSlots (step disk call), s' = s ∨ Evolves call s s')
      ∨ (call.op = .commitResize ∧ s ∈ (storedSlots disk).drop call.store.slotCount)
      ∨ ∃ id, call.op = .rebuildCorruptPoolForRecovery id ∧ corruptOnDisk disk := by
  rcases step_cases call disk with hsame | ⟨pool', reply, hplan, hstep⟩
  · exact .inl ⟨s, by rwa [hsame], .inl rfl⟩
  rw [hstep, storedSlots_writePool]
  rcases plan_change hplan with ⟨pool, hload, hchange⟩ | ⟨id, number, hop, hcorrupt, _, _⟩
  · have hre := load_reloaded hload
    have hevolves : ∀ {loaded changed : LeaseSlot}, Reloaded s loaded →
        SlotChange call loaded changed → changed ∈ pool'.slots →
        ∃ s' ∈ pool'.slots.map LeaseSlot.image, s' = s ∨ Evolves call s s' :=
      fun {loaded changed} hl hc hmem =>
        ⟨changed.image, List.mem_map_of_mem hmem, .inr ⟨loaded, changed, hl, hc, rfl⟩⟩
    cases hchange with
    | ordinary _ _ hslots _ =>
      obtain ⟨loaded, hloaded, hl⟩ := Pointwise.exists_right hre hs
      obtain ⟨changed, hmem, hc⟩ := Pointwise.exists_right hslots
        (List.mem_append_left _ ((sortSlots_perm pool.slots).mem_iff.mpr hloaded))
      exact .inl (hevolves hl hc hmem)
    | retired hop _ hretire =>
      obtain ⟨loaded, hloaded, hl⟩ := Pointwise.exists_right hre hs
      obtain ⟨changed, hmem, hc⟩ :=
        Pointwise.exists_right (retire_slotChange hop hretire) hloaded
      exact .inl (hevolves hl hc hmem)
    | committed hop _ _ =>
      rw [← List.take_append_drop call.store.slotCount (storedSlots disk)] at hs
      rcases List.mem_append.mp hs with hs | hs
      · obtain ⟨loaded, hloaded, hl⟩ := Pointwise.exists_right (List.forall₂_take _ hre) hs
        exact .inl (hevolves hl (.refl call loaded) hloaded)
      · exact .inr (.inl ⟨hop, hs⟩)
  · exact .inr (.inr ⟨id, hop, hcorrupt⟩)

/-- A candidate is a slot of the state file or a fresh one. -/
lemma mem_candidates {call : Call} {disk : Disk} {s : LeaseSlot} (h : s ∈ candidates call disk) :
    s ∈ storedSlots disk ∨ ∃ number, s = freshSlot number := by
  rcases List.mem_append.mp h with h | h
  · exact .inl h
  · obtain ⟨number, _, rfl⟩ := List.mem_map.mp h
    exact .inr ⟨number, rfl⟩

/-- A property of the slots of the state file that every step keeps. -/
lemma slots_step {I : LeaseSlot → Prop} (hfresh : ∀ number, I (freshSlot number))
    (hrebuilt : ∀ number reason now, I (rebuiltSlot number reason now).image)
    {call : Call} (hevolves : ∀ s s', I s → Evolves call s s' → I s') {disk : Disk}
    (h : ∀ s ∈ storedSlots disk, I s) : ∀ s ∈ storedSlots (step disk call), I s := by
  rcases step_slots call disk with hsame | ⟨before, hsub, hslots⟩ | ⟨id, number, _, _, hslots⟩
  · rw [hsame]
    exact h
  · intro s' hs'
    obtain ⟨s, hs, hevolve⟩ := Pointwise.exists_left hslots hs'
    refine hevolves s s' ?_ hevolve
    rcases mem_candidates (hsub.subset hs) with hs | ⟨number, rfl⟩
    · exact h s hs
    · exact hfresh number
  · rw [hslots]
    intro s hs
    obtain ⟨slot, hslot, rfl⟩ := List.mem_map.mp hs
    obtain ⟨index, _, rfl⟩ := List.mem_map.mp hslot
    exact hrebuilt index _ _

/-- **A property of fresh and rebuilt slots that every call keeps holds of every slot in every
reachable state.** -/
theorem slots_invariant {I : LeaseSlot → Prop} (hfresh : ∀ number, I (freshSlot number))
    (hrebuilt : ∀ number reason now, I (rebuiltSlot number reason now).image)
    (hevolves : ∀ call s s', I s → Evolves call s s' → I s') (calls : List Call) :
    ∀ s ∈ storedSlots (reached calls), I s := by
  refine Run.invariant (P := fun _ _ => True) (I := fun disk => ∀ s ∈ storedSlots disk, I s)
    (fun disk call h _ => slots_step hfresh hrebuilt (hevolves call) h) ?_
    (Run.allSteps_of_forall (fun _ _ => trivial) _ calls)
  intro s hs
  cases hs

/-! ### Names -/

variable {s s' : LeaseSlot} {call : Call}

lemma BodyMove.slotID {store : LeaseStore} {op : Op} (h : BodyMove store op s s') :
    s'.slotID = s.slotID := by
  cases h <;> rfl

lemma Expired.slotID (h : Expired s s') : s'.slotID = s.slotID := by
  cases h <;> rfl

lemma SlotChange.slotID (h : SlotChange call s s') : s'.slotID = s.slotID := by
  cases h with
  | expired hexp => exact hexp.slotID
  | body hexp hbody => exact hbody.slotID.trans hexp.slotID

lemma Reloaded.slotID (h : Reloaded s s') : s'.slotID = s.slotID := by
  obtain ⟨recovery, legacy, rfl⟩ := h
  rfl

lemma Evolves.slotID (h : Evolves call s s') : s'.slotID = coerce s.slotID := by
  obtain ⟨loaded, changed, hre, hchange, rfl⟩ := h
  rw [← hre.slotID, ← hchange.slotID]
  rfl

/-- The slot bears the name of a number. -/
def LeaseSlot.Named (s : LeaseSlot) : Prop := ∃ number, s.slotID = slotName number

/-- A named slot keeps its name. -/
lemma Evolves.slotID_of_named (h : Evolves call s s') (hs : s.Named) : s'.slotID = s.slotID := by
  obtain ⟨number, hname⟩ := hs
  rw [h.slotID, hname, coerce_slotName]

/-- Every slot in every reachable state bears the name of a number. -/
lemma slots_named (calls : List Call) : ∀ s ∈ storedSlots (reached calls), s.Named := by
  refine slots_invariant (fun number => ⟨number, rfl⟩)
    (fun number reason now => ⟨number, coerce_slotName number⟩) (fun call s s' hs h => ?_) calls
  obtain ⟨number, hname⟩ := hs
  exact ⟨number, (h.slotID_of_named ⟨number, hname⟩).trans hname⟩

end Subyard.Lease
