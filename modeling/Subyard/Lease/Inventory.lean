import Subyard.Lease.Reach

/-!
The inventory of slots while the configured count stays below one thousand.

* `slotNames n`: the names of the slots `1 … n`, in strictly increasing textual order up to
  `999` (`slotNames_pairwise`).
* `Inventoried`: the slots are named `1 … n` in that order; such a list is sorted, so the
  inventory an ordinary call starts from is the list itself and the missing slots
  (`Inventoried.inventory`).
* `inventoried_step`: every call with at most `999` slots keeps the state file inventoried.
-/

namespace Subyard.Lease

open Text

variable {n count : ℕ} {slots : List LeaseSlot}

/-- The names of the slots `1 … n`. -/
def slotNames (n : ℕ) : List Bytes := (List.range' 1 n).map slotName

/-- The number of slots up to which the textual order of the names is the numerical one. -/
def inventoryLimit : ℕ := 999

lemma slotName_lt {m : ℕ} (hn : n ≤ inventoryLimit) (h : m < n) : slotName m < slotName n :=
  List.append_left_lt (padded3_lt_padded3 (show n < 1000 from Nat.lt_succ_of_le hn) h)

lemma slotNames_pairwise (hn : n ≤ inventoryLimit) : (slotNames n).Pairwise (· < ·) := by
  rw [slotNames, List.pairwise_map]
  refine List.Pairwise.imp_of_mem (fun {a b} _ hb hab => slotName_lt ?_ hab)
    (List.pairwise_lt_range' (s := 1) (n := n))
  have := List.mem_range'_1.mp hb
  omega

lemma slotNames_nodup (hn : n ≤ inventoryLimit) : (slotNames n).Nodup :=
  List.Pairwise.imp (fun {a b} (h : a < b) (heq : a = b) => List.lt_irrefl b (heq ▸ h))
    (slotNames_pairwise hn)

/-- Growing appends the names of the missing slots. -/
lemma slotNames_append (h : n ≤ count) :
    slotNames n ++ (missingSlots n count).map (·.slotID) = slotNames count := by
  rw [missingSlots, List.map_map, slotNames, slotNames, Nat.add_comm n 1,
    show (fun s : LeaseSlot => s.slotID) ∘ freshSlot = slotName from rfl, ← List.map_append,
    List.range'_append_1, Nat.add_sub_cancel' h]

/-- The slots are named `1 … n`, for an `n` within the limit. -/
def Inventoried (slots : List LeaseSlot) : Prop :=
  ∃ n ≤ inventoryLimit, slots.map (·.slotID) = slotNames n

lemma Inventoried.length_le (h : Inventoried slots) : slots.length ≤ inventoryLimit := by
  obtain ⟨n, hn, hnames⟩ := h
  have hlen := congrArg List.length hnames
  simp only [slotNames, List.length_map, List.length_range'] at hlen
  omega

/-- The number of slots is the number of the last one. -/
lemma Inventoried.names (h : Inventoried slots) :
    slots.map (·.slotID) = slotNames slots.length := by
  obtain ⟨n, hn, hnames⟩ := h
  have hlen := congrArg List.length hnames
  simp only [slotNames, List.length_map, List.length_range'] at hlen
  rw [hnames, hlen]

/-- Inventoried slots are in order. -/
lemma Inventoried.sorted (h : Inventoried slots) : sortSlots slots = slots := by
  obtain ⟨n, hn, hnames⟩ := h
  have hpair := slotNames_pairwise hn
  rw [← hnames, List.pairwise_map] at hpair
  exact List.Pairwise.insertionSort_eq (hpair.imp fun h => List.le_of_lt h)

/-- Names are distinct. -/
lemma Inventoried.eq_of_slotID (h : Inventoried slots) {s t : LeaseSlot} (hs : s ∈ slots)
    (ht : t ∈ slots) (hname : s.slotID = t.slotID) : s = t := by
  obtain ⟨n, hn, hnames⟩ := h
  have hnodup := slotNames_nodup hn
  rw [← hnames] at hnodup
  exact List.inj_on_of_nodup_map hnodup hs ht hname

/-- Related slots of the same names are inventoried together. -/
lemma Inventoried.of_forall₂ {R : LeaseSlot → LeaseSlot → Prop} {slots' : List LeaseSlot}
    (h : Inventoried slots) (hslots : List.Forall₂ R slots slots')
    (hname : ∀ s s', R s s' → s'.slotID = s.slotID) : Inventoried slots' := by
  obtain ⟨n, hn, hnames⟩ := h
  exact ⟨n, hn, by rw [← hnames, Pointwise.map_eq (hslots.imp fun s s' hs => (hname s s' hs).symm)]⟩

/-- The inventory an ordinary call starts from. -/
lemma Inventoried.inventory {pool : LeasePool} (h : Inventoried pool.slots) (count : ℕ) :
    pool.inventory count = pool.slots ++ missingSlots pool.slots.length count := by
  rw [LeasePool.inventory, h.sorted]

lemma Inventoried.grown (h : Inventoried slots) (hlen : slots.length ≤ count)
    (hcount : count ≤ inventoryLimit) : Inventoried (slots ++ missingSlots slots.length count) :=
  ⟨count, hcount, by rw [List.map_append, h.names, slotNames_append hlen]⟩

lemma Inventoried.take (h : Inventoried slots) (hlen : count ≤ slots.length) :
    Inventoried (slots.take count) := by
  refine ⟨count, hlen.trans h.length_le, ?_⟩
  rw [List.map_take, h.names, ← slotNames_append hlen]
  exact List.take_left' (by simp [slotNames])

/-- **A change of an inventoried pool is inventoried.** -/
lemma PoolChange.inventoried {call : Call} {pool pool' : LeasePool} (h : PoolChange call pool pool')
    (hcount : call.store.slotCount ≤ inventoryLimit) (hpool : Inventoried pool.slots) :
    Inventoried pool'.slots := by
  cases h with
  | ordinary _ hlen hslots _ =>
    rw [hpool.inventory] at hslots
    exact (hpool.grown hlen hcount).of_forall₂ hslots fun s s' h => h.slotID
  | retired hop hlen hretire =>
    exact hpool.of_forall₂ (retire_slotChange hop hretire) fun s s' h => h.slotID
  | committed hop hlen _ => exact hpool.take hlen

lemma Inventoried.reloaded {slots' : List LeaseSlot} (h : Inventoried slots)
    (hre : List.Forall₂ Reloaded slots slots') : Inventoried slots' :=
  h.of_forall₂ hre fun _ _ h => h.slotID

/-- Names of numbers survive the file. -/
lemma Inventoried.image (h : Inventoried slots) : Inventoried (slots.map LeaseSlot.image) := by
  obtain ⟨n, hn, hnames⟩ := h
  refine ⟨n, hn, ?_⟩
  have hcoerce : (slots.map LeaseSlot.image).map (·.slotID) = (slots.map (·.slotID)).map coerce := by
    rw [List.map_map, List.map_map]
    rfl
  rw [hcoerce, hnames, slotNames, List.map_map]
  exact List.map_congr_left fun number _ => coerce_slotName number

lemma rebuiltPool_inventoried {store : LeaseStore} (hcount : store.slotCount ≤ inventoryLimit)
    (number : ℕ) : Inventoried (store.rebuiltPool number).slots :=
  ⟨store.slotCount, hcount, by rw [LeaseStore.rebuiltPool, List.map_map]; rfl⟩

/-- **Every call with at most `999` slots keeps the state file inventoried.** -/
theorem inventoried_step {disk : Disk} {call : Call}
    (hcount : call.store.slotCount ≤ inventoryLimit) (h : Inventoried (storedSlots disk)) :
    Inventoried (storedSlots (step disk call)) := by
  rcases step_cases call disk with hsame | ⟨pool', reply, hplan, hstep⟩
  · rwa [hsame]
  · rw [hstep, storedSlots_writePool]
    rcases plan_change hplan with ⟨pool, hload, hchange⟩ | ⟨id, number, _, _, _, rfl⟩
    · exact (hchange.inventoried hcount (h.reloaded (load_reloaded hload))).image
    · exact (rebuiltPool_inventoried hcount number).image

/-- The same along a run. -/
lemma inventoried_calls {disk : Disk} {calls : List Call} (h : Inventoried (storedSlots disk))
    (hcounts : ∀ call ∈ calls, call.store.slotCount ≤ inventoryLimit) :
    Inventoried (storedSlots (Run.run step disk calls)) := by
  induction calls generalizing disk with
  | nil => exact h
  | cons call calls ih =>
    exact ih (inventoried_step (hcounts call (by simp)) h) fun c hc =>
      hcounts c (List.mem_cons_of_mem _ hc)

lemma inventoried_emptyDisk : Inventoried (storedSlots emptyDisk) :=
  ⟨0, Nat.zero_le _, rfl⟩

end Subyard.Lease
