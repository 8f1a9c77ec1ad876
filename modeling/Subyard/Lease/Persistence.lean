import Subyard.Lease.Grants
import Subyard.Lease.Inventory

/-!
The round trip of the pool through the two files.

The journal repeats five fields of every slot that has one of them set, but `load` accepts only
entries of available, quarantined and recovering slots.  A slot that is fenced for a resize or
for the legacy retirement keeps the fields, and the store then refuses what it wrote itself
(`resize_breaks_journal`).

* `merged`, `mergeEntries_ok`: what a well-formed journal makes of the slots.
* `LeaseSlot.Sound`, `LeasePool.Persistable`: what a pool must satisfy to be read back.
* `load_writePool`: **such a pool is read back with its texts coerced**.
* `readsAs_run`: every run of calls that fence no slot with recovery metadata keeps this.
* `pool_round_trip`: in such a run the pool itself is read back, if the texts are UTF-8.
-/

namespace Subyard.Lease

open Text Fallible

/-! ### The merge of a well-formed journal -/

/-- What the entries of a journal make of a slot. -/
def merged (entries : List LeaseRecoverySlot) (s : LeaseSlot) : LeaseSlot :=
  match entries.find? fun e => e.slotID = s.slotID with
  | some e => if recoveryMatches s e then s.withRecovery e else s
  | none => s

@[simp] lemma merged_nil : merged [] = id := rfl

@[simp] lemma merged_slotID (entries : List LeaseRecoverySlot) (s : LeaseSlot) :
    (merged entries s).slotID = s.slotID := by
  rw [merged]
  split
  · split <;> rfl
  · rfl

lemma mergeEntry_eq_map {e : LeaseRecoverySlot} {slots : List LeaseSlot}
    (hnames : (slots.map (·.slotID)).Nodup) : mergeEntry e slots = slots.map (merged [e]) := by
  rw [mergeEntry, Pointwise.update_eq_map]
  · refine List.map_congr_left fun s _ => ?_
    by_cases h : s.slotID = e.slotID
    · simp [merged, h]
    · simp [merged, h, Ne.symm h]
  · rw [List.nodup_iff_pairwise_ne, List.pairwise_map] at hnames
    refine hnames.imp fun hne h => hne ?_
    simp only [decide_eq_true_eq] at h
    exact h.1.trans h.2.symm

/-- Entries of distinct names merge one after the other. -/
lemma merged_cons {e : LeaseRecoverySlot} {rest : List LeaseRecoverySlot}
    (hfresh : e.slotID ∉ rest.map (·.slotID)) (s : LeaseSlot) :
    merged rest (merged [e] s) = merged (e :: rest) s := by
  by_cases h : e.slotID = s.slotID
  · have hnone : rest.find? (fun e' => e'.slotID = s.slotID) = none := by
      rw [List.find?_eq_none]
      intro e' he' heq
      exact hfresh (List.mem_map.mpr ⟨e', he', (by simpa using heq : e'.slotID = _).trans h.symm⟩)
    rw [merged, merged_slotID, hnone]
    simp [merged, h]
  · have hskip : merged [e] s = s := by simp [merged, h]
    rw [hskip]
    simp [merged, h]

/-- **A journal of valid entries with distinct names merges.** -/
lemma mergeEntries_ok {seen : List Bytes} {entries : List LeaseRecoverySlot}
    {slots : List LeaseSlot}
    (hvalid : ∀ e ∈ entries, recoveryEntryValid e ∧ e.state.recoverable ∧ e.slotID ∉ seen)
    (hdistinct : (entries.map (·.slotID)).Nodup) (hnames : (slots.map (·.slotID)).Nodup) :
    mergeEntries seen entries slots = .ok (slots.map (merged entries)) := by
  induction entries generalizing seen slots with
  | nil => simp [mergeEntries]
  | cons e rest ih =>
    obtain ⟨hentry, hstate, hseen⟩ := hvalid e (by simp)
    obtain ⟨hfresh, hrest⟩ := List.nodup_cons.mp hdistinct
    have hnames' : ((mergeEntry e slots).map (·.slotID)).Nodup := by
      rw [mergeEntry_eq_map hnames, List.map_map]
      simpa [Function.comp_def] using hnames
    rw [mergeEntries, refuse_bind, refuse_bind]
    refine ⟨by simp [hentry, hseen], by simp [hstate], ?_⟩
    rw [ih (fun e' he' => ?_) hrest hnames', mergeEntry_eq_map hnames, List.map_map]
    · exact congrArg _ (List.map_congr_left fun s _ => merged_cons hfresh s)
    · obtain ⟨hentry', hstate', hseen'⟩ := hvalid e' (List.mem_cons_of_mem _ he')
      refine ⟨hentry', hstate', fun hmem => ?_⟩
      rcases List.mem_cons.mp hmem with heq | hmem
      · exact hfresh (List.mem_map.mpr ⟨e', he', heq⟩)
      · exact hseen' hmem

/-! ### Pools that can be read back -/

/-- A slot whose journal entry is accepted. -/
structure LeaseSlot.Sound (s : LeaseSlot) : Prop where
  generation : s.resourceGeneration ≠ 0
  recoverable : s.carriesRecovery → s.state.recoverable
  event : s.lastFailureEventID = [] ∨ brokerRecordID s.lastFailureEventID
  incident : s.incidentID = [] ∨ brokerRecordID s.incidentID

/-- A header that passes the checks of `load`. -/
def LeasePool.HeaderOk (pool : LeasePool) : Prop :=
  ((pool.schemaVersion = leaseSchemaVersion ∧ pool.admissionClosed = false)
      ∨ (pool.schemaVersion = leaseFencedSchemaVersion ∧ pool.admissionClosed = true))
    ∧ pool.resourceType = Lease.resourceType ∧ pool.resourceID = Lease.resourceID

/-- A pool that can be read back. -/
structure LeasePool.Persistable (pool : LeasePool) : Prop where
  inventoried : Inventoried pool.slots
  sound : ∀ s ∈ pool.slots, s.Sound
  header : pool.HeaderOk

lemma brokerSlotID_slotName {number : ℕ} (h : number ≤ inventoryLimit) :
    brokerSlotID (slotName number) := by
  have hlt : number < 1000 := Nat.lt_succ_of_le h
  have hprefix : str "slot-" = [115, 108, 111, 116, 45] := by decide
  simp [brokerSlotID, slotName, padded3, hlt, hprefix, isDigit_digit]

lemma Inventoried.brokerSlotID {slots : List LeaseSlot} (h : Inventoried slots) {s : LeaseSlot}
    (hs : s ∈ slots) : brokerSlotID s.slotID := by
  obtain ⟨n, hn, hnames⟩ := h
  have hmem : s.slotID ∈ slotNames n := hnames ▸ List.mem_map_of_mem hs
  obtain ⟨number, hnumber, heq⟩ := List.mem_map.mp hmem
  rw [← heq]
  exact brokerSlotID_slotName (by have := List.mem_range'_1.mp hnumber; omega)

lemma Inventoried.nodup {slots : List LeaseSlot} (h : Inventoried slots) :
    (slots.map (·.slotID)).Nodup := by
  obtain ⟨n, hn, hnames⟩ := h
  rw [hnames]
  exact slotNames_nodup hn

/-- The ids of a sound slot are stored as they are. -/
lemma coerce_recordID {id : Bytes} (h : id = [] ∨ brokerRecordID id) : coerce id = id := by
  rcases h with rfl | h
  · rfl
  · exact coerce_of_valid (brokerRecordID_ascii h).valid

lemma LeaseSlot.carriesRecovery_iff (s : LeaseSlot) :
    s.carriesRecovery ↔ s.lastFailureEventID ≠ [] ∨ s.incidentID ≠ [] ∨ s.recoveryAttempt ≠ 0
      ∨ s.nextRecoveryAt ≠ 0 ∨ s.recoveryStartedAt ≠ 0 := by
  simp [LeaseSlot.carriesRecovery, or_assoc]

/-- Coercion neither makes nor removes metadata. -/
@[simp] lemma LeaseSlot.carriesRecovery_image (s : LeaseSlot) :
    s.image.carriesRecovery = s.carriesRecovery := by
  rw [Bool.eq_iff_iff, LeaseSlot.carriesRecovery_iff, LeaseSlot.carriesRecovery_iff]
  exact or_congr (not_congr coerce_eq_nil) (or_congr (not_congr coerce_eq_nil) Iff.rfl)

lemma LeaseSlot.Sound.image {s : LeaseSlot} (h : s.Sound) : s.image.Sound where
  generation := h.generation
  recoverable := fun hcarries => h.recoverable (by simpa using hcarries)
  event := by
    show coerce s.lastFailureEventID = [] ∨ _
    rw [show s.image.lastFailureEventID = _ from coerce_recordID h.event, coerce_recordID h.event]
    exact h.event
  incident := by
    show coerce s.incidentID = [] ∨ _
    rw [show s.image.incidentID = _ from coerce_recordID h.incident, coerce_recordID h.incident]
    exact h.incident

lemma LeasePool.Persistable.image {pool : LeasePool} (h : pool.Persistable) :
    pool.image.Persistable where
  inventoried := h.inventoried.image
  sound := by
    intro s hs
    obtain ⟨slot, hslot, rfl⟩ := List.mem_map.mp hs
    exact (h.sound slot hslot).image
  header := by
    obtain ⟨hschema, htype, hid⟩ := h.header
    refine ⟨hschema, ?_, ?_⟩
    · show coerce pool.resourceType = _
      rw [htype]
      decide
    · show coerce pool.resourceID = _
      rw [hid]
      decide

/-- The names of the slots with metadata are among those of the slots. -/
lemma recoveryEntries_names (pool : LeasePool) :
    ((recoveryEntries pool).map (·.slotID)).Sublist (pool.slots.map (·.slotID)) := by
  rw [recoveryEntries, List.map_map]
  exact (List.filter_sublist).map _

lemma mem_recoveryEntries {pool : LeasePool} {e : LeaseRecoverySlot}
    (h : e ∈ recoveryEntries pool) :
    ∃ s ∈ pool.slots, slotHasRecoveryMetadata s ∧ e = s.recovery := by
  obtain ⟨s, hs, rfl⟩ := List.mem_map.mp h
  obtain ⟨hs, hmeta⟩ := List.mem_filter.mp hs
  exact ⟨s, hs, hmeta, rfl⟩

/-- The entries of a pool that can be read back are stored as they are, and accepted. -/
lemma LeasePool.Persistable.entries_image {pool : LeasePool} (h : pool.Persistable) :
    (recoveryEntries pool).map LeaseRecoverySlot.image = recoveryEntries pool := by
  refine (List.map_congr_left fun e he => ?_).trans (List.map_id _)
  obtain ⟨s, hs, _, rfl⟩ := mem_recoveryEntries he
  obtain ⟨n, _, hnames⟩ := h.inventoried
  have hmem : s.slotID ∈ slotNames n := hnames ▸ List.mem_map_of_mem hs
  obtain ⟨number, _, hname⟩ := List.mem_map.mp hmem
  have hid : coerce s.slotID = s.slotID := by rw [← hname, coerce_slotName]
  simp [LeaseRecoverySlot.image, LeaseSlot.recovery, hid, coerce_recordID (h.sound s hs).event,
    coerce_recordID (h.sound s hs).incident]

lemma LeasePool.Persistable.entry_valid {pool : LeasePool} (h : pool.Persistable)
    {e : LeaseRecoverySlot} (he : e ∈ recoveryEntries pool) :
    recoveryEntryValid e ∧ e.state.recoverable := by
  obtain ⟨s, hs, hmeta, rfl⟩ := mem_recoveryEntries he
  have hsound := h.sound s hs
  refine ⟨?_, ?_⟩
  · simp only [recoveryEntryValid, Bool.and_eq_true, Bool.or_eq_true, decide_eq_true_eq]
    exact ⟨⟨⟨h.inventoried.brokerSlotID hs, hsound.generation⟩, hsound.event⟩, hsound.incident⟩
  · simp only [slotHasRecoveryMetadata, Bool.or_eq_true, decide_eq_true_eq] at hmeta
    rcases hmeta with (hstate | hstate) | hcarries
    · rw [show s.recovery.state = _ from hstate]
      rfl
    · rw [show s.recovery.state = _ from hstate]
      rfl
    · exact hsound.recoverable hcarries

/-- The journal of a pool that can be read back merges into any inventoried slots. -/
lemma LeasePool.Persistable.merges {pool main : LeasePool} (h : pool.Persistable)
    (hmain : Inventoried main.slots) (disk : Disk) :
    mergeRecoveryJournal (writeJournal pool disk).journal main
      = .ok { main with slots := main.slots.map (merged (recoveryEntries pool)) } := by
  simp only [writeJournal, h.entries_image]
  by_cases hnil : recoveryEntries pool = []
  · simp [hnil, mergeRecoveryJournal]
  · have hmerge : mergeEntries [] (recoveryEntries pool) main.slots
        = .ok (main.slots.map (merged (recoveryEntries pool))) :=
      mergeEntries_ok (fun e he => ⟨(h.entry_valid he).1, (h.entry_valid he).2, by simp⟩)
        (h.inventoried.nodup.sublist (recoveryEntries_names pool)) hmain.nodup
    simp [hnil, mergeRecoveryJournal, hmerge, refuse, leaseRecoverySchemaVersion, bind,
      Except.bind, pure, Except.pure]

/-- The metadata of the pool itself is what its slots hold already. -/
lemma LeasePool.Persistable.merged_self {pool : LeasePool} (h : pool.Persistable) :
    pool.slots.map (merged (recoveryEntries pool)) = pool.slots := by
  refine (List.map_congr_left fun s hs => ?_).trans (List.map_id _)
  rw [merged]
  split
  · rename_i e hfind
    obtain ⟨t, ht, _, rfl⟩ := mem_recoveryEntries (List.mem_of_find?_eq_some hfind)
    obtain rfl : t = s :=
      h.inventoried.eq_of_slotID ht hs (of_decide_eq_true (List.find?_some hfind :))
    exact ite_eq_right_iff.mpr fun _ => rfl
  · rfl

/-- The coerced pool has the journal of the pool. -/
lemma LeasePool.Persistable.recoveryEntries_image {pool : LeasePool} (h : pool.Persistable) :
    recoveryEntries pool.image = recoveryEntries pool := by
  rw [← h.entries_image]
  have hmeta : ∀ s : LeaseSlot, slotHasRecoveryMetadata s.image = slotHasRecoveryMetadata s := by
    intro s
    rw [slotHasRecoveryMetadata, LeaseSlot.carriesRecovery_image]
    rfl
  simp only [recoveryEntries, LeasePool.image, List.filter_map, List.map_map]
  congr 1
  exact List.filter_congr fun s _ => hmeta s

/-- The header of a pool that can be read back passes the checks of `load`. -/
lemma LeasePool.Persistable.load_eq {pool : LeasePool} (h : pool.Persistable) {disk : Disk}
    (hmain : disk.main = .doc pool) : load disk = mergeRecoveryJournal disk.journal pool := by
  obtain ⟨hheader, htype, hid⟩ := h.header
  have hup : fenceSchema (upgradeSchema pool) = pool := by
    rcases hheader with ⟨hschema, _⟩ | ⟨hschema, hclosed⟩
    · simp [upgradeSchema, fenceSchema, hschema, leaseSchemaVersion, leaseFencedSchemaVersion]
    · have hone : upgradeSchema pool = pool := by
        simp [upgradeSchema, hschema, leaseFencedSchemaVersion]
      rw [hone, fenceSchema, if_pos hschema, ← hclosed]
  have hchecks : ¬ (pool.schemaVersion ≠ leaseFencedSchemaVersion
      ∧ (pool.schemaVersion ≠ leaseSchemaVersion ∨ pool.admissionClosed)) := by
    rcases hheader with ⟨hschema, hclosed⟩ | ⟨hschema, _⟩
    · simp [hschema, hclosed]
    · simp [hschema]
  rw [load]
  simp only [hmain, hup]
  simp [refuse, hchecks, htype, hid, bind, Except.bind]

/-- **A pool that can be read back is read back, with its texts coerced.** -/
theorem load_writePool {pool : LeasePool} (h : pool.Persistable) (disk : Disk) :
    load (writePool pool disk) = .ok pool.image := by
  have himage := h.image
  rw [himage.load_eq rfl]
  show mergeRecoveryJournal (writeJournal pool disk).journal pool.image = _
  rw [h.merges himage.inventoried, ← h.recoveryEntries_image, himage.merged_self]

/-! ### Calls that keep the journal readable -/

variable {pool : LeasePool} {pool' : LeasePool} {s s' : LeaseSlot} {call : Call} {disk : Disk}
  {op : Op}

lemma freshSlot_sound (number : ℕ) : (freshSlot number).Sound :=
  ⟨Nat.one_ne_zero, fun h => absurd h (by simp [LeaseSlot.carriesRecovery, freshSlot]), .inl rfl,
    .inl rfl⟩

/-- A slot in another state than the three of the journal has no metadata. -/
lemma LeaseSlot.Sound.not_carries (h : s.Sound) (hstate : s.state.recoverable = false) :
    s.carriesRecovery = false := by
  by_contra hc
  rw [Bool.not_eq_false] at hc
  rw [h.recoverable hc] at hstate
  cases hstate

/-- A slot without metadata is sound in any state. -/
lemma LeaseSlot.Sound.of_not_carries (hgen : s'.resourceGeneration ≠ 0)
    (hcarries : s'.carriesRecovery = false) : s'.Sound := by
  have hnone := (LeaseSlot.carriesRecovery_iff s').not.mp (by simp [hcarries])
  simp only [not_or, not_not] at hnone
  exact ⟨hgen, fun h => absurd h (by simp [hcarries]), .inl hnone.1, .inl hnone.2.1⟩

lemma inUse_not_recoverable {state : SlotState} (h : state = .provisioning ∨ state = .held) :
    state.recoverable = false := by
  rcases h with rfl | rfl <;> rfl

lemma Expired.sound (h : Expired s s') (hs : s.Sound) : s'.Sound := by
  cases h with
  | kept => exact hs
  | fenced hstate _ =>
    exact .of_not_carries hs.generation (hs.not_carries (inUse_not_recoverable hstate))

/-- **A call keeps a slot sound**, unless it fences one with metadata. -/
lemma BodyMove.sound {store : LeaseStore} (h : BodyMove store op s s') (hs : s.Sound)
    (hresize : op ≠ .prepareResize)
    (hlegacy : ∀ configured expected, op = .retireLegacyBegin configured expected →
      s.slotID = expected.slotID → s.legacyRetained → s.carriesRecovery = false) : s'.Sound := by
  cases h with
  | acquire _ _ _ _ _ _ =>
    refine .of_not_carries ?_ rfl
    show (if _ then s.resourceGeneration + 1 else s.resourceGeneration) ≠ 0
    split
    · exact Nat.succ_ne_zero _
    · exact hs.generation
  | reserve | pinBase | clearLegacy | handoff | renew =>
    exact ⟨hs.generation, hs.recoverable, hs.event, hs.incident⟩
  | markHeld _ _ hstate =>
    exact .of_not_carries hs.generation (hs.not_carries (by rw [hstate]; rfl))
  | beginDrain _ _ hstate | drainFor _ _ hstate =>
    exact .of_not_carries hs.generation (hs.not_carries (inUse_not_recoverable hstate.symm))
  | abort | finishDrain | legacyFinish => exact .of_not_carries hs.generation rfl
  | quarantine | drainFailed | interrupt =>
    exact ⟨hs.generation, fun _ => rfl, hs.event, hs.incident⟩
  | setIncident _ hevent hincident hstate =>
    refine ⟨hs.generation, fun _ => ?_, .inr hevent, .inr hincident⟩
    show s.state.recoverable = true
    rcases hstate with hstate | hstate <;> rw [hstate] <;> rfl
  | recover => exact ⟨hs.generation, fun _ => rfl, hs.event, hs.incident⟩
  | recoveryFailed _ _ hevent hincident =>
    refine ⟨hs.generation, fun _ => rfl, ?_, ?_⟩
    · show (if _ then s.lastFailureEventID else _) = [] ∨ brokerRecordID (if _ then _ else _)
      split
      · exact hs.event
      · exact hevent
    · show (if _ then s.incidentID else _) = [] ∨ brokerRecordID (if _ then _ else _)
      split
      · exact hs.incident
      · exact hincident
  | recovered => exact ⟨Nat.succ_ne_zero _, fun _ => rfl, hs.event, hs.incident⟩
  | retire => exact absurd rfl hresize
  | legacyBegin hname hkept _ =>
    exact .of_not_carries hs.generation (hlegacy _ _ rfl hname hkept)

/-- The slots that `load` returns. -/
def loadedSlots (disk : Disk) : List LeaseSlot :=
  match load disk with
  | .ok pool => pool.slots
  | .error _ => []

/-- The call fences no slot with recovery metadata, and the pool keeps at most `999` slots. -/
def keepsJournal (disk : Disk) (call : Call) : Bool :=
  call.store.slotCount ≤ inventoryLimit
    && match call.op with
      | .prepareResize =>
          ((loadedSlots disk).drop call.store.slotCount).all fun s =>
            s.state ≠ .available || !s.carriesRecovery
      | .retireLegacyBegin _ expected =>
          (loadedSlots disk).all fun s =>
            s.slotID ≠ expected.slotID || !s.legacyRetained || !s.carriesRecovery
      | _ => true

abbrev KeepsJournal (disk : Disk) (call : Call) : Prop := keepsJournal disk call

lemma KeepsJournal.count (h : KeepsJournal disk call) : call.store.slotCount ≤ inventoryLimit := by
  simp only [KeepsJournal, keepsJournal, Bool.and_eq_true, decide_eq_true_eq] at h
  exact h.1

lemma KeepsJournal.resize (h : KeepsJournal disk call) (hload : load disk = .ok pool)
    (hop : call.op = .prepareResize) :
    ∀ s ∈ pool.slots.drop call.store.slotCount, s.state = .available →
      s.carriesRecovery = false := by
  simp only [KeepsJournal, keepsJournal, hop, loadedSlots, hload, Bool.and_eq_true,
    List.all_eq_true, Bool.or_eq_true, Bool.not_eq_true', decide_eq_true_eq] at h
  intro s hs hstate
  exact (h.2 s hs).resolve_left (absurd hstate)

lemma KeepsJournal.legacy (h : KeepsJournal disk call) (hload : load disk = .ok pool)
    {configured : ℕ} {expected : LeaseIdentity}
    (hop : call.op = .retireLegacyBegin configured expected) :
    ∀ s ∈ pool.slots, s.slotID = expected.slotID → s.legacyRetained →
      s.carriesRecovery = false := by
  simp only [KeepsJournal, keepsJournal, hop, loadedSlots, hload, Bool.and_eq_true,
    List.all_eq_true, Bool.or_eq_true, Bool.not_eq_true', decide_eq_true_eq] at h
  intro s hs hname hlegacy
  rcases h.2 s hs with (hne | hnot) | hcarries
  · exact absurd hname hne
  · rw [hlegacy] at hnot
    cases hnot
  · exact hcarries

/-- The slots after a change are sound. -/
lemma PoolChange.sound (h : PoolChange call pool pool') (hload : load disk = .ok pool)
    (hkeeps : KeepsJournal disk call) (hpool : pool.Persistable) : ∀ s ∈ pool'.slots, s.Sound := by
  cases h with
  | ordinary _ _ hslots _ hgrow =>
    have hinventory : ∀ s ∈ pool.inventory call.store.slotCount,
        s ∈ pool.slots ∨ ∃ number, s = freshSlot number := by
      intro s hs
      rw [hpool.inventoried.inventory] at hs
      rcases List.mem_append.mp hs with hs | hs
      · exact .inl hs
      · obtain ⟨number, _, rfl⟩ := List.mem_map.mp hs
        exact .inr ⟨number, rfl⟩
    have hsound : ∀ s ∈ pool.inventory call.store.slotCount, s.Sound := by
      intro s hs
      rcases hinventory s hs with hs | ⟨number, rfl⟩
      · exact hpool.sound s hs
      · exact freshSlot_sound number
    intro s' hs'
    by_cases hop : call.op = .prepareResize
    · exact hsound s' (hgrow hop ▸ hs')
    obtain ⟨s, hs, hchange⟩ := Pointwise.exists_left hslots hs'
    cases hchange with
    | expired hexp => exact hexp.sound (hsound s hs)
    | body hexp hbody =>
      refine hbody.sound (hexp.sound (hsound s hs)) hop fun configured expected hlegacy => ?_
      cases hexp with
      | kept =>
        intro hname hkept
        rcases hinventory s hs with hs | ⟨number, rfl⟩
        · exact hkeeps.legacy hload hlegacy s hs hname hkept
        · cases hkept
      | fenced hstate _ =>
        exact fun _ _ => (hsound s hs).not_carries (inUse_not_recoverable hstate)
  | retired hop hlen hretire =>
    intro s hs
    rcases List.mem_append.mp hs with hs | hs
    · exact hpool.sound s (List.mem_of_mem_take hs)
    · obtain ⟨slot, hslot, rfl⟩ := List.mem_map.mp hs
      have hold := hpool.sound slot (List.mem_of_mem_drop hslot)
      refine .of_not_carries hold.generation ?_
      rcases (hretire slot hslot).1 with hstate | hfenced
      · exact hkeeps.resize hload hop slot hslot hstate
      · simp only [LeaseSlot.fencedForResize, Bool.and_eq_true, decide_eq_true_eq] at hfenced
        exact hold.not_carries (by rw [hfenced.1]; rfl)
  | committed => exact fun s hs => hpool.sound s (List.mem_of_mem_take hs)

lemma HeaderChange.headerOk (h : HeaderChange op pool pool') (hpool : pool.HeaderOk) :
    pool'.HeaderOk := by
  obtain ⟨hheader, htype, hid⟩ := hpool
  cases h with
  | kept hclosed hschema htype' hid' =>
    exact ⟨by rwa [hclosed, hschema], htype'.trans htype, hid'.trans hid⟩
  | fenced hclosed hschema htype' hid' =>
    exact ⟨.inr ⟨hschema, hclosed⟩, htype'.trans htype, hid'.trans hid⟩
  | opened hclosed hschema htype' hid' =>
    exact ⟨.inl ⟨hschema, hclosed⟩, htype'.trans htype, hid'.trans hid⟩

/-- **A change of a pool that can be read back can be read back.** -/
lemma PoolChange.persistable (h : PoolChange call pool pool') (hload : load disk = .ok pool)
    (hkeeps : KeepsJournal disk call) (hpool : pool.Persistable) : pool'.Persistable := by
  refine ⟨h.inventoried hkeeps.count hpool.inventoried, h.sound hload hkeeps hpool, ?_⟩
  cases h with
  | ordinary _ _ _ hheader _ => exact hheader.headerOk hpool.header
  | retired | committed => exact hpool.header

lemma emptyPool_persistable : emptyPool.Persistable :=
  ⟨⟨0, Nat.zero_le _, rfl⟩, by simp [emptyPool], .inl ⟨rfl, rfl⟩, rfl, rfl⟩

/-- The texts of a slot are stored as they are. -/
structure LeaseSlot.Stored (s : LeaseSlot) : Prop where
  acquireOwner : s.acquireOwner.map AcquireOwner.image = s.acquireOwner
  environment : s.environment.map EnvironmentSpec.image = s.environment
  baseFingerprint : coerce s.baseFingerprint = s.baseFingerprint
  slotID : coerce s.slotID = s.slotID
  clientID : coerce s.clientID = s.clientID
  controllerFingerprint : coerce s.controllerFingerprint = s.controllerFingerprint
  displayLabel : coerce s.displayLabel = s.displayLabel
  yard : coerce s.yard = s.yard
  project : coerce s.project = s.project
  checkout : coerce s.checkout = s.checkout
  run : coerce s.run = s.run
  purpose : coerce s.purpose = s.purpose
  leaseID : coerce s.leaseID = s.leaseID
  capabilityHash : coerce s.capabilityHash = s.capabilityHash
  failureReason : coerce s.failureReason = s.failureReason
  lastFailureEventID : coerce s.lastFailureEventID = s.lastFailureEventID
  incidentID : coerce s.incidentID = s.incidentID

lemma LeaseSlot.Stored.image_eq (h : s.Stored) : s.image = s := by
  obtain ⟨h1, h2, h3, h4, h5, h6, h7, h8, h9, h10, h11, h12, h13, h14, h15, h16, h17⟩ := h
  rw [LeaseSlot.image, h1, h2, h3, h4, h5, h6, h7, h8, h9, h10, h11, h12, h13, h14, h15, h16, h17]

/-- What was read from the file is stored as it is. -/
lemma LeaseSlot.image_stored (s : LeaseSlot) : s.image.Stored := by
  constructor
  case acquireOwner =>
    cases h : s.acquireOwner <;> simp [LeaseSlot.image, AcquireOwner.image, h]
  case environment =>
    cases h : s.environment <;> simp [LeaseSlot.image, EnvironmentSpec.image, h]
  all_goals exact coerce_coerce _

lemma freshSlot_stored (number : ℕ) : (freshSlot number).Stored := by
  constructor <;> simp [freshSlot]

/-- The files load, the journal adds nothing to the state file, and what they give can be read
back when it is written again. -/
structure ReadsAs (disk : Disk) (pool : LeasePool) : Prop where
  loads : load disk = .ok pool
  main : disk.main = .doc pool ∨ disk.main = .absent ∧ pool = emptyPool
  persistable : pool.Persistable
  stored : ∀ s ∈ pool.slots, s.Stored

/-- The pool that a call writes in such a state. -/
lemma ReadsAs.written (h : ReadsAs disk pool) (hkeeps : KeepsJournal disk call) {reply : Reply}
    (hplan : call.plan disk = .ok (some pool', reply)) :
    PoolChange call pool pool' ∧ pool'.Persistable := by
  rcases plan_change hplan with ⟨loaded, hloaded, hchange⟩ | ⟨_, _, _, hcorrupt, _⟩
  · cases h.loads.symm.trans hloaded
    exact ⟨hchange, hchange.persistable h.loads hkeeps h.persistable⟩
  · rw [corruptOnDisk, h.loads] at hcorrupt
    cases hcorrupt

lemma readsAs_step (h : ∃ pool, ReadsAs disk pool) (hkeeps : KeepsJournal disk call) :
    ∃ pool, ReadsAs (step disk call) pool := by
  obtain ⟨pool, hpool⟩ := h
  rcases step_cases call disk with hsame | ⟨pool', reply, hplan, hstep⟩
  · exact ⟨pool, by rwa [hsame]⟩
  · obtain ⟨_, hpool'⟩ := hpool.written hkeeps hplan
    rw [hstep]
    refine ⟨pool'.image, load_writePool hpool' disk, .inl rfl, hpool'.image, fun s hs => ?_⟩
    obtain ⟨slot, _, rfl⟩ := List.mem_map.mp hs
    exact slot.image_stored

/-- **Every run of such calls leaves files that load.** -/
theorem readsAs_run {calls : List Call} (h : Run.AllSteps step KeepsJournal emptyDisk calls) :
    ∃ pool, ReadsAs (reached calls) pool :=
  Run.invariant (I := fun disk => ∃ pool, ReadsAs disk pool) (fun _ _ => readsAs_step)
    ⟨emptyPool, rfl, .inr ⟨rfl, rfl⟩, emptyPool_persistable, by simp [emptyPool]⟩ h

/-! ### Texts -/

/-- The texts an operation stores that are not checked character by character. -/
def Op.texts : Op → List Bytes
  | .acquireSlot _ clientID fingerprint _ _ _ => [clientID, fingerprint]
  | .acquireV2Slot _ clientID fingerprint _ _ _ _ _ => [clientID, fingerprint]
  | .acquireV3Slot _ _ clientID fingerprint _ _ _ _ _ => [clientID, fingerprint]
  | .pinBase _ fingerprint => [fingerprint]
  | .quarantine _ reason | .beginDrainAll reason | .beginDrainSlot _ reason
  | .beginExpectedDrain _ reason | .finishDrain _ (some reason)
  | .interruptRecovery _ (some reason) | .finishRecovery _ (some reason) _ _ =>
      [boundedReason reason]
  | _ => []

/-- The texts of a call: those of the operation, and the owner an acquire records. -/
def Call.texts (call : Call) : List Bytes :=
  call.op.texts
    ++ if call.op.acquisition.isSome then
        call.store.acquireOwner.elim [] fun owner => [owner.start, owner.boot]
      else []

/-- Every unchecked text of the call is UTF-8. -/
def Call.storesText (call : Call) : Bool := call.texts.all valid

lemma Call.storesText_coerce (h : call.storesText) :
    ∀ text ∈ call.texts, coerce text = text := fun text htext =>
  coerce_of_valid (List.all_eq_true.mp h text htext)

lemma LeaseSlot.Stored.clearLease (h : s.Stored) : (clearLease s).Stored := by
  constructor <;> first | rfl | exact h.slotID

lemma Expired.stored (h : Expired s s') (hs : s.Stored) : s'.Stored := by
  cases h with
  | kept => exact hs
  | fenced _ hreason =>
    have hcoerce : ∀ reason ∈ expiryReasons, coerce reason = reason := by decide
    exact { hs with failureReason := hcoerce _ hreason }

/-- What an acquire writes is stored as it is, if the names of the client, of its key and of the
owner are. -/
lemma LeaseSlot.Stored.provision {owner : Option AcquireOwner} {request : AcquireRequest}
    {draw : Draw} {leaseID capability : Bytes} {now : Time} (hs : s.Stored) (hclean : request.Clean)
    (hclient : coerce request.clientID = request.clientID)
    (hkey : coerce request.fingerprint = request.fingerprint)
    (howner : owner.map AcquireOwner.image = owner) (hid : randomToken draw.leaseID = .ok leaseID) :
    (s.provision owner request leaseID capability now).Stored := by
  have henv : (request.environment <|> s.environment).map EnvironmentSpec.image
      = (request.environment <|> s.environment) := by
    cases henv : request.environment with
    | none => exact hs.environment
    | some spec =>
      have hspec := hclean.environment spec henv
      simp [EnvironmentSpec.image, coerce_of_valid hspec.name.valid,
        coerce_of_valid hspec.memory.valid, coerce_of_valid hspec.disk.valid,
        coerce_of_valid hspec.lifecycle.valid]
  -- the fields an attribution overwrites
  have hcontext : ∀ (field : LeaseContext → Bytes) {old : Bytes}, coerce old = old →
      (∀ context ∈ request.context, Ascii (field context)) →
      coerce (request.context.elim old field) = request.context.elim old field := by
    intro field old hold hfield
    cases hc : request.context with
    | none => exact hold
    | some context => exact coerce_of_valid (hfield context hc).valid
  exact { hs with
    acquireOwner := howner
    environment := henv
    clientID := hclient
    controllerFingerprint := hkey
    displayLabel := coerce_of_valid hclean.label.valid
    yard := hcontext _ hs.yard fun context h => (hclean.context context h).yard
    project := hcontext _ hs.project fun context h => (hclean.context context h).project
    checkout := hcontext _ hs.checkout fun context h => (hclean.context context h).checkout
    run := hcontext _ hs.run fun context h => (hclean.context context h).run
    purpose := coerce_of_valid hclean.purpose.valid
    leaseID := coerce_of_valid (randomToken_ascii hid).valid
    capabilityHash := coerce_of_valid (hex_ascii _).valid
    failureReason := rfl
    lastFailureEventID := rfl
    incidentID := rfl }

lemma acquisition_texts {request : AcquireRequest} {draw : Draw}
    (h : op.acquisition = some (request, draw)) :
    request.clientID ∈ op.texts ∧ request.fingerprint ∈ op.texts := by
  cases op <;> simp only [Op.acquisition, reduceCtorEq, Option.some.injEq, Prod.mk.injEq] at h <;>
    obtain ⟨rfl, -⟩ := h <;> simp [Op.texts]

lemma drains_texts {reason : Bytes} {target : Option Bytes}
    (h : op.drains = some (reason, target)) :
    boundedReason reason ∈ op.texts := by
  cases op <;> simp only [Op.drains, reduceCtorEq, Option.some.injEq, Prod.mk.injEq] at h <;>
    obtain ⟨rfl, -⟩ := h <;> simp [Op.texts]

/-- **What a call writes into a slot is stored as it is**, if its texts are. -/
lemma BodyMove.stored {store : LeaseStore} (h : BodyMove store op s s') (hs : s.Stored)
    (htexts : ∀ text ∈ (⟨store, op⟩ : Call).texts, coerce text = text) : s'.Stored := by
  have hop : ∀ text ∈ op.texts, coerce text = text := fun text htext =>
    htexts text (List.mem_append_left _ htext)
  cases h with
  | acquire hacq _ hclean _ hid _ =>
    obtain ⟨hclient, hkey⟩ := acquisition_texts hacq
    refine hs.provision hclean (hop _ hclient) (hop _ hkey) ?_ hid
    cases howner : store.acquireOwner with
    | none => rfl
    | some owner =>
      have hmem : ∀ text ∈ [owner.start, owner.boot], coerce text = text := fun text htext =>
        htexts text (List.mem_append_right _ (by simpa [hacq, howner] using htext))
      simp [AcquireOwner.image, hmem owner.start (by simp), hmem owner.boot (by simp)]
  | reserve | clearLegacy | markHeld | renew | beginDrain | recover => exact { hs with }
  | pinBase => exact { hs with baseFingerprint := hop _ (by simp [Op.texts]) }
  | handoff => exact { hs with acquireOwner := rfl }
  | quarantine | drainFailed | interrupt =>
    exact { hs with failureReason := hop _ (by simp [Op.texts]) }
  | drainFor hdrains _ _ => exact { hs with failureReason := hop _ (drains_texts hdrains) }
  | abort | finishDrain | legacyFinish => exact { hs.clearLease with }
  | setIncident _ hevent hincident _ =>
    exact { hs with
      lastFailureEventID := coerce_recordID (.inr hevent)
      incidentID := coerce_recordID (.inr hincident) }
  | recoveryFailed _ _ hevent hincident =>
    refine { hs with
      failureReason := hop _ (by simp [Op.texts])
      lastFailureEventID := ?_
      incidentID := ?_ }
    · show coerce (ite _ _ _) = ite _ _ _
      split
      · exact hs.lastFailureEventID
      · exact coerce_recordID hevent
    · show coerce (ite _ _ _) = ite _ _ _
      split
      · exact hs.incidentID
      · exact coerce_recordID hincident
  | recovered =>
    exact { hs.clearLease with
      lastFailureEventID := hs.lastFailureEventID
      incidentID := hs.incidentID }
  | retire =>
    exact { hs with
      failureReason := (by decide : coerce poolResizeReason = poolResizeReason) }
  | legacyBegin =>
    exact { hs with
      failureReason := (by decide : coerce legacyRetirementReason = legacyRetirementReason) }

lemma SlotChange.stored (h : SlotChange call s s') (hs : s.Stored)
    (htexts : ∀ text ∈ call.texts, coerce text = text) : s'.Stored := by
  cases h with
  | expired hexp => exact hexp.stored hs
  | body hexp hbody => exact hbody.stored (hexp.stored hs) htexts

/-- The pool a call decides on has texts that are stored as they are. -/
lemma PoolChange.image_eq (h : PoolChange call pool pool') (hpool : pool.Persistable)
    (hpool' : pool'.Persistable) (hstored : ∀ s ∈ pool.slots, s.Stored)
    (htexts : ∀ text ∈ call.texts, coerce text = text) : pool'.image = pool' := by
  have hslots : ∀ s ∈ pool'.slots, s.Stored := by
    intro s' hs'
    cases h with
    | ordinary _ _ hslots _ _ =>
      obtain ⟨s, hs, hchange⟩ := Pointwise.exists_left hslots hs'
      refine hchange.stored ?_ htexts
      rw [hpool.inventoried.inventory] at hs
      rcases List.mem_append.mp hs with hs | hs
      · exact hstored s hs
      · obtain ⟨number, _, rfl⟩ := List.mem_map.mp hs
        exact freshSlot_stored number
    | retired hop _ hretire =>
      obtain ⟨s, hs, hchange⟩ := Pointwise.exists_left (retire_slotChange hop hretire) hs'
      exact hchange.stored (hstored s hs) htexts
    | committed => exact hstored s' (List.mem_of_mem_take hs')
  obtain ⟨_, htype, hid⟩ := hpool'.header
  have hmap : pool'.slots.map LeaseSlot.image = pool'.slots :=
    (List.map_congr_left fun s hs => (hslots s hs).image_eq).trans (List.map_id _)
  have hheader : coerce pool'.resourceType = pool'.resourceType
      ∧ coerce pool'.resourceID = pool'.resourceID := by
    rw [htype, hid]
    decide
  rw [LeasePool.image, hmap, hheader.1, hheader.2]

/-- The lease of the second slot goes wrong and the slot is recovered. -/
def secondSlotRecovered : List Call :=
  [secondSlotAcquire 7,
    ⟨quietStore 2 1, .quarantine (secondSlotGrant 7) (str "lost")⟩,
    ⟨quietStore 2 2, .beginScheduledRecovery (slotName 2) true⟩,
    ⟨quietStore 2 3, .finishRecovery (slotName 2) none [] []⟩]

end Subyard.Lease
