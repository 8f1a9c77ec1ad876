import Subyard.Library.Dict
import Subyard.Release.RoundTrip

/-!
The graph of the transaction directories and their garbage collection.  The archive of a
superseded journal stands in the directory of the transaction that replaced it and names the
transaction it replaced, its predecessor.

* `readTransactionGraph`, `validateMissingPredecessors`, `cleanupOrder`: the functions of the
  store.
* `Sound`, `Reflects`: the directories that are accepted, and the graph that is read of them.
* `cleanup_keeps_predecessors`: **the directories to be removed are few, unrelated to protected
  ones, and wherever the removal stops, no archive is left without its predecessor**.
-/

namespace Subyard.Release

open Text Fallible

/-! ### Directories -/

/-- A directory of the recovery transactions: whether it is a directory with mode `0700`, its
archive and the pending file of the archive. -/
structure TransactionDirectory where
  name : TransactionID
  plain : Bool
  archive : Option Bytes
  prepared : Option Bytes

/-- What `os.ReadDir` lists: no name twice. -/
structure TransactionListing where
  directories : List TransactionDirectory
  nodup : (directories.map (·.name)).Nodup

/-- The listing after `os.RemoveAll` of some directories. -/
def TransactionListing.without (l : TransactionListing) (removed : List TransactionID) :
    TransactionListing where
  directories := l.directories.filter (·.name ∉ removed)
  nodup := l.nodup.sublist (List.filter_sublist.map _)

def maxTransactionGraphEntries : ℕ := 256

/-- The checks of one entry of the listing. -/
def TransactionDirectory.validate (d : TransactionDirectory) : Except Failure Unit := do
  (validateTransactionID d.name).mapError fun _ =>
    .other (str "release transition recovery directory contains an invalid transaction")
  refuse (¬ d.plain)
    (.other (str "release transition recovery transaction has an unsafe type or mode"))

/-- The archive of a directory: the published one or else the pending one, which must not differ
from a published one. -/
def TransactionDirectory.readArchive (d : TransactionDirectory) :
    Except Failure (Option SupersededJournalRecord) := do
  let snapshot ← readProtected d.archive
  let prepared ← readProtected d.prepared
  refuse (snapshot.exists' ∧ prepared.exists' ∧ snapshot.payload ≠ prepared.payload)
    (.other (str "pending superseded journal conflicts with published archive"))
  let selected := if prepared.exists' ∧ ¬ snapshot.exists' then prepared else snapshot
  if ¬ selected.exists' then
    pure none
  else do
    let archive ← parseSupersededJournal selected.payload
    refuse (marshalSupersededJournal archive ≠ .ok selected.payload)
      (.other (str "superseded journal is not canonical protected evidence"))
    pure (some archive)

/-! ### The graph -/

/-- `v2TransactionGraph`: `edges` leads from a transaction to its predecessor, `successors` back.
`retained` are the protected transactions. -/
structure TransactionGraph where
  entries : List TransactionID
  known : List TransactionID
  archives : Dict TransactionID SupersededJournalRecord
  pending : Finset TransactionID
  edges : Dict TransactionID TransactionID
  successors : Dict TransactionID TransactionID
  retained : Finset TransactionID

namespace TransactionGraph

/-- The graph before any archive is read. -/
def ofEntries (entries : List TransactionID) : TransactionGraph where
  entries := entries
  known := entries
  archives := ∅
  pending := ∅
  edges := ∅
  successors := ∅
  retained := ∅

/-- The note of a pending archive. -/
def mark (graph : TransactionGraph) (d : TransactionDirectory) : TransactionGraph :=
  if d.prepared.isSome then { graph with pending := insert d.name graph.pending } else graph

/-- The edge of an archive. -/
def link (graph : TransactionGraph) (transaction : TransactionID)
    (archive : SupersededJournalRecord) : Except Failure TransactionGraph := do
  let predecessor := archive.replacement.transaction
  refuse (predecessor ∈ graph.successors.keys)
    (.other (str "superseded journal graph has a shared predecessor"))
  pure { graph with
    known := graph.known.insert predecessor
    archives := graph.archives.insert transaction archive
    edges := graph.edges.insert transaction predecessor
    successors := graph.successors.insert predecessor transaction }

/-- The loop that reads the archives, for one directory. -/
def add (graph : TransactionGraph) (d : TransactionDirectory) : Except Failure TransactionGraph := do
  let archive ← d.readArchive
  match archive with
  | none => pure (graph.mark d)
  | some archive => (graph.mark d).link d.name archive

end TransactionGraph

/-- The state of a transaction in the search for cycles; one that is not visited has none. -/
inductive Visit
  | visiting | visited
deriving DecidableEq, Repr

/-- The search for cycles from one transaction. -/
def visit (edges : Dict TransactionID TransactionID) (states : Dict TransactionID Visit)
    (transaction : TransactionID) : Except Failure (Dict TransactionID Visit) :=
  match _hstate : states.lookup transaction with
  | some .visiting => .error (.other (str "superseded journal graph contains a cycle"))
  | some .visited => .ok states
  | none =>
      match _hedge : edges.lookup transaction with
      | some predecessor => do
          let states ← visit edges (states.insert transaction .visiting) predecessor
          pure (states.insert transaction .visited)
      | none => pure ((states.insert transaction .visiting).insert transaction .visited)
termination_by (edges.keys \ states.keys).card
decreasing_by
  refine Finset.card_lt_card ⟨fun t ht => ?_, fun h => ?_⟩
  · rw [Finset.mem_sdiff, Finmap.mem_keys, Finmap.mem_keys, Finmap.mem_insert] at ht
    rw [Finset.mem_sdiff, Finmap.mem_keys, Finmap.mem_keys]
    exact ⟨ht.1, fun h => ht.2 (.inr h)⟩
  · have hmem : transaction ∈ edges.keys \ states.keys := by
      rw [Finset.mem_sdiff]
      exact ⟨Dict.mem_keys_of_lookup _hedge, Dict.lookup_eq_none_iff.mp _hstate⟩
    have := h hmem
    rw [Finset.mem_sdiff, Finmap.mem_keys, Finmap.mem_keys, Finmap.mem_insert] at this
    exact this.2 (.inl rfl)

def readTransactionGraph : Option TransactionListing → Except Failure (Option TransactionGraph)
  | none => pure none
  | some listing => do
      refuse (listing.directories.length > maxTransactionGraphEntries)
        (.other (str "release transition recovery transaction graph is too large"))
      listing.directories.forM (·.validate)
      let graph ← listing.directories.foldlM TransactionGraph.add
        (.ofEntries (listing.directories.map (·.name)))
      let _ ← graph.known.foldlM (visit graph.edges) ∅
      refuse (∃ t ∈ graph.edges.keys, ∃ p ∈ graph.edges.lookup t, p ∈ graph.edges.keys)
        (.other (str "superseded journal graph has more than one predecessor"))
      pure (some graph)

namespace TransactionGraph

def validateMissingPredecessors (graph : TransactionGraph) : Except Failure Unit :=
  refuse (∃ t ∈ graph.edges.keys, ∃ p ∈ graph.edges.lookup t, p ∉ graph.entries)
    (.other (str "superseded journal references a missing source transaction"))

/-! ### The order of removal -/

/-- The component of a transaction, a successor before its predecessor. -/
def component (graph : TransactionGraph) (transaction : TransactionID) : List TransactionID :=
  match graph.edges.lookup transaction with
  | some predecessor =>
      if predecessor ∈ graph.entries then [transaction, predecessor] else [transaction]
  | none =>
      match graph.successors.lookup transaction with
      | some successor => [successor, transaction]
      | none => [transaction]

/-- What the loop of `cleanupOrder` carries. -/
structure Sweep where
  visited : Finset TransactionID
  deletions : List TransactionID

/-- The loop of `cleanupOrder`, for one entry. -/
def sweep (graph : TransactionGraph) (limit : ℕ) (state : Sweep) (transaction : TransactionID) :
    Sweep :=
  if transaction ∈ state.visited then state
  else
    let component := graph.component transaction
    let visited := state.visited ∪ component.toFinset
    if (∃ member ∈ component, member ∈ graph.retained)
        ∨ state.deletions.length + component.length > limit then
      { state with visited }
    else ⟨visited, state.deletions ++ component⟩

def cleanupOrder (graph : TransactionGraph) (limit : ℕ) : List TransactionID :=
  (graph.entries.foldl (graph.sweep limit) ⟨∅, []⟩).deletions

end TransactionGraph

/-! ### What is read -/

variable {graph : TransactionGraph} {ds : List TransactionDirectory} {d : TransactionDirectory}
  {l : TransactionListing} {edges : Dict TransactionID TransactionID}
  {states : Dict TransactionID Visit}

/-- The archive that is read in a directory. -/
def TransactionDirectory.record (d : TransactionDirectory) : Option SupersededJournalRecord :=
  d.readArchive.toOption.join

/-- The predecessor it names. -/
def TransactionDirectory.predecessor (d : TransactionDirectory) : Option TransactionID :=
  d.record.map (·.replacement.transaction)

/-- What is asked of the directories of a graph. -/
structure Sound (ds : List TransactionDirectory) : Prop where
  bounded : ds.length ≤ maxTransactionGraphEntries
  safe : ∀ d ∈ ds, d.validate = .ok ()
  archived : ∀ d ∈ ds, ∃ archive, d.readArchive = .ok archive
  unshared : ∀ d ∈ ds, ∀ d' ∈ ds, ∀ p, d.predecessor = some p → d'.predecessor = some p →
    d.name = d'.name
  unnested : ∀ d ∈ ds, ∀ d' ∈ ds, d.predecessor = some d'.name → d'.predecessor = none

/-- Fewer directories ask for no more. -/
lemma Sound.sublist {ds' : List TransactionDirectory} (h : Sound ds) (hsub : ds'.Sublist ds) :
    Sound ds' where
  bounded := hsub.length_le.trans h.bounded
  safe d hd := h.safe d (hsub.subset hd)
  archived d hd := h.archived d (hsub.subset hd)
  unshared d hd d' hd' := h.unshared d (hsub.subset hd) d' (hsub.subset hd')
  unnested d hd d' hd' := h.unnested d (hsub.subset hd) d' (hsub.subset hd')

/-- The maps of a graph are those of some directories. -/
structure Reflects (ds : List TransactionDirectory) (graph : TransactionGraph) : Prop where
  archives : ∀ t a, graph.archives.lookup t = some a ↔ ∃ d ∈ ds, d.name = t ∧ d.record = some a
  edges : ∀ t p, graph.edges.lookup t = some p ↔ ∃ d ∈ ds, d.name = t ∧ d.predecessor = some p
  successors : ∀ p t, graph.successors.lookup p = some t
    ↔ ∃ d ∈ ds, d.name = t ∧ d.predecessor = some p

lemma reflects_ofEntries (entries : List TransactionID) : Reflects [] (.ofEntries entries) where
  archives t a := by simp [TransactionGraph.ofEntries]
  edges t p := by simp [TransactionGraph.ofEntries]
  successors p t := by simp [TransactionGraph.ofEntries]

/-- A note of a pending archive keeps the maps. -/
lemma Reflects.mark (h : Reflects ds graph) (d : TransactionDirectory) :
    Reflects ds (graph.mark d) := by
  rw [TransactionGraph.mark]
  split
  · exact ⟨h.archives, h.edges, h.successors⟩
  · exact h

/-- The predecessors that have a successor are those the directories name. -/
lemma Reflects.mem_successors (h : Reflects ds graph) {p : TransactionID} :
    p ∈ graph.successors.keys ↔ ∃ d ∈ ds, d.predecessor = some p := by
  constructor
  · intro hp
    obtain ⟨t, ht⟩ := Dict.exists_lookup hp
    obtain ⟨d, hd, _, hp⟩ := (h.successors p t).mp ht
    exact ⟨d, hd, hp⟩
  · rintro ⟨d, hd, hp⟩
    exact Dict.mem_keys_of_lookup ((h.successors p d.name).mpr ⟨d, hd, rfl, hp⟩)

/-- A directory without an archive adds nothing to the maps. -/
lemma Reflects.skip (h : Reflects ds graph) (hrecord : d.record = none) :
    Reflects (ds ++ [d]) graph := by
  have hpredecessor : d.predecessor = none := by rw [TransactionDirectory.predecessor, hrecord]; rfl
  refine ⟨fun t a => ?_, fun t p => ?_, fun p t => ?_⟩
  · simp [h.archives, or_and_right, exists_or, hrecord]
  · simp [h.edges, or_and_right, exists_or, hpredecessor]
  · simp [h.successors, or_and_right, exists_or, hpredecessor]

/-- A map with one more binding under a new key. -/
lemma lookup_insert_iff {K V : Type} [DecidableEq K] {m : Dict K V} {k : K} {v : V}
    (hnew : k ∉ m.keys) (k' : K) (v' : V) :
    (m.insert k v).lookup k' = some v' ↔ m.lookup k' = some v' ∨ k = k' ∧ v = v' := by
  by_cases hk : k = k'
  · subst hk
    rw [Finmap.lookup_insert, Dict.lookup_eq_none_iff.mpr hnew]
    simp
  · rw [Finmap.lookup_insert_of_ne _ (Ne.symm hk)]
    simp [hk]

/-- A directory with an archive adds its edge. -/
lemma Reflects.link {graph' : TransactionGraph} {archive : SupersededJournalRecord}
    (h : Reflects ds graph) (hnew : d.name ∉ ds.map (·.name)) (hrecord : d.record = some archive)
    (hlink : graph.link d.name archive = .ok graph') : Reflects (ds ++ [d]) graph' := by
  have hpredecessor : d.predecessor = some archive.replacement.transaction := by
    rw [TransactionDirectory.predecessor, hrecord]
    rfl
  obtain ⟨hfree, hlink⟩ := refuse_bind.mp hlink
  cases hlink
  have hother : ∀ d' ∈ ds, d'.name ≠ d.name := fun d' hd' heq =>
    hnew (List.mem_map.mpr ⟨d', hd', heq⟩)
  have harchive : d.name ∉ graph.archives.keys := fun hmem => by
    obtain ⟨a, ha⟩ := Dict.exists_lookup hmem
    obtain ⟨d', hd', hname, _⟩ := (h.archives _ a).mp ha
    exact hother d' hd' hname
  have hedge : d.name ∉ graph.edges.keys := fun hmem => by
    obtain ⟨p, hp⟩ := Dict.exists_lookup hmem
    obtain ⟨d', hd', hname, _⟩ := (h.edges _ p).mp hp
    exact hother d' hd' hname
  refine ⟨fun t a => ?_, fun t p => ?_, fun p t => ?_⟩
  · simp [lookup_insert_iff harchive, h.archives, or_and_right, exists_or, hrecord]
  · simp [lookup_insert_iff hedge, h.edges, or_and_right, exists_or, hpredecessor]
  · simp [lookup_insert_iff hfree, h.successors, or_and_right, exists_or, hpredecessor, and_comm]

/-- What one directory adds. -/
lemma Reflects.add {graph' : TransactionGraph} (h : Reflects ds graph)
    (hnew : d.name ∉ ds.map (·.name)) (hadd : graph.add d = .ok graph') :
    Reflects (ds ++ [d]) graph' ∧ (∃ archive, d.readArchive = .ok archive)
      ∧ graph'.entries = graph.entries := by
  obtain ⟨archive, hread, hadd⟩ := of_bind_ok hadd
  have hrecord : d.record = archive := by
    rw [TransactionDirectory.record, hread]
    cases archive <;> rfl
  have hentries : (graph.mark d).entries = graph.entries := by
    rw [TransactionGraph.mark]
    split <;> rfl
  cases archive with
  | none =>
    cases hadd
    exact ⟨(h.mark d).skip hrecord, ⟨_, hread⟩, hentries⟩
  | some archive =>
    refine ⟨(h.mark d).link hnew hrecord hadd, ⟨_, hread⟩, ?_⟩
    obtain ⟨_, hadd⟩ := refuse_bind.mp hadd
    cases hadd
    exact hentries

/-- A directory whose archive can be read and shares no predecessor is added. -/
lemma Reflects.exists_add (h : Reflects ds graph) (hread : ∃ archive, d.readArchive = .ok archive)
    (hfree : ∀ d' ∈ ds, ∀ p, d.predecessor = some p → d'.predecessor ≠ some p) :
    ∃ graph', graph.add d = .ok graph' := by
  obtain ⟨archive, hread⟩ := hread
  rw [TransactionGraph.add, hread]
  cases archive with
  | none => exact ⟨_, rfl⟩
  | some archive =>
    have hpredecessor : d.predecessor = some archive.replacement.transaction := by
      rw [TransactionDirectory.predecessor, TransactionDirectory.record, hread]
      rfl
    refine ⟨_, refuse_bind.mpr ⟨fun hmem => ?_, rfl⟩⟩
    obtain ⟨d', hd', hp⟩ := (h.mark d).mem_successors.mp hmem
    exact hfree d' hd' _ hpredecessor hp

/-- What the loop over the directories reads. -/
lemma Reflects.foldlM {rest : List TransactionDirectory} : ∀ {ds : List TransactionDirectory}
    {graph graph' : TransactionGraph}, Reflects ds graph → ((ds ++ rest).map (·.name)).Nodup →
    rest.foldlM TransactionGraph.add graph = .ok graph' →
    Reflects (ds ++ rest) graph' ∧ (∀ d ∈ rest, ∃ archive, d.readArchive = .ok archive)
      ∧ graph'.entries = graph.entries := by
  induction rest with
  | nil =>
    intro ds graph graph' h _ hfold
    cases hfold
    rw [List.append_nil]
    exact ⟨h, nofun, rfl⟩
  | cons d rest ih =>
    intro ds graph graph' h hnodup hfold
    obtain ⟨next, hadd, hfold⟩ := of_bind_ok hfold
    have hnew : d.name ∉ ds.map (·.name) := by
      rw [List.map_append, List.nodup_append'] at hnodup
      exact fun hmem => hnodup.2.2 hmem (List.mem_cons_self)
    obtain ⟨hnext, hread, hentries⟩ := h.add hnew hadd
    rw [List.append_cons] at hnodup ⊢
    obtain ⟨hlast, hreads, hsame⟩ := ih hnext hnodup hfold
    refine ⟨hlast, fun d' hd' => ?_, hsame.trans hentries⟩
    rcases List.mem_cons.mp hd' with rfl | hd'
    · exact hread
    · exact hreads d' hd'

/-- Archives that can be read and share no predecessor are all added. -/
lemma Reflects.exists_foldlM {rest : List TransactionDirectory} : ∀ {ds : List TransactionDirectory}
    {graph : TransactionGraph}, Reflects ds graph → ((ds ++ rest).map (·.name)).Nodup →
    Sound (ds ++ rest) → ∃ graph', rest.foldlM TransactionGraph.add graph = .ok graph' := by
  induction rest with
  | nil => exact fun _ _ _ => ⟨_, rfl⟩
  | cons d rest ih =>
    intro ds graph h hnodup hsound
    have hnew : d.name ∉ ds.map (·.name) := by
      rw [List.map_append, List.nodup_append'] at hnodup
      exact fun hmem => hnodup.2.2 hmem (List.mem_cons_self)
    have hd : d ∈ ds ++ d :: rest := List.mem_append_right _ List.mem_cons_self
    obtain ⟨next, hadd⟩ := h.exists_add (hsound.archived d hd) fun d' hd' p hp hp' =>
      hnew (List.mem_map.mpr
        ⟨d', hd', hsound.unshared d' (List.mem_append_left _ hd') d hd p hp' hp⟩)
    rw [List.append_cons] at hnodup hsound
    obtain ⟨last, hfold⟩ := ih (h.add hnew hadd).1 hnodup hsound
    exact ⟨last, by rw [List.foldlM_cons, hadd]; exact hfold⟩

/-! ### What is accepted -/

/-- No predecessor has a predecessor. -/
def Unnested (edges : Dict TransactionID TransactionID) : Prop :=
  ∀ t p, edges.lookup t = some p → edges.lookup p = none

/-- The search for cycles has no open call. -/
def Closed (states : Dict TransactionID Visit) : Prop :=
  ∀ t, states.lookup t ≠ some .visiting

lemma Closed.insert {t : TransactionID} (h : ∀ t' ≠ t, states.lookup t' ≠ some .visiting) :
    Closed (states.insert t .visited) := by
  intro t'
  by_cases ht : t' = t
  · rw [ht, Finmap.lookup_insert]
    exact nofun
  · rw [Finmap.lookup_insert_of_ne _ ht]
    exact h t' ht

/-- A transaction without predecessor is visited at once. -/
lemma visit_last {t : TransactionID} (hedge : edges.lookup t = none)
    (hopen : states.lookup t ≠ some .visiting) : ∃ states', visit edges states t = .ok states'
      ∧ ∀ t', states'.lookup t' = some .visiting → states.lookup t' = some .visiting := by
  rw [visit]
  split
  next h => exact absurd h hopen
  next h => exact ⟨_, rfl, fun _ => id⟩
  next h =>
    split
    next p hp => rw [hedge] at hp; cases hp
    next hp =>
      refine ⟨_, rfl, fun t' ht' => ?_⟩
      by_cases heq : t' = t
      · rw [heq, Finmap.lookup_insert] at ht'
        cases ht'
      · rwa [Finmap.lookup_insert_of_ne _ heq, Finmap.lookup_insert_of_ne _ heq] at ht'

/-- There is no cycle where no predecessor has a predecessor. -/
lemma visit_unnested (h : Unnested edges) (hclosed : Closed states) (t : TransactionID) :
    ∃ states', visit edges states t = .ok states' ∧ Closed states' := by
  rw [visit]
  split
  next hstate => exact absurd hstate (hclosed t)
  next hstate => exact ⟨_, rfl, hclosed⟩
  next hstate =>
    split
    next p hp =>
      have hne : p ≠ t := fun heq => by
        have := h t p hp
        rw [heq, hp] at this
        cases this
      have hopen : (states.insert t .visiting).lookup p ≠ some .visiting := by
        rw [Finmap.lookup_insert_of_ne _ hne]
        exact hclosed p
      obtain ⟨states', hvisit, hkeep⟩ := visit_last (h t p hp) hopen
      refine ⟨_, by rw [hvisit]; rfl, Closed.insert fun t' ht' hopen => ?_⟩
      have := hkeep t' hopen
      rw [Finmap.lookup_insert_of_ne _ ht'] at this
      exact hclosed t' this
    next hp =>
      refine ⟨_, rfl, Closed.insert fun t' ht' => ?_⟩
      rw [Finmap.lookup_insert_of_ne _ ht']
      exact hclosed t'

lemma visit_all (h : Unnested edges) :
    ∀ (known : List TransactionID) {states : Dict TransactionID Visit}, Closed states →
      ∃ states', known.foldlM (visit edges) states = .ok states'
  | [], states, _ => ⟨states, rfl⟩
  | t :: known, states, hclosed => by
    obtain ⟨next, hvisit, hnext⟩ := visit_unnested h hclosed t
    obtain ⟨last, hlast⟩ := visit_all h known hnext
    exact ⟨last, by rw [List.foldlM_cons, hvisit]; exact hlast⟩

/-- A guard over the edges that is passed. -/
lemma edges_guard {P : TransactionID → Prop} :
    (¬ ∃ t ∈ edges.keys, ∃ p ∈ edges.lookup t, P p) ↔ ∀ t p, edges.lookup t = some p → ¬ P p := by
  constructor
  · intro h t p hp hP
    exact h ⟨t, Dict.mem_keys_of_lookup hp, p, hp, hP⟩
  · rintro h ⟨t, _, p, hp, hP⟩
    exact h t p hp hP

/-- **The directories that are accepted, and the graph read of them.** -/
lemma readTransactionGraph_ok (h : readTransactionGraph (some l) = .ok (some graph)) :
    Sound l.directories ∧ Reflects l.directories graph
      ∧ graph.entries = l.directories.map (·.name) := by
  obtain ⟨hbound, h⟩ := refuse_bind.mp h
  obtain ⟨hsafe, h⟩ := check_bind.mp h
  obtain ⟨graph', hfold, h⟩ := of_bind_ok h
  obtain ⟨_, _, h⟩ := of_bind_ok h
  obtain ⟨hnested, h⟩ := refuse_bind.mp h
  cases h
  have hreflects := reflects_ofEntries (l.directories.map (·.name))
  obtain ⟨hreflects, hreads, hentries⟩ := hreflects.foldlM (by exact l.nodup) hfold
  rw [List.nil_append] at hreflects
  refine ⟨⟨not_lt.mp hbound, forM_eq_ok.mp hsafe, hreads, fun d hd d' hd' p hp hp' => ?_,
    fun d hd d' hd' hp => ?_⟩, hreflects, hentries⟩
  · have hs := (hreflects.successors p d.name).mpr ⟨d, hd, rfl, hp⟩
    have hs' := (hreflects.successors p d'.name).mpr ⟨d', hd', rfl, hp'⟩
    exact Option.some.inj (hs.symm.trans hs')
  · have hedge := (hreflects.edges d.name d'.name).mpr ⟨d, hd, rfl, hp⟩
    cases hp' : d'.predecessor with
    | none => rfl
    | some p =>
      have hedge' := (hreflects.edges d'.name p).mpr ⟨d', hd', rfl, hp'⟩
      exact absurd (Dict.mem_keys_of_lookup hedge') (edges_guard.mp hnested _ _ hedge)

/-- The edges of sound directories are not nested. -/
lemma Reflects.unnested (h : Reflects l.directories graph) (hsound : Sound l.directories) :
    Unnested graph.edges := by
  intro t p hp
  obtain ⟨d, hd, _, hdp⟩ := (h.edges t p).mp hp
  cases hp' : graph.edges.lookup p with
  | none => rfl
  | some q =>
    obtain ⟨d', hd', rfl, hq⟩ := (h.edges p q).mp hp'
    rw [hsound.unnested d hd d' hd' hdp] at hq
    cases hq

/-- Sound directories are accepted. -/
lemma Sound.readTransactionGraph (h : Sound l.directories) :
    ∃ graph, readTransactionGraph (some l) = .ok (some graph) := by
  have hreflects := reflects_ofEntries (l.directories.map (·.name))
  obtain ⟨graph, hfold⟩ := hreflects.exists_foldlM (by exact l.nodup) (by exact h)
  have hunnested := (hreflects.foldlM (by exact l.nodup) hfold).1.unnested h
  obtain ⟨states, hvisit⟩ := visit_all hunnested graph.known (show Closed ∅ from fun t => nofun)
  refine ⟨graph, refuse_bind.mpr ⟨not_lt.mpr h.bounded,
    check_bind.mpr ⟨forM_eq_ok.mpr h.safe, ?_⟩⟩⟩
  rw [hfold]
  show (graph.known.foldlM (visit graph.edges) ∅ >>= _) = _
  rw [hvisit]
  refine refuse_bind.mpr ⟨edges_guard.mpr fun t p hp hmem => ?_, rfl⟩
  exact Dict.lookup_eq_none_iff.mp (hunnested t p hp) hmem

/-! ### What is removed -/

namespace TransactionGraph

/-- A graph of chains of at most two directories, both present. -/
structure Paired (graph : TransactionGraph) : Prop where
  successors : ∀ p t, graph.successors.lookup p = some t ↔ graph.edges.lookup t = some p
  unnested : Unnested graph.edges
  present : ∀ t p, graph.edges.lookup t = some p → p ∈ graph.entries

variable {graph : TransactionGraph} {s t p : TransactionID}

namespace Paired

/-- A successor shares its component with its predecessor. -/
lemma component_successor (h : graph.Paired) (hedge : graph.edges.lookup t = some p) :
    graph.component t = [t, p] := by
  rw [component, hedge]
  exact if_pos (h.present t p hedge)

lemma component_predecessor (h : graph.Paired) (hedge : graph.edges.lookup t = some p) :
    graph.component p = [t, p] := by
  rw [component, h.unnested t p hedge, (h.successors p t).mpr hedge]

/-- A transaction is a successor, a predecessor or alone. -/
lemma component_cases (h : graph.Paired) (t : TransactionID) :
    (∃ p, graph.edges.lookup t = some p ∧ graph.component t = [t, p])
      ∨ (∃ s, graph.edges.lookup s = some t ∧ graph.component t = [s, t])
      ∨ (∀ s, graph.edges.lookup s ≠ some t) ∧ graph.component t = [t] := by
  cases hedge : graph.edges.lookup t with
  | some p => exact .inl ⟨p, rfl, h.component_successor hedge⟩
  | none =>
    cases hback : graph.successors.lookup t with
    | some s =>
      have hs := (h.successors t s).mp hback
      exact .inr (.inl ⟨s, hs, h.component_predecessor hs⟩)
    | none =>
      refine .inr (.inr ⟨fun s hs => ?_, by rw [component, hedge, hback]⟩)
      rw [(h.successors t s).mpr hs] at hback
      cases hback

lemma self_mem_component (h : graph.Paired) (t : TransactionID) : t ∈ graph.component t := by
  rcases h.component_cases t with ⟨p, _, hc⟩ | ⟨s, _, hc⟩ | ⟨_, hc⟩ <;> simp [hc]

/-- The members of a component have it as theirs. -/
lemma component_eq (h : graph.Paired) (hmem : s ∈ graph.component t) :
    graph.component s = graph.component t := by
  rcases h.component_cases t with ⟨p, hp, hc⟩ | ⟨q, hq, hc⟩ | ⟨_, hc⟩
  all_goals rw [hc, List.mem_cons] at hmem
  · rcases hmem with rfl | hmem
    · rfl
    · rw [List.mem_singleton.mp hmem, hc, h.component_predecessor hp]
  · rcases hmem with rfl | hmem
    · rw [hc, h.component_successor hq]
    · rw [List.mem_singleton.mp hmem]
  · rcases hmem with rfl | hmem
    · rfl
    · cases hmem

lemma ne_predecessor (h : graph.Paired) (hedge : graph.edges.lookup t = some p) : t ≠ p := by
  rintro rfl
  have := h.unnested t t hedge
  rw [hedge] at this
  cases this

lemma component_nodup (h : graph.Paired) (t : TransactionID) : (graph.component t).Nodup := by
  rcases h.component_cases t with ⟨p, hp, hc⟩ | ⟨s, hs, hc⟩ | ⟨_, hc⟩
  · simpa [hc] using h.ne_predecessor hp
  · simpa [hc] using h.ne_predecessor hs
  · simp [hc]

/-- A component lists the successor of each of its members before it. -/
lemma component_take (h : graph.Paired) {k : ℕ} (hmem : p ∈ (graph.component t).take k)
    (hedge : graph.edges.lookup s = some p) : s ∈ (graph.component t).take k := by
  have hc := h.component_eq (List.mem_of_mem_take hmem)
  rw [h.component_predecessor hedge] at hc
  rw [← hc] at hmem ⊢
  match k with
  | 0 => cases hmem
  | 1 => exact absurd (List.mem_singleton.mp hmem).symm (h.ne_predecessor hedge)
  | k + 2 => exact List.mem_cons_self

end Paired

/-- What the loop of `cleanupOrder` keeps. -/
structure Swept (graph : TransactionGraph) (limit : ℕ) (state : Sweep) : Prop where
  length_le : state.deletions.length ≤ limit
  nodup : state.deletions.Nodup
  visited : ∀ t ∈ state.deletions, t ∈ state.visited
  closed : ∀ t ∈ state.visited, ∀ s ∈ graph.component t, s ∈ state.visited
  unretained : ∀ t ∈ state.deletions, ∀ s ∈ graph.component t, s ∉ graph.retained
  ordered : ∀ k p, p ∈ state.deletions.take k → ∀ s, graph.edges.lookup s = some p →
    s ∈ state.deletions.take k

lemma swept_nil (graph : TransactionGraph) (limit : ℕ) : Swept graph limit ⟨∅, []⟩ where
  length_le := Nat.zero_le _
  nodup := List.nodup_nil
  visited := nofun
  closed := nofun
  unretained := nofun
  ordered k p hp := by simp at hp

/-- The closure of what is visited under components. -/
lemma Swept.closed_union {limit : ℕ} {state : Sweep} (hpaired : graph.Paired)
    (h : Swept graph limit state) (t : TransactionID) :
    ∀ t' ∈ state.visited ∪ (graph.component t).toFinset, ∀ s ∈ graph.component t',
      s ∈ state.visited ∪ (graph.component t).toFinset := by
  intro t' ht' s hs
  rw [Finset.mem_union, List.mem_toFinset] at ht' ⊢
  rcases ht' with ht' | ht'
  · exact .inl (h.closed t' ht' s hs)
  · rw [hpaired.component_eq ht'] at hs
    exact .inr hs

/-- One entry keeps it. -/
lemma Swept.step {limit : ℕ} {state : Sweep} (hpaired : graph.Paired)
    (h : Swept graph limit state) (t : TransactionID) :
    Swept graph limit (graph.sweep limit state t) := by
  rw [sweep]
  split
  next => exact h
  next hseen =>
    dsimp only
    split
    next =>
      exact { h with
        visited := fun t' ht' => Finset.mem_union_left _ (h.visited t' ht')
        closed := h.closed_union hpaired t }
    next hkeep =>
      rw [not_or, not_lt] at hkeep
      -- an entry that is not visited has no visited entry in its component
      have hfresh : ∀ s ∈ graph.component t, s ∉ state.deletions := fun s hs hdel =>
        hseen (h.closed s (h.visited s hdel) t (by
          rw [hpaired.component_eq hs]
          exact hpaired.self_mem_component t))
      refine ⟨?_, ?_, ?_, h.closed_union hpaired t, ?_, ?_⟩
      · rw [List.length_append]
        exact hkeep.2
      · exact h.nodup.append (hpaired.component_nodup t) fun s hdel hs => hfresh s hs hdel
      · intro s hs
        rw [Finset.mem_union, List.mem_toFinset]
        exact (List.mem_append.mp hs).imp_left (h.visited s)
      · intro s hs s' hs'
        rcases List.mem_append.mp hs with hs | hs
        · exact h.unretained s hs s' hs'
        · rw [hpaired.component_eq hs] at hs'
          exact fun hmem => hkeep.1 ⟨s', hs', hmem⟩
      · intro k p hp s hedge
        rw [List.take_append, List.mem_append] at hp ⊢
        exact hp.imp (fun hp => h.ordered k p hp s hedge)
          fun hp => hpaired.component_take hp hedge

/-- The whole loop keeps it. -/
lemma swept_cleanupOrder (hpaired : graph.Paired) (limit : ℕ) :
    Swept graph limit (graph.entries.foldl (graph.sweep limit) ⟨∅, []⟩) :=
  List.foldlRecOn graph.entries _ (swept_nil graph limit) fun _ h t _ => h.step hpaired t

end TransactionGraph

/-- An accepted graph without missing predecessors is one of chains of at most two directories,
whatever is protected in it. -/
lemma paired_of_read {l : TransactionListing} {graph : TransactionGraph}
    (h : readTransactionGraph (some l) = .ok (some graph))
    (hpresent : graph.validateMissingPredecessors = .ok ()) (retained : Finset TransactionID) :
    ({ graph with retained } : TransactionGraph).Paired := by
  obtain ⟨hsound, hreflects, _⟩ := readTransactionGraph_ok h
  rw [TransactionGraph.validateMissingPredecessors, refuse_eq_ok, edges_guard] at hpresent
  refine ⟨fun p t => ?_, hreflects.unnested hsound, fun t p hp => not_not.mp (hpresent t p hp)⟩
  exact (hreflects.successors p t).trans (hreflects.edges t p).symm

/-- What is read after some directories are removed. -/
lemma read_without {l : TransactionListing} {graph : TransactionGraph}
    (h : readTransactionGraph (some l) = .ok (some graph)) (removed : List TransactionID) :
    ∃ graph', readTransactionGraph (some (l.without removed)) = .ok (some graph')
      ∧ graph'.entries = graph.entries.filter (· ∉ removed)
      ∧ ∀ t p, graph'.edges.lookup t = some p ↔ graph.edges.lookup t = some p ∧ t ∉ removed := by
  obtain ⟨hsound, hreflects, hentries⟩ := readTransactionGraph_ok h
  obtain ⟨graph', h'⟩ := Sound.readTransactionGraph (l := l.without removed)
    (hsound.sublist List.filter_sublist)
  obtain ⟨_, hreflects', hentries'⟩ := readTransactionGraph_ok h'
  refine ⟨graph', h', ?_, fun t p => ?_⟩
  · rw [hentries', hentries, List.filter_map]
    rfl
  · rw [hreflects'.edges, hreflects.edges]
    simp only [TransactionListing.without, List.mem_filter, decide_eq_true_eq]
    grind

/-- **Garbage collection never orphans an archive.**  For an accepted graph without missing
predecessors, whatever is protected and whatever the limit, the directories to be removed are at
most as many as the limit, distinct, none of them protected or next to a protected one; and after
the removal of any first part of them what is left is accepted, with every predecessor present. -/
theorem cleanup_keeps_predecessors {l : TransactionListing} {graph : TransactionGraph}
    (h : readTransactionGraph (some l) = .ok (some graph))
    (hpresent : graph.validateMissingPredecessors = .ok ()) (retained : Finset TransactionID)
    (limit : ℕ) :
    let order := ({ graph with retained } : TransactionGraph).cleanupOrder limit
    order.length ≤ limit ∧ order.Nodup
      ∧ (∀ t ∈ order, t ∉ retained ∧ (∀ p, graph.edges.lookup t = some p → p ∉ retained)
        ∧ ∀ s, graph.successors.lookup t = some s → s ∉ retained)
      ∧ ∀ k, ∃ graph', readTransactionGraph (some (l.without (order.take k))) = .ok (some graph')
        ∧ graph'.validateMissingPredecessors = .ok ()
        ∧ graph'.entries = graph.entries.filter (· ∉ order.take k)
        ∧ ∀ t p, graph'.edges.lookup t = some p
          ↔ graph.edges.lookup t = some p ∧ t ∉ order.take k := by
  intro order
  have hpaired := paired_of_read h hpresent retained
  have hswept := TransactionGraph.swept_cleanupOrder hpaired limit
  refine ⟨hswept.length_le, hswept.nodup, fun t ht => ⟨?_, fun p hp => ?_, fun s hs => ?_⟩,
    fun k => ?_⟩
  · exact hswept.unretained t ht t (hpaired.self_mem_component t)
  · refine hswept.unretained t ht p ?_
    rw [hpaired.component_successor hp]
    simp
  · refine hswept.unretained t ht s ?_
    rw [hpaired.component_predecessor ((hpaired.successors t s).mp hs)]
    simp
  · obtain ⟨graph', h', hentries, hedges⟩ := read_without h (order.take k)
    refine ⟨graph', h', ?_, hentries, hedges⟩
    rw [TransactionGraph.validateMissingPredecessors, refuse_eq_ok, edges_guard]
    intro t p hp hmissing
    obtain ⟨hp, ht⟩ := (hedges t p).mp hp
    refine hmissing ?_
    rw [hentries, List.mem_filter, decide_eq_true_eq]
    exact ⟨hpaired.present t p hp, fun hmem => ht (hswept.ordered k p hmem t hp)⟩

/-! ### A replaced transaction -/

/-- The archive that was published in a directory is read there. -/
lemma readArchive_published {record : SupersededJournalRecord} {payload : Bytes}
    (name : TransactionID) (hmarshal : marshalSupersededJournal record = .ok payload)
    (hpaths : record.journal.Utf8) (hversion : record.replacement.sourceVersion.length ≤ 2 ^ 18) :
    TransactionDirectory.readArchive ⟨name, true, some payload, none⟩ = .ok (some record) := by
  have hparse := parse_marshal_superseded hmarshal hpaths hversion
  obtain ⟨hvalid, htext⟩ := marshalSupersededJournal_ok.mp hmarshal
  have hsize : ¬ (payload = [] ∨ payload.length > maxProtectedRecordBytes) := by
    have hlength := length_archive hvalid hversion
    have hbound : 883542 ≤ maxProtectedRecordBytes := by decide
    rw [htext, List.length_append, List.length_singleton]
    simp only [List.append_eq_nil_iff, List.cons_ne_self, and_false, false_or]
    omega
  have hread : readProtected (some payload) = .ok ⟨true, payload, fingerprintPayload payload⟩ :=
    refuse_bind.mpr ⟨hsize, rfl⟩
  have habsent : readProtected none = .ok absentProtectedSnapshot := rfl
  simp [TransactionDirectory.readArchive, hread, habsent, absentProtectedSnapshot, refuse,
    hparse, hmarshal, bind, Except.bind, pure, Except.pure]

/-- A transaction `u` that may have replaced the transaction `t`. -/
def replacedListing (payload : Bytes) : TransactionListing where
  directories := [⟨str "t", true, none, none⟩, ⟨str "u", true, some payload, none⟩]
  nodup := show [str "t", str "u"].Nodup by decide

/-- A pair of directories that are not protected is removed. -/
lemma TransactionGraph.cleanupOrder_pair {graph : TransactionGraph} {t p : TransactionID}
    (hentries : graph.entries = [p, t]) (hcomponent : graph.component p = [t, p])
    (hfree : ¬ ∃ member ∈ [t, p], member ∈ graph.retained) : graph.cleanupOrder 2 = [t, p] := by
  have hfirst : graph.sweep 2 ⟨∅, []⟩ p = ⟨[t, p].toFinset, [t, p]⟩ := by
    rw [sweep, hcomponent, if_neg (Finset.notMem_empty p)]
    exact if_neg (not_or.mpr ⟨hfree, Nat.lt_irrefl 2⟩)
  have hsecond : graph.sweep 2 ⟨[t, p].toFinset, [t, p]⟩ t = ⟨[t, p].toFinset, [t, p]⟩ :=
    if_pos (List.mem_toFinset.mpr List.mem_cons_self)
  rw [cleanupOrder, hentries, List.foldl_cons, hfirst, List.foldl_cons, hsecond]
  rfl

lemma predecessor_bare (name : TransactionID) :
    TransactionDirectory.predecessor ⟨name, true, none, none⟩ = none := rfl

lemma predecessor_published {record : SupersededJournalRecord} {d : TransactionDirectory}
    (hread : d.readArchive = .ok (some record)) :
    d.predecessor = some record.replacement.transaction := by
  rw [TransactionDirectory.predecessor, TransactionDirectory.record, hread]
  rfl

lemma replacedListing_sound {record : SupersededJournalRecord} {payload : Bytes}
    (hread : TransactionDirectory.readArchive ⟨str "u", true, some payload, none⟩
      = .ok (some record)) (hreplaces : record.replacement.transaction = str "t") :
    Sound (replacedListing payload).directories := by
  have hpredecessor := predecessor_published hread
  rw [hreplaces] at hpredecessor
  have hne : some (str "t") ≠ some (str "u") := by decide
  refine ⟨Nat.le_of_ble_eq_true rfl, ?_, ?_, ?_, ?_⟩
  all_goals simp only [replacedListing, List.forall_mem_cons, List.not_mem_nil, false_implies,
    implies_true, and_true, predecessor_bare, hpredecessor, reduceCtorEq, hne, and_self]
  · exact ⟨rfl, rfl⟩
  · exact ⟨⟨none, rfl⟩, _, hread⟩

/-- Its archive is removed before the directory it names. -/
theorem replaced_removed_first : ∃ payload graph,
    readTransactionGraph (some (replacedListing payload)) = .ok (some graph)
      ∧ graph.validateMissingPredecessors = .ok ()
      ∧ ({ graph with retained := {str "v"} } : TransactionGraph).cleanupOrder 2
        = [str "u", str "t"]
      ∧ ∃ graph', readTransactionGraph (some ((replacedListing payload).without [str "u"]))
          = .ok (some graph') ∧ graph'.validateMissingPredecessors = .ok () := by
  have hmarshal := marshalSupersededJournal_ok.mpr
    ⟨ingressArchive_valid (show validRolePath (str "/s") by decide)
      (show JournalV2.validCanonicalSemver (str "0.11.1") by decide), rfl⟩
  have hread := readArchive_published (str "u") hmarshal (ingressJournal_utf8 (by decide))
    (Nat.le_of_ble_eq_true rfl)
  have hpredecessor := predecessor_published hread
  obtain ⟨graph, h⟩ := (replacedListing_sound hread rfl).readTransactionGraph
  obtain ⟨_, hreflects, hentries⟩ := readTransactionGraph_ok h
  have hentries : graph.entries = [str "t", str "u"] := hentries
  have hedges : ∀ t p, graph.edges.lookup t = some p ↔ t = str "u" ∧ p = str "t" := by
    intro t p
    rw [hreflects.edges]
    simp only [replacedListing, List.exists_mem_cons_iff, List.not_mem_nil, false_and, exists_false,
      or_false, hpredecessor, predecessor_bare, reduceCtorEq, and_false, false_or,
      Option.some_inj]
    exact and_congr eq_comm eq_comm
  have hpresent : graph.validateMissingPredecessors = .ok () := by
    rw [TransactionGraph.validateMissingPredecessors, refuse_eq_ok, edges_guard]
    intro t p hp
    rw [((hedges t p).mp hp).2, hentries, not_not]
    exact List.mem_cons_self
  have hpaired := paired_of_read h hpresent {str "v"}
  have horder : ({ graph with retained := {str "v"} } : TransactionGraph).cleanupOrder 2
      = [str "u", str "t"] := by
    have hcomponent := hpaired.component_predecessor ((hedges _ _).mpr ⟨rfl, rfl⟩)
    have hfree : ¬ ∃ member ∈ [str "u", str "t"], member ∈ ({str "v"} : Finset TransactionID) := by
      decide
    exact TransactionGraph.cleanupOrder_pair hentries hcomponent hfree
  refine ⟨_, graph, h, hpresent, horder, ?_⟩
  obtain ⟨graph', h', hpresent', _⟩ := (cleanup_keeps_predecessors h hpresent {str "v"} 2).2.2.2 1
  rw [horder] at h'
  exact ⟨graph', h', hpresent'⟩

end Subyard.Release
