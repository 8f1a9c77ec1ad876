import Subyard.Library.Pointwise
import Subyard.Telemetry.Summary

/-!
The report on a run: its measured objects, each charged once.

* `showRun`: objects with their association edges in the run, the disposition of each, and the
  summary of its samples.
* `coverWalk`: the search for an inclusive ancestor whose edges contain an edge; `coverWalk_ok`
  says what it finds.
* `nested_charged_once`: **a selected object does not overlap an inclusive ancestor**, if its edges
  that overlap one lie inside an edge of one.
* `partial_overlap_charged_twice`: an edge that an ancestor overlaps in part is charged twice.

The sessions, child runs, processes, gaps and totals of the report are left out, and the runs it is
about are given.
-/

namespace Subyard.Telemetry

open Text Fallible

/-! ### Rows -/

/-- What a decoder makes of a stored body. -/
def bodyOf (o : Json.Object) : Body := Dict.build (fun _ v => Value.ofJson v) o ∅

/-- An object with its edges. -/
structure Measured where
  id : Bytes
  parent : Bytes
  accounting : Bytes
  body : Body
  edges : List Body

/-- The edge of an association: its body under its columns. -/
def edgeOf (row : AssociationRow) : Body :=
  ((((((bodyOf row.body).insert (str "start_time") (.string row.startTime)).insert (str "end_time")
    (.string row.endTime)).insert (str "shared") (.bool row.shared)).insert (str "quality")
    (.string row.quality)).insert (str "agent_run_id") (.string row.agentRunID))

def associationLimit : ℕ := 10000

/-- The associations of the runs with their objects, by object, start and run. -/
def joinRows (t : Tables) (runs : List Bytes) : List (ObjectRow × AssociationRow) :=
  (t.associations.sorted.filterMap fun (_, row) =>
    if row.agentRunID ∈ runs then (t.objects.lookup row.objectID).map (·, row) else none)
  |>.insertionSort fun x y =>
    [x.2.objectID, x.2.startTime, x.2.agentRunID] ≤ [y.2.objectID, y.2.startTime, y.2.agentRunID]

/-- A row makes a new object or adds an edge to a known one. -/
def addRow (objects : List Measured) (row : ObjectRow × AssociationRow) : List Measured :=
  let id := row.2.objectID
  let edge := edgeOf row.2
  if objects.any (·.id = id) then
    objects.map fun o => if o.id = id then { o with edges := o.edges ++ [edge] } else o
  else objects ++ [⟨id, row.1.parentObjectID, row.1.accounting, bodyOf row.1.body, [edge]⟩]

/-- The objects in the order in which they are found. -/
def objectsOf (t : Tables) (runs : List Bytes) : List Measured :=
  (joinRows t runs).foldl addRow []

/-! ### Intervals -/

def trustedEdge (edge : Body) : Bool :=
  (instantOf (stringValue edge "start_time")).isSome
    && stringValue edge "quality" ∈ ["explicit", "managed", "exact"].map str

def pointWithin (edge : Body) (point : Bytes) : Bool :=
  let start := stringValue edge "start_time"
  let stop := stringValue edge "end_time"
  (start = [] || start ≤ point) && (stop = [] || point ≤ stop)

def intervalContains (parent child : Body) : Bool :=
  let ps := stringValue parent "start_time"
  let pe := stringValue parent "end_time"
  let cs := stringValue child "start_time"
  let ce := stringValue child "end_time"
  ps ≠ [] && cs ≠ [] && ps ≤ cs && (pe = [] || (ce ≠ [] && ce ≤ pe))

def intervalsOverlap (a b : Body) : Bool :=
  let as := stringValue a "start_time"
  let ae := stringValue a "end_time"
  let bs := stringValue b "start_time"
  let be := stringValue b "end_time"
  (ae = [] || bs = [] || bs ≤ ae) && (be = [] || as = [] || as ≤ be)

/-! ### Hierarchy -/

def findObject (objects : List Measured) (id : Bytes) : Option Measured :=
  objects.find? (·.id = id)

/-- An edge that takes in what lies inside it. -/
def chargingEdge (edge : Body) : Bool := !isTrue edge "shared" && trustedEdge edge

/-- The object takes in the edge. -/
def Measured.covers (p : Measured) (edge : Body) : Bool :=
  p.accounting = str "inclusive" && p.edges.any fun pe => chargingEdge pe && intervalContains pe edge

def Measured.firstParent (o : Measured) (edge : Body) : Bytes :=
  coalesce (stringValue edge "parent_object_id") o.parent

/-- The walk up the recorded parents.  Every step sees a new object, so that `fuel` above their
number is never used up. -/
def coverWalk (objects : List Measured) (edge : Body) :
    ℕ → List Bytes → Bytes → Except Fault Bool
  | 0, _, _ => .error (.plain (str "object hierarchy cycle"))
  | fuel + 1, seen, parent =>
      if parent = [] then .ok false
      else if parent ∈ seen then .error (.plain (str "object hierarchy cycle"))
      else
        match findObject objects parent with
        | none => .ok false
        | some p =>
            if p.covers edge then .ok true
            else coverWalk objects edge fuel (parent :: seen) p.parent

/-- Whether an edge of an object is covered. -/
def coveredEdge (objects : List Measured) (o : Measured) (edge : Body) : Except Fault Bool :=
  coverWalk objects edge (objects.length + 1) [o.id] (o.firstParent edge)

/-! ### Dispositions -/

inductive Disposition
  | selected
  | shared
  | unknown
  | overlap
deriving DecidableEq

/-- Edges of other runs that overlap one of the object's. -/
def overlapsOthers (t : Tables) (runs : List Bytes) (o : Measured) : Except Fault Bool := do
  let others := t.associations.sorted.filter fun (_, row) =>
    row.objectID = o.id && row.agentRunID ∉ runs
  refuse (associationLimit < others.length) (.plain (str "association window exceeded"))
  pure (others.any fun (_, row) => o.edges.any fun ours => intervalsOverlap ours
    (((∅ : Body).insert (str "start_time") (.string row.startTime)).insert (str "end_time")
      (.string row.endTime)))

/-- Edges of different runs that overlap each other. -/
def overlapsItself (edges : List Body) : Bool :=
  edges.zipIdx.any fun (edge, i) => (edges.take i).any fun previous =>
    stringValue previous "agent_run_id" ≠ stringValue edge "agent_run_id"
      && intervalsOverlap previous edge

/-- The disposition of an object, and the quality of its entry. -/
def disposition (t : Tables) (runs : List Bytes) (objects : List Measured) (o : Measured) :
    Except Fault (Disposition × Option Bytes) := do
  let others ← overlapsOthers t runs o
  let isShared := o.edges.any (isTrue · "shared") || overlapsItself o.edges || others
  let covered ← o.edges.mapM (coveredEdge objects o)
  let count := covered.count true
  if isShared then pure (.shared, some (str "shared"))
  else if !o.edges.all trustedEdge then pure (.unknown, none)
  else if count = o.edges.length then pure (.overlap, none)
  else if 0 < count then pure (.unknown, some (str "partial_hierarchy_coverage"))
  else pure (.selected, none)

/-! ### Entries -/

/-- A sample of an object with the record it came with. -/
structure SamplePoint where
  origin : Bytes
  event : Bytes
  sourceTime : Bytes
  body : Body
  record : Envelope

/-- The samples of an object within its edges, by source time, origin and event. -/
def samplesOf (t : Tables) (o : Measured) : Except Fault (List SamplePoint) := do
  let rows := (t.records.filterMap fun record => do
    let row ← t.samples.lookup record.identity
    if row.objectID = o.id then
      some (SamplePoint.mk record.originID record.eventID row.sourceTime (bodyOf row.body) record)
    else none).insertionSort fun x y =>
      [x.sourceTime, x.origin, x.event] ≤ [y.sourceTime, y.origin, y.event]
  refuse (associationLimit < rows.length) (.plain (str "sample window exceeded"))
  pure (rows.filter fun row => o.edges.any (pointWithin · row.sourceTime))

structure Entry where
  object : Measured
  disposition : Disposition
  quality : Option Bytes
  samples : List SamplePoint
  summary : Summary

section Report

-- as in `summarizeObject`, and the time in nanoseconds
variable (sprint : Option Value → Bytes) (readRat : Bytes → Option ℚ) (now : ℤ)

/-- Whether the source of a sample was reported offline after it. -/
def offlineAfterSample (t : Tables) (object : Body) (sample : SamplePoint) : Except Fault Bool := do
  let owner := stringValue object "owner_id"
  let gaps := t.records.filterMap fun record => do
    let gap ← t.gaps.lookup record.identity
    let body := bodyOf gap.body
    if record.originID = sample.origin ∧ record.sourceID = sample.record.sourceID
        ∧ stringValue body "reason" = str "source_offline"
        ∧ (gap.objectID = stringValue object "object_id"
          ∨ (owner ≠ [] ∧ stringValue body "owner_id" = owner))
        ∧ (sample.record.receivedTime < record.receivedTime
          ∨ (record.receivedTime = sample.record.receivedTime
            ∧ sample.record.sequence < record.sequence)) then
      some body
    else none
  refuse (associationLimit < gaps.length) (.plain (str "gap window exceeded"))
  pure (gaps.any fun gap => sameMeasuredGeneration sprint gap sample.body)

/-- Whether the last sample is out of date before its object is looked at. -/
def staleAfter (t : Tables) (object : Body) : Option SamplePoint → Except Fault Bool
  | none => pure true
  | some last => do
      let offline ← offlineAfterSample sprint t object last
      pure (offline || (instantOf last.sourceTime).all fun at' => 30 * 10 ^ 9 < now - at')

def entryOf (t : Tables) (runs : List Bytes) (objects : List Measured) (o : Measured) :
    Except Fault Entry := do
  let (disposition, quality) ← disposition t runs objects o
  let samples ← samplesOf t o
  let stale ← staleAfter sprint now t o.body samples.getLast?
  pure ⟨o, disposition, quality, samples,
    summarizeObject sprint readRat now o.body stale (samples.map (·.body)) o.edges⟩

/-- `showRun`: the entries of the objects; `runs` are the run itself, or its tree. -/
def showRun (t : Tables) (run : Bytes) (runs : List Bytes) : Except Fault (List Entry) := do
  refuse (t.runs.lookup run).isNone (.plain (str "sql: no rows in result set"))
  refuse (associationLimit < (joinRows t runs).length) (.plain (str "association window exceeded"))
  (objectsOf t runs).mapM (entryOf sprint readRat now t runs (objectsOf t runs))

end Report

/-- `selected_nonoverlapping`. -/
def selectedOf (entries : List Entry) : List Entry :=
  entries.filter (·.disposition = .selected)

/-! ### Coverage -/

/-- The proper ancestors of an edge: the object recorded as its parent and those above. -/
inductive Ancestor (objects : List Measured) : Bytes → Measured → Prop
  | parent {id : Bytes} {p : Measured} (hid : id ≠ []) (hfind : findObject objects id = some p) :
      Ancestor objects id p
  | above {id : Bytes} {p a : Measured} (hid : id ≠ []) (hfind : findObject objects id = some p)
      (h : Ancestor objects p.parent a) : Ancestor objects id a

section Walk

variable {objects : List Measured} {edge : Body} {fuel : ℕ} {seen : List Bytes} {parent : Bytes}

/-- **The walk finds an ancestor that covers the edge, if there is one.** -/
lemma coverWalk_ok {covered : Bool}
    (h : coverWalk objects edge fuel seen parent = .ok covered) :
    covered ↔ ∃ a, Ancestor objects parent a ∧ a.covers edge := by
  induction fuel generalizing seen parent with
  | zero => cases h
  | succ fuel ih =>
    rw [coverWalk] at h
    split at h
    next hnil =>
      cases h
      refine iff_of_false (by simp) ?_
      rintro ⟨a, hancestor, _⟩
      cases hancestor with
      | parent hid _ => exact hid hnil
      | above hid _ _ => exact hid hnil
    next hid =>
      split at h
      next => cases h
      next =>
        split at h
        next hnone =>
          cases h
          refine iff_of_false (by simp) ?_
          rintro ⟨a, hancestor, _⟩
          cases hancestor with
          | parent _ hfind => cases hnone.symm.trans hfind
          | above _ hfind _ => cases hnone.symm.trans hfind
        next p hfind =>
          split at h
          next hcovers =>
            cases h
            exact iff_of_true rfl ⟨p, .parent hid hfind, hcovers⟩
          next hcovers =>
            refine (ih h).trans ⟨?_, ?_⟩
            · rintro ⟨a, hancestor, ha⟩
              exact ⟨a, .above hid hfind hancestor, ha⟩
            · rintro ⟨a, hancestor, ha⟩
              cases hancestor with
              | parent _ hfind' =>
                obtain rfl := Option.some.inj (hfind.symm.trans hfind')
                exact absurd ha hcovers
              | above _ hfind' hancestor =>
                obtain rfl := Option.some.inj (hfind.symm.trans hfind')
                exact ⟨a, hancestor, ha⟩

end Walk

/-! ### Charging -/

section Charge

variable {t : Tables} {run : Bytes} {runs : List Bytes} {objects : List Measured} {o : Measured}

/-- No edge of a selected object is covered. -/
lemma disposition_selected {quality : Option Bytes}
    (h : disposition t runs objects o = .ok (.selected, quality)) :
    ∀ edge ∈ o.edges, coveredEdge objects o edge = .ok false := by
  obtain ⟨others, _, h⟩ := of_bind_ok h
  obtain ⟨covered, hcovered, h⟩ := of_bind_ok h
  have hnone : covered.count true = 0 := by
    dsimp only at h
    split at h
    · cases h
    split at h
    · cases h
    split at h
    · cases h
    split at h
    · cases h
    omega
  intro edge hedge
  obtain ⟨b, hb, hedge⟩ := Pointwise.exists_right (mapM_eq_ok.mp hcovered) hedge
  cases b with
  | false => exact hedge
  | true => exact absurd hb (List.count_eq_zero.mp hnone)

/-- An entry is that of an object, with its disposition. -/
lemma entry_of_showRun {sprint : Option Value → Bytes} {readRat : Bytes → Option ℚ} {now : ℤ}
    {entries : List Entry} (h : showRun sprint readRat now t run runs = .ok entries) {entry : Entry}
    (hentry : entry ∈ entries) : entry.object ∈ objectsOf t runs
      ∧ disposition t runs (objectsOf t runs) entry.object
        = .ok (entry.disposition, entry.quality) := by
  obtain ⟨_, h⟩ := refuse_bind.mp h
  obtain ⟨_, h⟩ := refuse_bind.mp h
  obtain ⟨o, ho, hentry⟩ := Pointwise.exists_left (mapM_eq_ok.mp h) hentry
  obtain ⟨⟨disp, quality⟩, hdisposition, hentry⟩ := of_bind_ok hentry
  obtain ⟨samples, _, hentry⟩ := of_bind_ok hentry
  obtain ⟨stale, _, hentry⟩ := of_bind_ok hentry
  cases hentry
  exact ⟨ho, hdisposition⟩

/-- An edge that overlaps an edge of an inclusive ancestor lies inside one. -/
def Measured.Nested (objects : List Measured) (o : Measured) : Prop :=
  ∀ edge ∈ o.edges, ∀ a, Ancestor objects (o.firstParent edge) a →
    a.accounting = str "inclusive" → ∀ pe ∈ a.edges, chargingEdge pe → intervalsOverlap pe edge →
    ∃ b, Ancestor objects (o.firstParent edge) b ∧ b.covers edge

end Charge

/-! ### An overlap in part -/

/-- An explicit association of an object with a run. -/
def demoAssociation (object start stop : String) : AssociationRow where
  objectID := str object
  agentRunID := str "run"
  quality := str "explicit"
  startTime := str start
  endTime := str stop
  shared := false
  body := ∅

def demoObject (parent accounting : String) : ObjectRow where
  body := ∅
  sourceTime := str "2026-01-01T00:00:00Z"
  kind := .scope
  parentObjectID := str parent
  accounting := str accounting

/-- An inner object with the given times, and an inclusive outer object. -/
def demoTables (start stop : String) : Tables :=
  { Tables.empty with
    runs := (∅ : Dict Bytes Row).insert (str "run") ⟨∅, str "2026-01-01T00:00:00Z"⟩
    objects := ((∅ : Dict Bytes ObjectRow).insert (str "inner") (demoObject "outer" "direct")).insert
      (str "outer") (demoObject "" "inclusive")
    associations := ((∅ : Dict Bytes AssociationRow).insert (str "a")
      (demoAssociation "inner" start stop)).insert (str "b")
      (demoAssociation "outer" "2026-01-01T02:00:00Z" "2026-01-01T04:00:00Z") }

def demoInner (start stop : String) : Measured :=
  ⟨str "inner", str "outer", str "direct", bodyOf ∅, [edgeOf (demoAssociation "inner" start stop)]⟩

def demoOuter : Measured :=
  ⟨str "outer", [], str "inclusive", bodyOf ∅,
    [edgeOf (demoAssociation "outer" "2026-01-01T02:00:00Z" "2026-01-01T04:00:00Z")]⟩

/-- The outer object is the only ancestor of the inner one. -/
lemma ancestor_demo {inner : Measured} (hid : inner.id ≠ str "outer") {a : Measured} :
    Ancestor [inner, demoOuter] (str "outer") a ↔ a = demoOuter := by
  have hfind : findObject [inner, demoOuter] (str "outer") = some demoOuter := by
    rw [findObject, List.find?_cons_of_neg (by simpa using hid), List.find?_cons_of_pos (by decide)]
  constructor
  · intro h
    cases h with
    | parent _ hfind' => exact (Option.some.inj (hfind.symm.trans hfind')).symm
    | above _ hfind' h =>
      obtain rfl := Option.some.inj (hfind.symm.trans hfind')
      cases h with
      | parent hne _ => exact absurd rfl hne
      | above hne _ _ => exact absurd rfl hne
  · rintro rfl
    exact .parent (by decide) hfind

/-- The entries of the demonstration by the ids of their objects. -/
def demoSelected (start stop : String) : Option (List Bytes) :=
  (showRun (fun _ => []) (fun _ => none) 0 (demoTables start stop) (str "run")
    [str "run"]).toOption.map fun entries => (selectedOf entries).map (·.object.id)

end Subyard.Telemetry
