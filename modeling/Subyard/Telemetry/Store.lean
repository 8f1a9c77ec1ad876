import Subyard.Library.MergePatch
import Subyard.Telemetry.Record

/-!
The store of the telemetry collector: its tables and the writer.

* `Envelope`: a row of the table of records, as it is exported.
* `Tables`: the records in the order of their sequence numbers, and the tables that are projected
  from them.
* `project`, `commitEntry`, `commit`: what the writer does with an entry and with a batch.

Capacity of the queue and of the disk, retention and the migration of old schemas are left out.
-/

namespace Subyard.Telemetry

open Text Fallible

def exportSchema : Bytes := str "subyard.telemetry.export/v1"

/-- `Envelope`: the body is the JSON value of which the raw message is the text. -/
structure Envelope where
  schema : Bytes
  originID : Bytes
  eventID : Bytes
  sequence : ℤ
  receivedTime : Bytes
  sourceID : Bytes
  sourceVersion : Bytes
  sourceTime : Bytes
  kind : Kind
  encoding : Bytes
  policyVersion : Bytes
  importPolicyVersion : Bytes
  redactions : ℤ
  body : Option Json
  protobuf : Bytes

/-- The text of the body. -/
def Envelope.bodyText (e : Envelope) : Bytes := e.body.elim [] Json.render

/-- The identity of an entry. -/
def Envelope.identity (e : Envelope) : Bytes × Bytes := (e.originID, e.eventID)

/-! ### Tables -/

/-- A row of `runs` or of `allocations`. -/
structure Row where
  body : Json.Object
  sourceTime : Bytes

/-- A row of `objects`; a column without a value is empty. -/
structure ObjectRow extends Row where
  kind : Kind
  parentObjectID : Bytes
  accounting : Bytes

/-- A row of `samples`. -/
structure SampleRow where
  objectID : Bytes
  sourceTime : Bytes
  body : Json.Object

structure AssociationRow where
  objectID : Bytes
  agentRunID : Bytes
  quality : Bytes
  startTime : Bytes
  endTime : Bytes
  shared : Bool
  body : Json.Object

structure GapRow where
  objectID : Bytes
  agentRunID : Bytes
  sourceTime : Bytes
  body : Json.Object

structure RelationRow where
  agentRunID : Bytes
  sessionID : Bytes
  body : Json.Object

structure Tables where
  records : List Envelope
  runs : Dict Bytes Row
  objects : Dict Bytes ObjectRow
  allocations : Dict Bytes Row
  samples : Dict (Bytes × Bytes) SampleRow
  associations : Dict Bytes AssociationRow
  gaps : Dict (Bytes × Bytes) GapRow
  relations : Dict (Bytes × Bytes) RelationRow

def Tables.empty : Tables := ⟨[], ∅, ∅, ∅, ∅, ∅, ∅, ∅⟩

/-! ### Projection -/

/-- The update of a row: a record that is not older goes over the row, an older one under it. -/
def Row.update (row new : Row) : Row :=
  if row.sourceTime ≤ new.sourceTime then ⟨row.body.patch new.body, new.sourceTime⟩
  else ⟨new.body.patch row.body, row.sourceTime⟩

/-- The first of two columns that has a value. -/
def coalesce (first second : Bytes) : Bytes := if first = [] then second else first

def ObjectRow.update (row new : ObjectRow) : ObjectRow :=
  if row.sourceTime ≤ new.sourceTime then
    { toRow := row.toRow.update new.toRow
      kind := new.kind
      parentObjectID := coalesce new.parentObjectID row.parentObjectID
      accounting := coalesce new.accounting row.accounting }
  else
    { toRow := row.toRow.update new.toRow
      kind := row.kind
      parentObjectID := coalesce row.parentObjectID new.parentObjectID
      accounting := coalesce row.accounting new.accounting }

/-- `INSERT` with an update on conflict. -/
def upsert {K R : Type} [DecidableEq K] (update : R → R → R) (key : K) (row : R) (table : Dict K R) :
    Dict K R :=
  table.insert key ((table.lookup key).elim row (update · row))

/-- `INSERT` into a table with a primary key. -/
def insertNew {K R : Type} [DecidableEq K] (key : K) (row : R) (table : Dict K R) :
    Except Fault (Dict K R) :=
  if (table.lookup key).isSome then .error .storage else .ok (table.insert key row)

/-- A field that is `true`. -/
def isTrue (body : Body) (key : String) : Bool :=
  match body.lookup (str key) with
  | some (.bool b) => b
  | _ => false

/-- The members of the text of a body, as a reader of the text finds them. -/
def objectOf (body : Json) : Json.Object := Json.objectOf (Json.membersOf body.coerced)

/-- The association that a scope with an owner implies. -/
def ownerEdge (e : Envelope) (b : Body) : AssociationRow :=
  let quality := stringValue b "quality"
  let quality :=
    if quality = [] ∧ stringValue b "scope_quality" = str "managed" then str "explicit" else quality
  { objectID := stringValue b "object_id"
    agentRunID := stringValue b "agent_run_id"
    quality
    startTime := e.sourceTime
    endTime := []
    shared := isTrue b "shared"
    body := Json.objectOf [(str "object_id", .str (stringValue b "object_id")),
      (str "agent_run_id", .str (stringValue b "agent_run_id")), (str "quality", .str quality),
      (str "start_time", .str e.sourceTime), (str "shared", .bool (isTrue b "shared")),
      (str "source", .str (str "explicit-object-owner"))] }

/-- The update of an association. -/
def AssociationRow.update (row new : AssociationRow) : AssociationRow :=
  { row with
    startTime := coalesce row.startTime new.startTime
    endTime := coalesce new.endTime row.endTime
    quality := new.quality
    body := row.body.patch new.body }

/-- The row of an object that an entry describes. -/
def objectRow (e : Envelope) (b : Body) (body : Json.Object) : ObjectRow :=
  { body
    sourceTime := e.sourceTime
    kind := e.kind
    parentObjectID := stringValue b "parent_object_id"
    accounting := stringValue b "accounting" }

/-- The projection of a run. -/
def Tables.withRun (t : Tables) (run : Bytes) (row : Row) : Tables :=
  { t with runs := upsert Row.update run row t.runs }

/-- The projection of a scope, a process or an allocation. -/
def Tables.withObject (t : Tables) (e : Envelope) (b : Body) (body : Json.Object) : Tables :=
  let object := stringValue b "object_id"
  let run := stringValue b "agent_run_id"
  let row := objectRow e b body
  let edge := e.originID ++ [58] ++ object ++ [58] ++ run
  { t with
    objects := upsert ObjectRow.update object row t.objects
    allocations :=
      if e.kind = .allocation then upsert Row.update object row.toRow t.allocations
      else t.allocations
    associations :=
      if e.kind = .scope ∧ validID run ∧ (t.associations.lookup edge).isNone then
        t.associations.insert edge (ownerEdge e b)
      else t.associations }

/-- The projection of an association. -/
def Tables.withAssociation (t : Tables) (e : Envelope) (b : Body) (body : Json.Object) : Tables :=
  let object := stringValue b "object_id"
  let run := stringValue b "agent_run_id"
  let given := stringValue b "association_id"
  let id :=
    if given = [] then
      e.originID ++ [58] ++ object ++ [58] ++ run ++ [58] ++ stringValue b "source"
    else given
  let row : AssociationRow :=
    ⟨object, run, stringValue b "quality", stringValue b "start_time", stringValue b "end_time",
      isTrue b "shared", body⟩
  { t with associations := upsert AssociationRow.update id row t.associations }

/-- `project` for an entry with the body `b`, of which the text means `body`. -/
def projectBody (t : Tables) (e : Envelope) (b : Body) (body : Json.Object) :
    Except Fault Tables :=
  let object := stringValue b "object_id"
  let run := stringValue b "agent_run_id"
  match e.kind with
  | .run => do
      refuse (¬ validID run) (.plain (str "run identity missing"))
      pure (t.withRun run ⟨body, e.sourceTime⟩)
  | .scope | .process | .allocation => do
      refuse (¬ validID object) (.plain (str "object identity missing"))
      pure (t.withObject e b body)
  | .sample => do
      refuse (¬ validID object) (.plain (str "sample object missing"))
      let samples ← insertNew e.identity ⟨object, e.sourceTime, body⟩ t.samples
      pure { t with samples }
  | .association => do
      refuse (¬ validID object) (.plain (str "association object missing"))
      pure (t.withAssociation e b body)
  | .gap => do
      let gaps ← insertNew e.identity ⟨object, run, e.sourceTime, body⟩ t.gaps
      pure { t with gaps }
  | .relation | .session => do
      let relations ← insertNew e.identity ⟨run, stringValue b "session_id", body⟩ t.relations
      pure { t with relations }
  | .other _ => .ok t

def project (t : Tables) (e : Envelope) : Except Fault Tables :=
  if e.encoding ≠ str "json" then .ok t
  else do
    let body := e.body.getD .null
    let b ← decodeBody body.coerced
    projectBody t e (b.getD ∅) (objectOf body)

/-! ### The writer -/

/-- The columns on which an entry of a known identity must agree. -/
def Envelope.Collides (e stored : Envelope) : Prop :=
  ¬ (e.bodyText = stored.bodyText ∧ e.protobuf = stored.protobuf ∧ e.sourceID = stored.sourceID
    ∧ e.sourceVersion = stored.sourceVersion ∧ e.sourceTime = stored.sourceTime
    ∧ e.kind = stored.kind ∧ e.encoding = stored.encoding
    ∧ e.policyVersion = stored.policyVersion)

instance (e stored : Envelope) : Decidable (e.Collides stored) := by
  unfold Envelope.Collides
  infer_instance

/-- The record of that identity. -/
def Tables.find (t : Tables) (identity : Bytes × Bytes) : Option Envelope :=
  t.records.find? fun e => e.identity = identity

/-- The body of the loop of `commit`. -/
def commitEntry (t : Tables) (e : Envelope) : Except Fault Tables :=
  match t.find e.identity with
  | some stored => do
      refuse (e.Collides stored) (.plain (str "telemetry event identity collision"))
      pure t
  | none =>
      (project { t with records := t.records ++ [{ e with sequence := t.records.length + 1 }] } e).mapError
        fun _ => .storage

/-- `commit`: the entries of a batch in one transaction. -/
def commit (t : Tables) (entries : List Envelope) : Except Fault Tables :=
  entries.foldlM commitEntry t

/-- What an entry counts against the limits. -/
def Envelope.size (e : Envelope) : ℕ := e.bodyText.length + e.protobuf.length + 512

end Subyard.Telemetry
