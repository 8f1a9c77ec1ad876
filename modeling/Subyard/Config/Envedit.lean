import Subyard.Config.Envfile

/-!
The editor of settings files.

* `parsePersistentAssignments`: the assignments of a file; the editor's steps are `editStep`.
* `parseEnvEditRecords`: the records of a file with the setting each of them assigns last.
* `editAssignmentContent`: a file with one setting set or unset.
-/

namespace Subyard.Config

open Text Fallible Lines

/-- Why the editor fails. -/
inductive EditError
  | source (error : SourceError)
  | tooLarge
deriving DecidableEq

/-- A line for the readers of the editor, with its end. -/
def editStep (c : Cursor) (line : Bytes) : Cursor × Option Record :=
  Cursor.close
    { current := c.current ++ line
      quote := scanQuote (chomp line) c.quote
      lineNumber := c.lineNumber + 1
      recordLine := if c.current = [] then c.lineNumber + 1 else c.recordLine }

/-- The largest file. -/
def maxContent : ℕ := 8 * 1024 * 1024

/-- An assignment, whether its record assigns it directly, and whether its value was expanded. -/
structure PersistentAssignment where
  name : Bytes
  value : Bytes
  line : ℕ
  direct : Bool
  dynamic : Bool
deriving DecidableEq

/-- What is common to the assignments of the loader and of the editor. -/
def PersistentAssignment.assignment (a : PersistentAssignment) : Assignment := ⟨a.name, a.value, a.line⟩

/-- A record of a file and the setting it assigns last. -/
structure EnvEditRecord where
  content : Bytes
  name : Bytes := []
deriving DecidableEq

section Editor

variable (known : Bytes → Bool)

/-- The loop of the readers of the editor over a file; `handle` is what they do with a record. -/
def readRecords {σ : Type} (handle : σ → Record → Except SourceError σ) (path content : Bytes)
    (init : σ) : Except SourceError σ := do
  let (found, c) := records editStep {} (splitAfter content)
  let result ← found.foldlM handle init
  refuse (c.quote ≠ none ∨ c.current ≠ [])
    { path := path, line := c.recordLine, key := recordSettingKey known c.current
      role := "persistent settings", reason := "unterminated quoted assignment" }
  pure result

/-- The effect of a record that is neither blank nor a comment. -/
def applyPersistent (path : Bytes) (record : Record) (values : Environment) :
    Except SourceError Scope :=
  (applyRecord known (trimSpace record.2) { values := values }).mapError fun cause =>
    cause.within path record.1 (recordSettingKey known (trimSpace record.2)) "persistent settings"

/-- The assignments of a record. -/
def persistentAssignments (record : Record) (observed : List (Bytes × Bytes)) :
    List PersistentAssignment :=
  let assigned := persistentDirectAssignment (trimSpace record.2)
  observed.map fun pair =>
    let direct : Bool := assigned.1 ≠ [] && pair.1 = assigned.1
    ⟨pair.1, pair.2, record.1, direct, assigned.2 || !direct⟩

/-- A record for `ParsePersistentAssignments`. -/
def parseRecord (path : Bytes) (state : Environment × List PersistentAssignment)
    (record : Record) : Except SourceError (Environment × List PersistentAssignment) :=
  if isSkipped record.2 then pure state
  else do
    let s ← applyPersistent known path record state.1
    pure (s.values, state.2 ++ persistentAssignments record s.observed)

def parsePersistentAssignments (path content : Bytes) :
    Except EditError (List PersistentAssignment) := do
  refuse (maxContent < content.length) .tooLarge
  let state ← (readRecords known (parseRecord known path) path content (fun _ => none, [])).mapError
    .source
  pure state.2

/-- A record for `parseEnvEditRecords`. -/
def editRecord (path : Bytes) (state : Environment × List EnvEditRecord) (record : Record) :
    Except SourceError (Environment × List EnvEditRecord) :=
  if isSkipped record.2 then pure (state.1, state.2 ++ [{ content := record.2 }])
  else do
    let s ← applyPersistent known path record state.1
    pure (s.values, state.2
      ++ [{ content := record.2, name := (s.observed.getLast?.map (·.1)).getD [] }])

def parseEnvEditRecords (path content : Bytes) : Except SourceError (List EnvEditRecord) := do
  let state ← readRecords known (editRecord known path) path content (fun _ => none, [])
  pure state.2

def quotePersistentValue (value : Bytes) : Bytes :=
  [39] ++ value.flatMap (fun char => if char = 39 then [39, 92, 39, 39] else [char]) ++ [39]

/-- The record of an assignment. -/
def replacement (name value : Bytes) : Bytes := name ++ [61] ++ quotePersistentValue value ++ [10]

/-- The records of a file with the last one for a setting replaced and the others left out; the
assignment comes at the end if there is none. -/
def editRecords (name : Bytes) (value : Option Bytes) : List EnvEditRecord → Bytes × Bool
  | [] => ([], false)
  | record :: rest =>
      let (text, found) := editRecords name value rest
      if record.name ≠ name then (record.content ++ text, found)
      else if found then (text, true)
      else ((value.map (replacement name)).getD [] ++ text, true)

/-- The text after an edit. -/
def editedText (name : Bytes) (value : Option Bytes) (records : List EnvEditRecord) : Bytes :=
  let (text, found) := editRecords name value records
  match value with
  | some value =>
      if found then text
      else text ++ (if text ≠ [] ∧ text.getLast? ≠ some 10 then [10] else []) ++ replacement name value
  | none => text

def simplify : String := "simplify conditional assignments before authoring"

/-- The edited file has to assign the setting as it was asked for. -/
def checkEdit (path name : Bytes) (value : Option Bytes) (effective : Bytes × ℕ) :
    List PersistentAssignment → Except EditError Unit
  | [] =>
      match value with
      | none => pure ()
      | some value => refuse (effective.1 ≠ value) (.source
          { path := path, line := effective.2, key := name, role := "persistent settings"
            reason := "a preserved record changes the requested setting; " ++ simplify })
  | a :: rest =>
      if canonicalSettingName a.name ≠ name then checkEdit path name value effective rest
      else do
        refuse (value = none ∨ a.name ≠ name) (.source
          { path := path, line := a.line, key := name, role := "persistent settings"
            reason := "setting is still assigned by a preserved record; " ++ simplify })
        checkEdit path name value (a.value, a.line) rest

def editAssignmentContent (path content name : Bytes) (value : Option Bytes) :
    Except EditError Bytes := do
  let records ← (parseEnvEditRecords known path content).mapError .source
  let name := canonicalSettingName name
  let records := records.map fun record =>
    { record with name := canonicalSettingName record.name }
  let result := editedText name value records
  let assignments ← parsePersistentAssignments known path result
  checkEdit path name value ([], 0) assignments
  pure result

end Editor

end Subyard.Config
