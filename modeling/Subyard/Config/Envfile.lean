import Subyard.Library.Fallible
import Subyard.Library.Lines

/-!
Settings files: their records, and what the loader makes of them.

* `scanQuote`: the quotation marks of a line.
* `expandValue`: the expansion of parameters, with the defaults that assign.
* `applyRecord`: the effect of a record on the settings.
* `records`: the records a reader splits a file into; the loader's steps are `loadStep`.
* `applyEnvReaderObserved`: the loader.
-/

namespace Subyard.Config

open Text Fallible Lines

/-! ### Names of settings -/

/-- The character of a name; the first one is no digit. -/
def variableChar (char : UInt8) (first : Bool) : Bool :=
  char = 95 || isUpper char || isLower char || (!first && isDigit char)

def validVariable : Bytes → Bool
  | [] => false
  | char :: rest => variableChar char true && rest.all (variableChar · false)

def safeName : Bytes → Bool
  | [] => false
  | char :: rest => (isLower char || isDigit char)
      && (char :: rest).all fun char => isLower char || isDigit char || char = 95 || char = 45

def legacySettingNames : List (Bytes × Bytes) :=
  [(str "YARD_TYPE", str "ACCESS_KIND"), (str "INSTANCE_TYPE", str "YARD_KIND"),
    (str "INSTANCE_NAME", str "YARD_INSTANCE_NAME"), (str "REMOTE_DEST", str "OWNER_ENDPOINT"),
    (str "REMOTE_YARD", str "OWNER_YARD_NAME"), (str "BASE_IMAGE", str "YARD_IMAGE"),
    (str "BASE_IMAGE_FALLBACK", str "YARD_IMAGE_FALLBACK"),
    (str "YARD_PROFILES", str "ENVIRONMENT_PROFILES"),
    (str "AGENTS", str "CODING_TOOL_INTEGRATIONS")]

def canonicalSettingName (name : Bytes) : Bytes := (legacySettingNames.lookup name).getD name

/-- The settings that are read and discarded. -/
def isRetiredSetting (name : Bytes) : Bool :=
  name = str "CODEX_VERSION" || name = str "CODEX_SHA256_AMD64" || name = str "CODEX_SHA256_ARM64"
    || ((str "AGENT_").isPrefixOf name
      && (str "_CLEANUP").isSuffixOf (name.drop 6)
      && safeName ((name.drop 6).take ((name.drop 6).length - 8)))

/-! ### Errors -/

/-- `SourceError`, as far as it is shown. -/
structure SourceError where
  path : Bytes := []
  line : ℕ := 0
  key : Bytes := []
  role : String
  reason : String
deriving DecidableEq

/-- `sourceContext`: where an error occurred that does not say so itself. -/
def SourceError.within (cause : SourceError) (path : Bytes) (line : ℕ) (key : Bytes)
    (role : String) : SourceError where
  path := if cause.path = [] then path else cause.path
  line := if cause.path = [] then line else cause.line
  key := if cause.key = [] then key else cause.key
  role := role
  reason := cause.reason

/-- An error in a record. -/
def scalarError (reason : String) : SourceError := { role := "scalar settings", reason := reason }

/-! ### Values -/

/-- The settings by their names. -/
abbrev Environment := Bytes → Option Bytes

/-- The settings while a record is applied, with the assignments that were observed. -/
structure Scope where
  values : Environment
  observed : List (Bytes × Bytes) := []

def Scope.assign (s : Scope) (name value : Bytes) : Scope where
  values := Function.update s.values name (some value)
  observed := s.observed ++ [(name, value)]

/-- The value without its quotation marks, and whether it is expanded. -/
def decodeValue (value : Bytes) : Bytes × Bool :=
  if value.length < 2 then (value, true)
  else if value.head? = some 39 ∧ value.getLast? = some 39 then (value.tail.dropLast, false)
  else if value.head? = some 34 ∧ value.getLast? = some 34 then (value.tail.dropLast, true)
  else (value, true)

/-- The inside of a parameter and what follows its closing brace, at a depth of inner ones. -/
def parameterEnd : ℕ → Bytes → Option (Bytes × Bytes)
  | _, [] => none
  | depth, 36 :: 123 :: rest =>
      (parameterEnd (depth + 1) rest).map fun found => (36 :: 123 :: found.1, found.2)
  | 0, 125 :: rest => some ([], rest)
  | depth + 1, 125 :: rest => (parameterEnd depth rest).map fun found => (125 :: found.1, found.2)
  | depth, char :: rest => (parameterEnd depth rest).map fun found => (char :: found.1, found.2)

/-- What a parameter does if its setting is empty. -/
inductive Operator
  | fallback
  | assign
  | require
deriving DecidableEq, Repr

def Operator.of (char : UInt8) : Option Operator :=
  if char = 45 then some .fallback
  else if char = 61 then some .assign
  else if char = 63 then some .require
  else none

/-- `splitParameter` at a depth of braces: the name, the operator and what follows it. -/
def splitParameter : ℤ → Bytes → Bytes × Option (Operator × Bytes)
  | depth, char :: next :: rest =>
      if char = 58 ∧ depth = 0 then
        match Operator.of next with
        | some operator => ([], some (operator, rest))
        | none => cons char (splitParameter depth (next :: rest))
      else if char = 123 then cons char (splitParameter (depth + 1) (next :: rest))
      else if char = 125 then cons char (splitParameter (depth - 1) (next :: rest))
      else cons char (splitParameter depth (next :: rest))
  | _, [char] => ([char], none)
  | _, [] => ([], none)
where
  cons (char : UInt8) (split : Bytes × Option (Operator × Bytes)) :=
    (char :: split.1, split.2)

section Expansion

-- whether the catalog of settings has one of that name
variable (known : Bytes → Bool)

def recognizedSettingKey (name : Bytes) : Bytes :=
  let name := canonicalSettingName name
  if name.length ≤ 128 ∧ validVariable name ∧ known name then name else []

/-- Commands are no part of a value. -/
def checkSubstitution (value : Bytes) : Except SourceError Unit :=
  refuse ([36, 40] <:+: value ∨ 96 ∈ value)
    (scalarError "command substitution is not allowed in config")

/-- The effect of a parameter on the settings; that of a retired one is discarded. -/
def Scope.after (s : Scope) (name : Bytes) (result : Scope) : Scope :=
  if isRetiredSetting name then s else result

/-- `expandParameter`, where `expand` is the expansion of what follows the operator. -/
def expandParameter (expand : Bytes → Scope → Except SourceError (Bytes × Scope))
    (expression : Bytes) (s : Scope) : Except SourceError (Bytes × Scope) := do
  let name := (splitParameter 0 expression).1
  refuse (¬ validVariable name) (scalarError "invalid parameter name")
  let current := (s.values name).getD []
  match (splitParameter 0 expression).2 with
  | none => pure (current, s)
  | some (operator, text) =>
      if current ≠ [] then pure (current, s)
      else do
        let expanded ← expand text s
        match operator with
        | .require => .error { scalarError "required parameter is unset" with
            key := recognizedSettingKey known name }
        | .assign => pure (expanded.1, s.after name (expanded.2.assign name expanded.1))
        | .fallback => pure (expanded.1, s.after name expanded.2)

/-- The loop of `expandValue`.  Every turn takes an octet at least, so the bound is that of the
length of the value. -/
def expandLoop : ℕ → Bytes → Scope → Except SourceError (Bytes × Scope)
  | 0, _, s => pure ([], s)
  | _ + 1, [], s => pure ([], s)
  | bound + 1, char :: rest, s =>
      let emit (text : Bytes) (rest : Bytes) (s : Scope) : Except SourceError (Bytes × Scope) := do
        let (result, s) ← expandLoop bound rest s
        pure (text ++ result, s)
      if char = 92 ∧ rest ≠ [] then emit (rest.take 1) (rest.drop 1) s
      else if char ≠ 36 ∨ rest = [] then emit [char] rest s
      else if rest.head? = some 123 then
        match parameterEnd 0 (rest.drop 1) with
        | none => .error (scalarError "unterminated parameter expansion")
        | some (expression, rest) => do
            let expand (text : Bytes) (s : Scope) : Except SourceError (Bytes × Scope) := do
              checkSubstitution text
              expandLoop bound text s
            let (expanded, s) ← expandParameter known expand expression s
            emit expanded rest s
      else
        let name := rest.takeWhile (variableChar · false)
        if ¬ validVariable name then emit [36] rest s
        else emit ((s.values name).getD []) (rest.drop name.length) s

def expandValue (value : Bytes) (s : Scope) : Except SourceError (Bytes × Scope) := do
  checkSubstitution value
  expandLoop known value.length value s

/-! ### Records -/

/-- The name and the value of an assignment. -/
def splitAssignment (record : Bytes) : Option (Bytes × Bytes) :=
  let record := if (str "export ").isPrefixOf record then trimSpace (record.drop 7) else record
  let left := record.takeWhile (· ≠ 61)
  if left = [] ∨ left = record then none
  else some (trimSpace left, trimSpace (record.drop (left.length + 1)))

/-- The assignment of a value to a setting. -/
def assignRaw (name raw : Bytes) (s : Scope) : Except SourceError Scope :=
  let value := decodeValue raw
  if ¬ value.2 then pure (s.assign name value.1)
  else do
    let expanded ← expandValue known value.1 s
    pure (expanded.2.assign name expanded.1)

/-- `applyRecordRetired`.  The expression of a retired setting is checked, but what it assigns is
discarded. -/
def applyRecordRetired (retired : Bytes → Bool) (record : Bytes) (s : Scope) :
    Except SourceError Scope :=
  let record := trimSpace record
  if record.head? = some 58 then
    let value := decodeValue (trimSpace record.tail)
    if ¬ value.2 then pure s
    else do
      let expanded ← expandValue known value.1 s
      pure expanded.2
  else
    match splitAssignment record with
    | none => .error (scalarError "only variable assignments are allowed")
    | some (name, raw) => do
        refuse (¬ validVariable name) (scalarError "invalid variable name")
        let result ← assignRaw known name raw s
        pure (if isRetiredSetting name || retired name then s else result)

def applyRecord : Bytes → Scope → Except SourceError Scope :=
  applyRecordRetired known isRetiredSetting

/-- The name a record assigns to directly, and whether its value is expanded. -/
def persistentDirectAssignment (record : Bytes) : Bytes × Bool :=
  let record := trimSpace record
  if record.head? = some 58 then ([], true)
  else
    match splitAssignment record with
    | none => ([], true)
    | some (name, raw) => (name, (decodeValue raw).2 && (36 ∈ raw))

def recordSettingKey (record : Bytes) : Bytes :=
  recognizedSettingKey known (persistentDirectAssignment record).1

end Expansion

/-! ### Files -/

/-- The loop of `scanQuote`. -/
def scanQuoteFrom (escaped : Bool) (quote : Option UInt8) : Bytes → Option UInt8
  | [] => quote
  | char :: rest =>
      if escaped then scanQuoteFrom false quote rest
      else if char = 92 ∧ quote ≠ some 39 then scanQuoteFrom true quote rest
      else if quote = none ∧ (char = 39 ∨ char = 34) then scanQuoteFrom false (some char) rest
      else if quote = some char then scanQuoteFrom false none rest
      else scanQuoteFrom false quote rest

/-- The quotation mark that is open after a line. -/
def scanQuote (line : Bytes) (quote : Option UInt8) : Option UInt8 := scanQuoteFrom false quote line

/-- Where a reader of a file stands: the record it has begun and the mark that is open in it. -/
structure Cursor where
  current : Bytes := []
  quote : Option UInt8 := none
  lineNumber : ℕ := 0
  recordLine : ℕ := 0
deriving DecidableEq

/-- The record and the line it starts at. -/
abbrev Record := ℕ × Bytes

/-- A blank line or a comment. -/
def isSkipped (text : Bytes) : Bool := trimSpace text = [] || (trimSpace text).head? = some 35

/-- A record that no mark is open in is complete. -/
def Cursor.close (c : Cursor) : Cursor × Option Record :=
  if c.quote ≠ none then (c, none) else ({ c with current := [] }, some (c.recordLine, c.current))

/-- A line for the loader, which has no line feed.  Blank lines and comments between records are
left out at once. -/
def loadStep (c : Cursor) (line : Bytes) : Cursor × Option Record :=
  if c.current = [] ∧ isSkipped line then ({ c with lineNumber := c.lineNumber + 1 }, none)
  else Cursor.close
    { current := if c.current = [] then line else c.current ++ [10] ++ line
      quote := scanQuote line c.quote
      lineNumber := c.lineNumber + 1
      recordLine := if c.current = [] then c.lineNumber + 1 else c.recordLine }

/-- The complete records of some lines, and where the reader stands after them. -/
def records (step : Cursor → Bytes → Cursor × Option Record) (c : Cursor) :
    List Bytes → List Record × Cursor
  | [] => ([], c)
  | line :: lines =>
      let next := step c line
      let found := records step next.1 lines
      (next.2.toList ++ found.1, found.2)

/-- An assignment with the line of its record. -/
structure Assignment where
  name : Bytes
  value : Bytes
  line : ℕ
deriving DecidableEq

/-- What the loader has made of some records. -/
structure Loaded where
  values : Environment
  assignments : List Assignment := []

/-- The longest line the scanner holds, without its line feed. -/
def maxLine : ℕ := 1024 * 1024

/-- The lines of the scanner up to one that is too long. -/
def scanLines (content : Bytes) : List Bytes :=
  ((splitAfter content).takeWhile fun line => (chomp line).length < maxLine).map (dropCR <| chomp ·)

/-- No line is too long for the scanner. -/
def ShortLines (content : Bytes) : Prop := ∀ line ∈ splitAfter content, (chomp line).length < maxLine

instance (content : Bytes) : Decidable (ShortLines content) :=
  inferInstanceAs (Decidable (∀ line ∈ splitAfter content, _))

def discardRetiredSettings (values : Environment) : Environment := fun name =>
  if isRetiredSetting name then none else values name

section Loader

variable (known : Bytes → Bool)

/-- A record for the loader. -/
def loadRecord (retired : Bytes → Bool) (source : Bytes) (loaded : Loaded) (record : Record) :
    Except SourceError Loaded :=
  match applyRecordRetired known retired record.2 { values := loaded.values } with
  | .error cause => .error
      (cause.within source record.1 (recordSettingKey known record.2) "scalar settings")
  | .ok s => .ok
      { values := s.values
        assignments := loaded.assignments
          ++ s.observed.map fun observed => ⟨observed.1, observed.2, record.1⟩ }

/-- `applyEnvReaderObservedRetired`.  The records are complete in the order of the file and are
applied in that order; the first error ends the reading. -/
def applyEnvReaderObservedRetired (retired : Bytes → Bool) (source content : Bytes)
    (values : Environment) : Except SourceError Loaded := do
  let (found, c) := records loadStep {} (scanLines content)
  let loaded ← found.foldlM (loadRecord known retired source)
    { values := discardRetiredSettings values }
  refuse (¬ ShortLines content)
    { path := source, line := c.lineNumber + 1, role := "scalar settings"
      reason := "cannot read config within the line size bound" }
  refuse (c.quote ≠ none ∨ c.current ≠ [])
    { path := source, line := c.recordLine, key := recordSettingKey known c.current
      role := "scalar settings", reason := "unterminated quoted assignment" }
  pure loaded

def applyEnvReaderObserved (source content : Bytes) (values : Environment) :
    Except SourceError Loaded :=
  applyEnvReaderObservedRetired known isRetiredSetting source content values

end Loader

end Subyard.Config
