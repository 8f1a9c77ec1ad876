import Subyard.Library.Decode
import Subyard.Library.Rfc3339

/-!
Records of the telemetry collector: their kinds, and the bodies that are read from stored texts.

* `Value`, `Body`: the body of a record as the collector holds it.  A number is a literal, an
  integer or a floating-point number; of an array only its strings matter.
* `decodeBody`: a body from JSON.
-/

namespace Subyard.Telemetry

open Text Fallible

inductive Fault
  | plain (message : Bytes)
  | capacity
  | storage
deriving DecidableEq, Repr

/-! ### Bodies -/

/-- The number a text denotes in base ten: an optional sign and digits. -/
def signedDigits : Bytes → Option ℤ
  | 43 :: ds => (parseDigits ds).map fun n => (n : ℤ)
  | 45 :: ds => (parseDigits ds).map fun n => -(n : ℤ)
  | ds => (parseDigits ds).map fun n => (n : ℤ)

/-- A text that `big.Int` reads as a counter: not negative and of at most 64 bits. -/
def isCounter (text : Bytes) : Bool := (signedDigits text).any fun n => 0 ≤ n && n < 2 ^ 64

/-- A `float64` by its two texts: its JSON literal, which infinities and NaN do not have, and what
`fmt.Sprint` prints.  A number that prints as an integer has the same literal. -/
structure Float64 where
  json : Option Bytes
  printed : Bytes
  literal : ∀ text ∈ json, (Json.numeral text).isSome
  agree : isCounter printed → json = some printed

/-- A value of a body: `any` in the source.  `list` is a slice, with `none` for an item that is no
string; `other` is any type that is none of the others. -/
inductive Value
  | null
  | bool (b : Bool)
  | number (text : Bytes)
  | int (n : ℤ)
  | float (x : Float64)
  | string (s : Bytes)
  | list (items : List (Option Bytes))
  | other

abbrev Body := Dict Bytes Value

/-- `fmt.Sprint` of a value, `none` where it is no integer in any case. -/
def Value.sprint : Value → Option Bytes
  | number text => some text
  | int n => some (Json.number n)
  | float x => some x.printed
  | string s => some s
  | _ => none

/-- What a decoder that keeps number literals makes of a JSON value. -/
def Value.ofJson : Json → Value
  | .null => null
  | .bool b => bool b
  | .num n => number (Json.number n)
  | .real literal => number literal
  | .str s => string s
  | .arr items => list (items.map fun | .str s => some s | _ => none)
  | .obj _ => other

/-- `decodeBody`; a body that is `null` is a nil map. -/
def decodeBody : Json → Except Fault (Option Body)
  | .null => .ok none
  | .obj members =>
      .ok (some (members.foldl (fun acc m => Finmap.insert m.1 (Value.ofJson m.2) acc) ∅))
  | _ => .error (.plain (str "cannot unmarshal body"))

/-- `stringValue`. -/
def stringValue (body : Body) (key : String) : Bytes :=
  match body.lookup (str key) with
  | some (.string s) => s
  | _ => []

/-! ### Identities -/

/-- The characters of identities. -/
def isNameChar (b : UInt8) : Bool :=
  isUpper b || isLower b || isDigit b || b = 95 || b = 46 || b = 58 || b = 47 || b = 45

/-- A name of that many characters at most. -/
def matchesName (limit : ℕ) (s : Bytes) : Bool := s ≠ [] && s.length ≤ limit && s.all isNameChar

def validID (s : Bytes) : Bool := matchesName 512 s

inductive Kind
  | run
  | session
  | relation
  | scope
  | process
  | sample
  | allocation
  | association
  | gap
  | other (text : Bytes)
deriving DecidableEq, Repr

end Subyard.Telemetry
