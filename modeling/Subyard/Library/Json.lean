import Subyard.Library.Text

/-!
JSON values and their compact text, as an encoder writes it that escapes the characters with a
meaning in HTML and keeps every other character of a string.

* `quote`: a string literal.  An octet that starts no character is written as the replacement
  character.
* `render`: the text of a value without blanks.
-/

open Text

/-- A JSON value; the members of an object stand in their order in the text, and a number that is
no integer literal is kept as it is written. -/
inductive Json
  | null
  | bool (b : Bool)
  | num (n : ℤ)
  | real (literal : Bytes)
  | str (s : Bytes)
  | arr (items : List Json)
  | obj (members : List (Bytes × Json))

namespace Json

/-- The escape of a seven-bit character. -/
def escape (b : UInt8) : Bytes :=
  if b = 34 ∨ b = 92 then [92, b]
  else if b = 8 then Text.str "\\b"
  else if b = 12 then Text.str "\\f"
  else if b = 10 then Text.str "\\n"
  else if b = 13 then Text.str "\\r"
  else if b = 9 then Text.str "\\t"
  else if b < 0x20 ∨ b = 60 ∨ b = 62 ∨ b = 38 then Text.str "\\u00" ++ hex [b]
  else [b]

/-- The scan behind `quote`: `n` octets of the current character are still to come, which are
copied or, for a character that was escaped, left out. -/
def quoteFrom : ℕ → Bool → Bytes → Bytes
  | _, _, [] => []
  | n + 1, copy, b :: bs => (if copy then [b] else []) ++ quoteFrom n copy bs
  | 0, _, b :: bs =>
      match runeLength (b :: bs) with
      | none => Text.str "\\ufffd" ++ quoteFrom 0 true bs
      | some n =>
          if n = 1 then escape b ++ quoteFrom 0 true bs
          else if (b :: bs).take 3 = [0xE2, 0x80, 0xA8] then
            Text.str "\\u2028" ++ quoteFrom 2 false bs
          else if (b :: bs).take 3 = [0xE2, 0x80, 0xA9] then
            Text.str "\\u2029" ++ quoteFrom 2 false bs
          else b :: quoteFrom (n - 1) true bs

/-- A string literal. -/
def quote (s : Bytes) : Bytes := [34] ++ quoteFrom 0 true s ++ [34]

/-- A number literal. -/
def number (n : ℤ) : Bytes := if n < 0 then 45 :: decimal n.natAbs else decimal n.natAbs

mutual

/-- The text of a value. -/
def render : Json → Bytes
  | null => Text.str "null"
  | bool b => if b then Text.str "true" else Text.str "false"
  | num n => number n
  | real literal => literal
  | str s => quote s
  | arr items => [91] ++ renderItems items ++ [93]
  | obj members => [123] ++ renderMembers members ++ [125]

def renderItems : List Json → Bytes
  | [] => []
  | [item] => render item
  | item :: next :: rest => render item ++ [44] ++ renderItems (next :: rest)

def renderMembers : List (Bytes × Json) → Bytes
  | [] => []
  | [(key, item)] => quote key ++ [58] ++ render item
  | (key, item) :: next :: rest =>
      quote key ++ [58] ++ render item ++ [44] ++ renderMembers (next :: rest)

end

example : render (.obj [(Text.str "a", .arr [.num (-3), .str (Text.str "x<y")])])
    = Text.str "\x7b\"a\":[-3,\"x\\u003cy\"]\x7d" := by decide

end Json
