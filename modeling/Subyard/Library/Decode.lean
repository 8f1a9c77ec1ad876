import Subyard.Library.Dict
import Subyard.Library.JsonParse

/-!
Records in JSON: the decoding of values into records with a fixed list of fields, and the encoding
that it reverses.

A decoder works on a place that already holds a value, since a member may be given twice and
`null` leaves most places alone.

* `decodeInt`, `decodeBool`, `decodeStr`, `decodeList`, `decodeDict`: the decoders of each type.
* `decodeRecord`: an object read into a record.  A member is matched with a field without regard
  to case, and one that no field matches is refused.
* `encodeDict`: a map as an object with its keys in order.
* `decodeDict_encodeDict`, `decodeList_map`: what was encoded is decoded again.
-/

open Text

namespace Json

variable {α β V : Type}

/-- A value read into a place that holds another; none if its type does not fit. -/
abbrev Decoder (α : Type) := α → Json → Option α

/-! ### Scalars -/

def decodeInt : Decoder ℤ
  | old, null => some old
  | _, num n => if -2 ^ 63 ≤ n ∧ n < 2 ^ 63 then some n else none
  | _, real literal => if literal = Text.str "-0" then some 0 else none
  | _, _ => none

def decodeBool : Decoder Bool
  | old, null => some old
  | _, bool b => some b
  | _, _ => none

def decodeStr : Decoder Bytes
  | old, null => some old
  | _, str s => some s
  | _, _ => none

lemma decodeInt_num {n : ℤ} (hlow : -2 ^ 63 ≤ n) (hhigh : n < 2 ^ 63) (old : ℤ) :
    decodeInt old (num n) = some n := if_pos ⟨hlow, hhigh⟩

/-! ### Lists and maps -/

/-- Each item is read into a fresh place. -/
def decodeList (zero : α) (item : Decoder α) : Decoder (List α)
  | _, null => some []
  | _, arr items => items.mapM (item zero)
  | _, _ => none

/-- A map that is absent is told from an empty one; members are added to those already there. -/
def decodeDict (zero : V) (value : Decoder V) : Decoder (Option (Dict Bytes V))
  | _, null => some none
  | old, obj members =>
      (members.foldlM (fun m member => (value zero member.2).map fun v => m.insert member.1 v)
        (old.getD ∅)).map some
  | _, _ => none

/-- A map as an object. -/
def encodeDict (value : V → Json) (m : Dict Bytes V) : Json :=
  obj (m.sorted.map fun entry => (entry.1, value entry.2))

lemma decodeList_map {zero : α} {item : Decoder α} {encode : α → Json} {l : List α}
    (h : ∀ x ∈ l, item zero (encode x) = some x) (old : List α) :
    decodeList zero item old (arr (l.map encode)) = some l := by
  rw [decodeList]
  induction l with
  | nil => rfl
  | cons x l ih =>
    rw [List.map_cons, List.mapM_cons, h x (by simp), ih fun y hy => h y (by simp [hy])]
    rfl

/-- **An encoded map is decoded again.** -/
theorem decodeDict_encodeDict {zero : V} {value : Decoder V} {encode : V → Json}
    {m : Dict Bytes V} (h : ∀ k v, m.lookup k = some v → value zero (encode v) = some v) :
    decodeDict zero value none (encodeDict encode m) = some (some m) := by
  have hfold : ∀ (l : List (Bytes × V)) (acc : Dict Bytes V),
      (∀ x ∈ l, value zero (encode x.2) = some x.2) →
      (l.map fun entry => (entry.1, encode entry.2)).foldlM
        (fun m member => (value zero member.2).map fun v => Finmap.insert member.1 v m) acc
        = some (l.foldl (fun m entry => Finmap.insert entry.1 entry.2 m) acc) := by
    intro l
    induction l with
    | nil => exact fun acc _ => rfl
    | cons x l ih =>
      intro acc hl
      rw [List.map_cons, List.foldlM_cons, hl x (by simp)]
      exact ih _ fun y hy => hl y (by simp [hy])
  have hself : m.sorted.foldl (fun m entry => Finmap.insert entry.1 entry.2 m) ∅ = m :=
    Dict.build_self m
  rw [encodeDict, decodeDict, Option.getD_none,
    hfold _ _ fun x hx => h x.1 x.2 (Dict.mem_sorted.mp hx), hself]
  rfl

/-! ### Records -/

/-- A name without regard to case: letters are turned to upper case, as are the two letters
outside the seven-bit range whose upper case is inside it. -/
def foldName : Bytes → Bytes
  | 0xC5 :: 0xBF :: rest => 83 :: foldName rest
  | 0xE2 :: 0x84 :: 0xAA :: rest => 75 :: foldName rest
  | b :: rest => (if isLower b then b - 32 else b) :: foldName rest
  | [] => []

/-- A field of a record: its name and how a value is read into it. -/
structure Field (α : Type) where
  name : Bytes
  decode : Decoder α

/-- The field that is read by `get` and written by `set`. -/
def Field.of (name : String) (get : α → β) (set : α → β → α) (decode : Decoder β) : Field α where
  name := Text.str name
  decode a v := (decode (get a) v).map (set a)

/-- One member of an object read into a record. -/
def decodeMember (fields : List (Field α)) (a : α) (member : Bytes × Json) : Option α :=
  (fields.find? fun field => foldName field.name = foldName member.1).bind fun field =>
    field.decode a member.2

def decodeRecord (fields : List (Field α)) : Decoder α
  | old, null => some old
  | old, obj members => members.foldlM (decodeMember fields) old
  | _, _ => none

/-- The members of an object are read one after the other. -/
lemma decodeRecord_cons {fields : List (Field α)} {a a' : α} {member : Bytes × Json}
    (h : decodeMember fields a member = some a') (members : List (Bytes × Json)) :
    decodeRecord fields a (obj (member :: members)) = decodeRecord fields a' (obj members) := by
  rw [decodeRecord, List.foldlM_cons, h]
  rfl

/-! ### Well-formed encodings -/

lemma plainItems_iff {items : List Json} : PlainItems items ↔ ∀ item ∈ items, Plain item := by
  induction items with
  | nil => simp [PlainItems]
  | cons item items ih => simp [PlainItems, ih]

lemma plainMembers_iff {members : List (Bytes × Json)} :
    PlainMembers members ↔ ∀ member ∈ members, valid member.1 ∧ Plain member.2 := by
  induction members with
  | nil => simp [PlainMembers]
  | cons member members ih => simp [PlainMembers, ih, and_assoc]

lemma plain_encodeDict {encode : V → Json} {m : Dict Bytes V}
    (h : ∀ k v, m.lookup k = some v → valid k ∧ Plain (encode v)) :
    Plain (encodeDict encode m) := by
  rw [encodeDict, Plain, plainMembers_iff]
  intro member hmember
  obtain ⟨entry, hentry, rfl⟩ := List.mem_map.mp hmember
  exact h entry.1 entry.2 (Dict.mem_sorted.mp hentry)

lemma plain_strings {l : List Bytes} (h : ∀ s ∈ l, valid s) : Plain (arr (l.map str)) := by
  rw [Plain, plainItems_iff]
  intro item hitem
  obtain ⟨s, hs, rfl⟩ := List.mem_map.mp hitem
  exact h s hs

end Json
