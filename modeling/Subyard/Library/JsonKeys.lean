import Subyard.Library.JsonParse

/-!
The keys of JSON values, at any depth.

* `HasKey p v`: some object in `v` has a member whose key passes `p`; repeated members count.
* `anyKey`: the search for one.
* `lastWins`: the value as a decoder into maps keeps it, with the last of repeated members.
* `lastWins_eq`: nothing is lost of a value in which no object repeats a key.
-/

open Text

namespace Json

/-- A member of an object in the value has a key that passes `p`. -/
inductive HasKey (p : Bytes → Prop) : Json → Prop
  | key {members : List (Bytes × Json)} {name : Bytes} {value : Json}
      (hmem : (name, value) ∈ members) (hname : p name) : HasKey p (obj members)
  | member {members : List (Bytes × Json)} {name : Bytes} {value : Json}
      (hmem : (name, value) ∈ members) (hvalue : HasKey p value) : HasKey p (obj members)
  | item {items : List Json} {value : Json} (hmem : value ∈ items) (hvalue : HasKey p value) :
      HasKey p (arr items)

lemma HasKey.mono {p q : Bytes → Prop} {v : Json} (hpq : ∀ name, p name → q name)
    (h : HasKey p v) : HasKey q v := by
  induction h with
  | key hmem hname => exact .key hmem (hpq _ hname)
  | member hmem _ ih => exact .member hmem ih
  | item hmem _ ih => exact .item hmem ih

mutual

/-- The search for a key. -/
def anyKey (p : Bytes → Bool) : Json → Bool
  | arr items => anyKeyItems p items
  | obj members => anyKeyMembers p members
  | _ => false

def anyKeyItems (p : Bytes → Bool) : List Json → Bool
  | [] => false
  | item :: items => anyKey p item || anyKeyItems p items

def anyKeyMembers (p : Bytes → Bool) : List (Bytes × Json) → Bool
  | [] => false
  | (name, value) :: members => p name || anyKey p value || anyKeyMembers p members

end

section Search

variable {p : Bytes → Bool}

lemma anyKeyItems_of_mem {items : List Json} {item : Json} (hmem : item ∈ items)
    (h : anyKey p item) : anyKeyItems p items := by
  induction items with
  | nil => cases hmem
  | cons x items ih =>
    rw [anyKeyItems, Bool.or_eq_true]
    rcases List.mem_cons.mp hmem with rfl | hmem
    · exact .inl h
    · exact .inr (ih hmem)

lemma anyKeyMembers_of_mem {members : List (Bytes × Json)} {name : Bytes} {value : Json}
    (hmem : (name, value) ∈ members) (h : p name ∨ anyKey p value) : anyKeyMembers p members := by
  induction members with
  | nil => cases hmem
  | cons x members ih =>
    rw [anyKeyMembers, Bool.or_eq_true, Bool.or_eq_true]
    rcases List.mem_cons.mp hmem with rfl | hmem
    · exact .inl h
    · exact .inr (ih hmem)

/-- The search finds what is there. -/
lemma HasKey.anyKey {v : Json} (h : HasKey (fun name => p name) v) : anyKey p v := by
  induction h with
  | key hmem hname => exact anyKeyMembers_of_mem hmem (.inl hname)
  | member hmem _ ih => exact anyKeyMembers_of_mem hmem (.inr ih)
  | item hmem _ ih => exact anyKeyItems_of_mem hmem ih

end Search

/-! ### Repeated members -/

mutual

/-- The value with the last of repeated members. -/
def lastWins : Json → Json
  | null => null
  | bool b => bool b
  | num n => num n
  | real literal => real literal
  | str s => str s
  | arr items => arr (lastWinsItems items)
  | obj members => obj (lastWinsMembers members)

def lastWinsItems : List Json → List Json
  | [] => []
  | item :: items => lastWins item :: lastWinsItems items

def lastWinsMembers : List (Bytes × Json) → List (Bytes × Json)
  | [] => []
  | (name, value) :: members =>
      if members.any (·.1 = name) then lastWinsMembers members
      else (name, lastWins value) :: lastWinsMembers members

end

mutual

/-- No object repeats a key. -/
def Keyed : Json → Prop
  | arr items => KeyedItems items
  | obj members => KeyedMembers members
  | _ => True

def KeyedItems : List Json → Prop
  | [] => True
  | item :: items => Keyed item ∧ KeyedItems items

def KeyedMembers : List (Bytes × Json) → Prop
  | [] => True
  | (name, value) :: members =>
      ¬ members.any (·.1 = name) ∧ Keyed value ∧ KeyedMembers members

end

mutual

/-- **Without repeated keys nothing is lost.** -/
lemma lastWins_eq : ∀ {v : Json}, Keyed v → lastWins v = v
  | null, _ | bool _, _ | num _, _ | real _, _ | str _, _ => by rw [lastWins]
  | arr _, h => by rw [lastWins, lastWinsItems_eq h]
  | obj _, h => by rw [lastWins, lastWinsMembers_eq h]

lemma lastWinsItems_eq : ∀ {items : List Json}, KeyedItems items → lastWinsItems items = items
  | [], _ => by rw [lastWinsItems]
  | _ :: _, h => by rw [lastWinsItems, lastWins_eq h.1, lastWinsItems_eq h.2]

lemma lastWinsMembers_eq : ∀ {members : List (Bytes × Json)}, KeyedMembers members →
    lastWinsMembers members = members
  | [], _ => by rw [lastWinsMembers]
  | (_, _) :: _, h => by
    rw [lastWinsMembers, if_neg h.1, lastWins_eq h.2.1, lastWinsMembers_eq h.2.2]

end

end Json
