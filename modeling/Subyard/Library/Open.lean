import Subyard.Library.Text

/-!
Enumerations whose values are texts and may be none of the known ones.

* `Named`: an enumeration with a name for each of its members.
* `Open`: a member or any other text; `Open.ofText` and `Open.text` go from texts and back.
* `Open.text_injective`: such a value is no more than its text.
-/

open Text

/-- An enumeration whose members have different names. -/
class Named (α : Type) where
  members : List α
  name : α → Bytes
  complete : ∀ a, a ∈ members
  injective : Function.Injective name

/-- A member of an enumeration or a text that is the name of none. -/
inductive Open (α : Type) [Named α]
  | known (a : α)
  | other (text : Bytes) (h : ∀ a : α, Named.name a ≠ text)

namespace Open

variable {α : Type} [Named α]

def text : Open α → Bytes
  | known a => Named.name a
  | other text _ => text

def isKnown : Open α → Bool
  | known _ => true
  | other _ _ => false

/-- The member with a name, or the text itself. -/
def ofText (text : Bytes) : Open α :=
  match h : (Named.members : List α).find? fun a => Named.name a = text with
  | some a => known a
  | none => other text fun a ha =>
      List.find?_eq_none.mp h a (Named.complete a) (decide_eq_true ha)

/-- **A value is no more than its text.** -/
theorem text_injective : Function.Injective (text : Open α → Bytes) := by
  intro x y h
  cases x with
  | known a =>
    cases y with
    | known b => rw [Named.injective h]
    | other t ht => exact absurd h (ht a)
  | other t ht =>
    cases y with
    | known b => exact absurd h.symm (ht b)
    | other t' ht' =>
      obtain rfl : t = t' := h
      rfl

lemma text_ofText (t : Bytes) : (ofText t : Open α).text = t := by
  unfold ofText
  split
  · next a h =>
      have hname := List.find?_some h
      exact of_decide_eq_true hname
  · rfl

lemma ofText_text (x : Open α) : ofText x.text = x := text_injective (text_ofText x.text)

instance : DecidableEq (Open α) := fun x y =>
  decidable_of_iff (x.text = y.text) text_injective.eq_iff

lemma eq_known_iff {x : Open α} {a : α} : x = known a ↔ x.text = Named.name a :=
  ⟨fun h => congrArg text h, fun h => text_injective h⟩

/-- The text of a value is a name only if the value is that member. -/
lemma text_eq_iff {x : Open α} {a : α} {t : Bytes} (h : Named.name a = t) :
    x.text = t ↔ x = known a := by rw [← h, eq_known_iff]

/-- The texts that are names. -/
lemma isKnown_iff {x : Open α} : x.isKnown ↔ ∃ a ∈ (Named.members : List α), x.text = Named.name a := by
  cases x with
  | known a => exact ⟨fun _ => ⟨a, Named.complete a, rfl⟩, fun _ => rfl⟩
  | other t ht =>
    refine ⟨fun h => absurd h (by simp [isKnown]), fun ⟨a, _, ha⟩ => ?_⟩
    exact absurd ha.symm (ht a)

end Open
