import Subyard.Library.Dict
import Subyard.Library.Json

/-!
The merge patch of RFC 7396 for JSON values.

* `mergePatch`: a patch that is an object changes the members it names, removes those for which
  it has `null` and leaves the others; any other patch replaces the target.
* `Object`: what an object means, its members by name, and `Object.patch`: the patch of an
  object by an object.
-/

open Text

namespace Json

/-- The member of that name. -/
def member (name : Bytes) (members : List (Bytes × Json)) : Option Json :=
  (members.find? fun m => m.1 = name).map Prod.snd

/-- The members with one replaced, or added at the end. -/
def setMember (name : Bytes) (value : Json) : List (Bytes × Json) → List (Bytes × Json)
  | [] => [(name, value)]
  | m :: members => if m.1 = name then (name, value) :: members else m :: setMember name value members

def membersOf : Json → List (Bytes × Json)
  | obj members => members
  | _ => []

mutual

/-- The target with the patch applied. -/
def mergePatch (target : Json) : Json → Json
  | null => null
  | bool b => bool b
  | num n => num n
  | real literal => real literal
  | str s => str s
  | arr items => arr items
  | obj patch => obj (mergeMembers (membersOf target) patch)

/-- The members with those of the patch applied one after the other. -/
def mergeMembers (target : List (Bytes × Json)) : List (Bytes × Json) → List (Bytes × Json)
  | [] => target
  | (name, null) :: rest => mergeMembers (target.filter fun m => m.1 ≠ name) rest
  | (name, value) :: rest =>
      mergeMembers (setMember name (mergePatch ((member name target).getD null) value) target) rest

end

/-! ### Objects by the names of their members -/

/-- The members of an object by name. -/
abbrev Object := Dict Bytes Json

/-- What an object means: of two members of one name the later counts. -/
def objectOf (members : List (Bytes × Json)) : Object :=
  members.foldl (fun acc m => Finmap.insert m.1 m.2 acc) ∅

/-- The member of the patched object. -/
def patched (old : Option Json) : Json → Option Json
  | null => none
  | value => some (mergePatch (old.getD null) value)

/-- An object with the members of the patch applied. -/
def Object.patch (target patch : Object) : Object :=
  (Dict.select (fun name _ => (patch.lookup name).elim (target.lookup name)
    (patched (target.lookup name))) (target ∪ patch))

end Json
