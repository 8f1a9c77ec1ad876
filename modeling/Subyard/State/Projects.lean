import Subyard.History.Registry
import Subyard.Library.Open
import Subyard.Library.Rfc3339
import Subyard.Library.Sha256

/-!
The records of projects: their checks, their selectors and their order.

A project is selected by its name or by its id, both without regard to case: `projectNameKey`
is what selectors are compared by.
-/

namespace Subyard.State

open Text Fallible

/-- The errors of the package. -/
inductive Failure
  | message (text : Bytes)
  /-- An error that wraps `ErrAdmissionPending`. -/
  | admissionPending (text : Bytes)
deriving DecidableEq, Repr

/-! ### Texts -/

/-- `SafeProjectName`. -/
def safeProjectName (value : Bytes) : Bool := value.length ≤ 50 && domainSafeID value

/-- `ProjectNameKey`: `strings.ToLower`, for texts in ASCII. -/
def projectNameKey (value : Bytes) : Bytes := value.map fun b => if isUpper b then b + 32 else b

def projectNamesEqual (left right : Bytes) : Bool := projectNameKey left = projectNameKey right

/-- `SafeName`. -/
def safeName (value : Bytes) : Bool :=
  (value.head?.any fun b => isLower b || isDigit b)
    && value.all fun b => isLower b || isDigit b || b = 95 || b = 45

/-- The place of a project in a yard; a safe id has no part that `filepath.Join` would clean. -/
def yardPath (id : Bytes) : Bytes := str "/srv/workspaces/" ++ id ++ str "/src"

def sourceKey (source : Bytes) : Bytes := hex (Sha256.sum256 source)

/-- The check of a recorded source key. -/
def validSourceKey (key : Bytes) : Bool := key.length = 64 && key.all isHex

/-! ### Records -/

inductive ProjectMode
  | sync | git | bind
deriving DecidableEq, Repr

instance : Named ProjectMode where
  members := [.sync, .git, .bind]
  name
    | .sync => str "sync"
    | .git => str "git"
    | .bind => str "bind"
  complete a := by cases a <;> decide
  injective a b h := by cases a <;> cases b <;> first | rfl | exact absurd h (by decide)

structure ProjectRecord where
  schema : ℤ
  identityVersion : ℤ
  projectID : Bytes
  name : Bytes
  hostPath : Bytes
  sourceKey : Bytes
  yardPath : Bytes
  mode : Open ProjectMode
  sshHost : Bytes
  importedAt : Bytes
  target : Bytes
  profile : Bytes
  registrySource : Bytes
deriving DecidableEq

/-- The text of a number. -/
def integer (n : ℤ) : Bytes := if n < 0 then 45 :: decimal n.natAbs else decimal n.natAbs

def quoted (text : Bytes) : Bytes := 34 :: text ++ [34]

/-- `Validate`; an empty expected id stands for any. -/
def ProjectRecord.validate (record : ProjectRecord) (expectedID : Bytes) : Except Failure Unit := do
  refuse (record.schema ≠ 1)
    (.message (str "unsupported project state schema " ++ integer record.schema
      ++ str "; expected schema 1"))
  refuse (¬ domainSafeID record.projectID)
    (.message (str "invalid project ID " ++ quoted record.projectID))
  refuse (record.identityVersion ≠ 0 ∧ record.identityVersion ≠ 2)
    (.message (str "unsupported project identity version " ++ integer record.identityVersion))
  refuse (record.identityVersion = 2
      ∧ (record.projectID ≠ record.name ∨ ¬ safeProjectName record.name))
    (.message (str "canonical project identity requires ProjectID == Name and a safe name"))
  refuse (expectedID ≠ [] ∧ record.projectID ≠ expectedID)
    (.message (str "project ID " ++ quoted record.projectID ++ str " does not match filename "
      ++ quoted expectedID))
  refuse (record.name = [] ∨ record.yardPath = [] ∨ record.sshHost = [])
    (.message (str "project name, yard path and SSH host are required"))
  refuse (record.sourceKey ≠ [] ∧ ¬ validSourceKey record.sourceKey)
    (.message (str "project source key must be a SHA-256 hex digest"))
  refuse (record.yardPath ≠ State.yardPath record.projectID)
    (.message (str "project yard path must be " ++ quoted (State.yardPath record.projectID)))
  refuse (¬ record.mode.isKnown)
    (.message (str "invalid project mode " ++ quoted record.mode.text))
  refuse (record.target ≠ [] ∧ record.target ≠ str "yard" ∧ ¬ safeName record.target)
    (.message (str "invalid project target " ++ quoted record.target))
  refuse (record.profile ≠ [] ∧ ¬ safeName record.profile)
    (.message (str "invalid project profile " ++ quoted record.profile))
  refuse (record.registrySource ≠ [] ∧ record.registrySource ≠ str "yard")
    (.message (str "invalid registry source " ++ quoted record.registrySource))

/-! ### The order of import -/

def importedTime (value : Bytes) : Option Rfc3339.Time :=
  if value = [] then none else Rfc3339.parse value

/-- The fields of a time from the largest unit on, in whose order times follow each other. -/
def instant (t : Rfc3339.Time) : List ℤ :=
  [t.year, t.month, t.day, t.hour, t.minute, t.second, t.nano]

/-- The order in which names are given: by the time of import, records without one last, and
by the id. -/
def ProjectRecord.importedBefore (left right : ProjectRecord) : Bool :=
  match importedTime left.importedAt, importedTime right.importedAt with
  | some l, some r =>
      if instant l ≠ instant r then instant l < instant r else left.projectID < right.projectID
  | some _, none => true
  | none, some _ => false
  | none, none => left.projectID < right.projectID

/-- `sort.SliceStable` by that order. -/
def importOrder (records : List ProjectRecord) : List ProjectRecord :=
  records.insertionSort fun left right => ¬ right.importedBefore left

/-- What may come first. -/
lemma not_importedBefore_iff {left right : ProjectRecord} : ¬ right.importedBefore left
    ↔ match importedTime left.importedAt, importedTime right.importedAt with
      | some l, some r =>
        instant l < instant r ∨ instant l = instant r ∧ left.projectID ≤ right.projectID
      | some _, none => True
      | none, some _ => False
      | none, none => left.projectID ≤ right.projectID := by
  rw [ProjectRecord.importedBefore]
  cases importedTime left.importedAt <;> cases importedTime right.importedAt
  · simp
  · simp
  · simp
  next l r =>
    dsimp only
    by_cases h : instant l = instant r
    · simp [h]
    · rw [if_pos (Ne.symm h), decide_eq_true_eq, List.not_lt, List.le_iff_lt_or_eq]
      simp [h]

instance : Std.Total fun left right : ProjectRecord => ¬ right.importedBefore left := ⟨by
  intro left right
  rw [not_importedBefore_iff, not_importedBefore_iff]
  cases importedTime left.importedAt <;> cases importedTime right.importedAt
  · exact List.le_total _ _
  · exact .inr trivial
  · exact .inl trivial
  next l r =>
      rcases lt_trichotomy (instant l) (instant r) with h | h | h
      · exact .inl (.inl h)
      · exact (List.le_total left.projectID right.projectID).imp (fun h' => .inr ⟨h, h'⟩)
          fun h' => .inr ⟨h.symm, h'⟩
      · exact .inr (.inl h)⟩

instance : IsTrans ProjectRecord fun left right => ¬ right.importedBefore left := ⟨by
  intro a b c
  rw [not_importedBefore_iff, not_importedBefore_iff, not_importedBefore_iff]
  cases importedTime a.importedAt <;> cases importedTime b.importedAt
    <;> cases importedTime c.importedAt
  case none.none.none => exact fun h h' => List.le_trans h h'
  case some.some.some x y z =>
      rintro (h | ⟨h, hid⟩) (h' | ⟨h', hid'⟩)
      · exact .inl (h.trans h')
      · exact .inl (h' ▸ h)
      · exact .inl (h ▸ h')
      · exact .inr ⟨h.trans h', List.le_trans hid hid'⟩
  all_goals simp⟩

/-- The records come in that order. -/
lemma importOrder_pairwise (records : List ProjectRecord) :
    (importOrder records).Pairwise fun left right => ¬ right.importedBefore left :=
  List.pairwise_insertionSort _ records

lemma importOrder_perm (records : List ProjectRecord) : (importOrder records).Perm records :=
  List.perm_insertionSort _ records

end Subyard.State
