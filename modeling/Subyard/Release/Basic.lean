import Subyard.History.Registry
import Subyard.Library.Decode
import Subyard.Library.Sha256

/-!
What the records of a release transition share: errors, fingerprints, snapshots of protected
records, and the bounded decoding of a record.
-/

namespace Subyard.Release

open Text Fallible

/-- The errors of the package. -/
inductive Failure
  /-- An error that wraps `ErrInvalid`. -/
  | invalid (message : Bytes)
  /-- `ErrProtectedStoreStale`. -/
  | stale
  /-- `ErrProtectedStoreExists`. -/
  | alreadyExists
  | other (message : Bytes)
deriving DecidableEq, Repr

/-! ### Fingerprints -/

/-- `Fingerprint`: a digest in hexadecimal. -/
abbrev Fingerprint := Bytes

/-- `validFingerprint`, the same test as that of a pin in the history of migrations. -/
def validFingerprint (value : Fingerprint) : Bool := History.validPin value

def validateFingerprint (value : Fingerprint) (field : String) : Except Failure Unit :=
  refuse (¬ validFingerprint value)
    (.invalid (str field ++ str " must be a lowercase SHA-256 fingerprint"))

def validateSafeID (value : Bytes) (field : String) : Except Failure Unit :=
  refuse (value.length > 128 ∨ ¬ domainSafeID value) (.invalid (str field ++ str " is not a safe ID"))

def fingerprintPayload (payload : Bytes) : Fingerprint := hex (Sha256.sum256 payload)

lemma validPin_eq (pin : Bytes) : History.validPin pin = (pin.length = 64 && pin.all isHex) := rfl

lemma validFingerprint_fingerprintPayload (payload : Bytes) :
    validFingerprint (fingerprintPayload payload) := by
  rw [validFingerprint, validPin_eq, fingerprintPayload, Bool.and_eq_true, decide_eq_true_eq]
  exact Sha256.hex_sum256 payload

/-- Fingerprints are seven-bit texts. -/
lemma valid_of_validFingerprint {value : Fingerprint} (h : validFingerprint value) :
    valid value := by
  rw [validFingerprint, validPin_eq, Bool.and_eq_true] at h
  exact (ascii_of_all (fun b => isHex_ascii) h.2).valid

/-- Safe ids are seven-bit texts. -/
lemma valid_of_safeID {id : Bytes} (h : History.safeID id) : valid id := by
  have hid : domainSafeID id := (Bool.and_eq_true_iff.mp h).2
  have hall : id.all fun b =>
      isLower b || isUpper b || isDigit b || b = 46 || b = 95 || b = 45 :=
    (Bool.and_eq_true_iff.mp hid).2
  refine (ascii_of_all (fun b hb => ?_) hall).valid
  simp only [Bool.or_eq_true, decide_eq_true_eq] at hb
  rcases hb with ((((hb | hb) | hb) | rfl) | rfl) | rfl
  · exact isLower_ascii hb
  · exact isUpper_ascii hb
  · exact isDigit_ascii hb
  all_goals decide

/-! ### Protected records -/

/-- `MaxProtectedRecordBytes`. -/
def maxProtectedRecordBytes : ℕ := 2 ^ 20

/-- `ProtectedSnapshot`. -/
structure ProtectedSnapshot where
  exists' : Bool
  payload : Bytes
  fingerprint : Fingerprint
deriving DecidableEq, Repr

def absentProtectedSnapshot : ProtectedSnapshot :=
  ⟨false, [], fingerprintPayload (str "protected-record-absent-v1")⟩

def validProtectedSnapshot (s : ProtectedSnapshot) : Bool :=
  if s.exists' then
    s.payload ≠ [] && s.payload.length ≤ maxProtectedRecordBytes
      && s.fingerprint = fingerprintPayload s.payload
  else s.payload = [] && s.fingerprint = absentProtectedSnapshot.fingerprint

/-- The check of the size of what is written. -/
def validateProtectedPayload (payload : Bytes) : Except Failure Unit :=
  refuse (payload = [] ∨ payload.length > maxProtectedRecordBytes)
    (.other (str "protected release transition record size is outside the allowed bound"))

/-- `readProtectedAt`: what is read of a record that is absent or has some contents. -/
def readProtected : Option Bytes → Except Failure ProtectedSnapshot
  | none => .ok absentProtectedSnapshot
  | some payload => do
      refuse (payload = [] ∨ payload.length > maxProtectedRecordBytes)
        (.other (str "protected release transition record size is outside the allowed bound"))
      pure ⟨true, payload, fingerprintPayload payload⟩

/-- A record that can be read determines its snapshot, and the snapshot it. -/
lemma readProtected_ok {record : Option Bytes} {s : ProtectedSnapshot}
    (h : readProtected record = .ok s) :
    validProtectedSnapshot s ∧ record = if s.exists' then some s.payload else none := by
  cases record with
  | none =>
    cases h
    exact ⟨by simp [validProtectedSnapshot, absentProtectedSnapshot], rfl⟩
  | some payload =>
    obtain ⟨hsize, h⟩ := refuse_bind.mp h
    cases h
    rw [not_or, not_lt] at hsize
    exact ⟨by simp [validProtectedSnapshot, hsize.1, hsize.2], rfl⟩

/-! ### Bounded decoding -/

/-- `decodeBoundedRecord`.  The texts of the errors of the JSON package are left out. -/
def decodeBoundedRecord {α : Type} (fields : List (Json.Field α)) (zero : α) (payload : Bytes)
    (maximum : ℕ) : Except Failure α := do
  refuse (payload = [] ∨ payload.length > maximum)
    (.invalid (str "record size is outside the allowed bound"))
  match (Json.parse payload).bind (Json.decodeRecord fields zero) with
  | some record => pure record
  | none => .error (.invalid (str "record is malformed"))

end Subyard.Release
