import Subyard.Library.Fallible
import Subyard.Lease.Slot

/-!
The checks on names and texts that the lease store makes before it writes anything.

* `slotName`, `slotNumber`: the name of a numbered slot and the number of a name.
* `brokerRecordID`, `brokerSlotID`: the two regular expressions of the recovery journal.
* `safeLeaseText`, `safeLeaseLabel`, `validateLeaseContext`, `EnvironmentSpec.validate`: the
  admission checks.
* `boundedReason`: the form in which a failure text is kept.

Every accepted label, attribution and size is seven-bit (the `_ascii` lemmas), so that only the
texts without a character check can hold octets the JSON encoder would replace.
-/

namespace Subyard.Lease

open Text Fallible

variable {value : Bytes} {context : LeaseContext}

/-! ### Slot names -/

/-- `fmt.Sprintf("slot-%03d", number)`. -/
def slotName (number : ℕ) : Bytes := str "slot-" ++ padded3 number

/-- `slotNumberUnbounded`. -/
def slotNumberUnbounded (id : Bytes) : Option ℕ :=
  if id.take 5 = str "slot-" then
    match parseInt (id.drop 5) with
    | some value => if value < 1 then none else some value.toNat
    | none => none
  else none

/-- `slotNumber`: the number of a slot name, if it is at most `maximum`. -/
def slotNumber (id : Bytes) (maximum : ℕ) : Option ℕ :=
  (slotNumberUnbounded id).filter (· ≤ maximum)

/-- `^slot-[0-9]{3}$`. -/
def brokerSlotID (id : Bytes) : Bool :=
  id.length = 8 && id.take 5 = str "slot-" && (id.drop 5).all isDigit

/-- `^[0-9]{20}-[0-9a-f]{16}$`. -/
def brokerRecordID (id : Bytes) : Bool :=
  id.length = 37 && (id.take 20).all isDigit && (id.drop 20).take 1 = str "-"
    && (id.drop 21).all isHex

/-- `LeaseIdentity.validate`. -/
def LeaseIdentity.validate (identity : LeaseIdentity) : Except LeaseError Unit :=
  refuse (!brokerSlotID identity.slotID ∨ identity.resourceGeneration = 0
      ∨ identity.leaseEpoch = 0)
    (.other (str "complete lease target identity is required"))

/-! ### Texts -/

/-- `safeLeaseText`: short enough and without the four control characters. -/
def safeLeaseText (value : Bytes) (maximum : ℕ) : Bool :=
  value.length ≤ maximum && value.all fun b => b ≠ 0 && b ≠ 13 && b ≠ 10 && b ≠ 9

def isLabelChar (b : UInt8) : Bool :=
  isLower b || isUpper b || isDigit b || b ∈ str "._/+-:"

/-- `safeLeaseLabel`. -/
def safeLeaseLabel (value : Bytes) (maximum : ℕ) : Bool :=
  value ≠ [] && value.length ≤ maximum
    && value.head? ≠ some 47 && value.getLast? ≠ some 47 && ¬ [47, 47] <:+: value
    && (value.splitOn 47).all (fun component => component ≠ str "." && component ≠ str "..")
    && value.all isLabelChar

/-- `safeCanonicalYard`. -/
def safeCanonicalYard (value : Bytes) : Bool :=
  value ≠ [] && value.length ≤ 32
    && (value.head?.elim false fun b => isLower b || isDigit b)
    && value.all fun b => isLower b || isDigit b || b = 95 || b = 45

/-- `domain.SafeID`. -/
def safeID (value : Bytes) : Bool :=
  value ≠ [] && value ≠ str "." && value ≠ str ".." && value.head? ≠ some 45
    && value.all fun b => isLower b || isUpper b || isDigit b || b = 46 || b = 95 || b = 45

/-- `domain.SafeProjectName`. -/
def safeProjectName (value : Bytes) : Bool := value.length ≤ 50 && safeID value

/-- `boundedReason`: `strings.Map` drops the control characters (and replaces what is not
UTF-8), then the text is cut after 240 octets. -/
def boundedReason (value : Bytes) : Bytes :=
  ((coerce value).filter fun b => ¬ (b < 0x20 ∨ b = 0x7f)).take 240

/-! ### Attribution -/

/-- `contextDisplayLabel`. -/
def contextDisplayLabel (context : LeaseContext) : Bytes :=
  if context.schemaVersion = leaseAttributionSchemaVersion then
    context.project ++ str "#" ++ context.run
  else context.project ++ str "@" ++ context.checkout ++ str "#" ++ context.run

/-- The first of the three labels that `validateLeaseContext` refuses. -/
def firstBadLabel (context : LeaseContext) : Option Bytes :=
  ([(str "project", context.project, 50), (str "run", context.run, 24),
    (str "purpose", context.purpose, 80)].find? fun field =>
      !safeLeaseLabel field.2.1 field.2.2).map (·.1)

/-- `validateLeaseContext`. -/
def validateLeaseContext (context : LeaseContext) : Except LeaseError Unit := do
  let v1 := context.schemaVersion = leaseAttributionSchemaV1
  let v2 := context.schemaVersion = leaseAttributionSchemaVersion
  refuse (¬ v1 ∧ ¬ v2) (.other (str "unsupported lease attribution schema"))
  refuse (v1 ∧ (context.yard ≠ [] ∨ context.checkout = []))
    (.other (str "invalid schema-1 lease attribution"))
  refuse (¬ v1 ∧ (context.yard = [] ∨ context.checkout ≠ []))
    (.other (str "invalid schema-2 lease attribution"))
  refuse (firstBadLabel context).isSome
    (.other (str "invalid lease attribution " ++ (firstBadLabel context).getD []))
  refuse (v1 ∧ !safeLeaseLabel context.checkout 24)
    (.other (str "invalid lease attribution checkout"))
  refuse (v2 ∧ !safeCanonicalYard context.yard) (.other (str "invalid lease attribution yard"))
  refuse (v2 ∧ !safeProjectName context.project)
    (.other (str "invalid canonical project attribution"))
  refuse (!safeLeaseText (contextDisplayLabel context) 80)
    (.other (str "lease attribution is too long"))

/-- `strings.LastIndex` of a one-octet text, `-1` if it does not occur. -/
def lastIndex (value : Bytes) (b : UInt8) : ℤ :=
  match value.reverse.findIdx? (· == b) with
  | some i => value.length - 1 - i
  | none => -1

/-- `legacyLeaseContext`: a label of the form `project@checkout#run`, if it passes the checks. -/
def legacyLeaseContext (label purpose : Bytes) : Option LeaseContext :=
  let hash := lastIndex label 35
  let at' := lastIndex label 64
  if at' ≤ 0 ∨ hash ≤ at' + 1 ∨ hash = label.length - 1 then none
  else
    let context : LeaseContext :=
      { schemaVersion := leaseAttributionSchemaV1
        project := label.take at'.toNat
        checkout := (label.take hash.toNat).drop (at'.toNat + 1)
        run := label.drop (hash.toNat + 1)
        purpose := purpose }
    match validateLeaseContext context with
    | .ok _ => some context
    | .error _ => none

/-! ### Environments -/

def environmentPair : Bytes := str "subyard-pair"
def environmentAndroid : Bytes := str "android-test"
def disposableLifecycle : Bytes := str "disposable-v1"

/-- `sizeMiB`: the number of mebibytes that a text of the form `^([1-9][0-9]*)(MiB|GiB)$`
denotes, if it is in range. -/
def sizeMiB (value : Bytes) : Option ℕ :=
  let digits := value.take (value.length - 3)
  let unit := value.drop (value.length - 3)
  if (unit = str "MiB" ∨ unit = str "GiB") ∧ digits.head? ≠ some 48 then
    match parseUint digits with
    | some number =>
        if number = 0 ∨ 2 ^ 30 < number then none
        else
          let number := if unit = str "GiB" then number * 1024 else number
          if 2 ^ 30 < number then none else some number
    | none => none
  else none

/-- `EnvironmentSpec.Validate`. -/
def EnvironmentSpec.validate (spec : EnvironmentSpec) : Except LeaseError Unit := do
  refuse (spec.lifecycle ≠ disposableLifecycle ∨ spec.cpu < 1)
    (.other (str "invalid environment lifecycle or CPU limit"))
  refuse ((spec.name ≠ environmentPair ∨ (spec.count ≠ 1 ∧ spec.count ≠ 2))
      ∧ (spec.name ≠ environmentAndroid ∨ spec.count ≠ 1))
    (.other (str "invalid named environment composition"))
  refuse (sizeMiB spec.memory).isNone (.other (str "invalid environment memory limit"))
  refuse ((sizeMiB spec.disk).all (· < 10 * 1024))
    (.other (str "environment disk must be at least 10GiB"))

/-! ### Accepted texts are seven-bit -/

lemma slotName_ascii (number : ℕ) : Ascii (slotName number) :=
  (show Ascii (str "slot-") by decide).append (padded3_ascii number)

/-- The name of a slot is stored as it is. -/
@[simp] lemma coerce_slotName (number : ℕ) : coerce (slotName number) = slotName number :=
  coerce_of_valid (slotName_ascii number).valid

lemma isLabelChar_ascii {b : UInt8} (h : isLabelChar b) : b < 0x80 := by
  simp only [isLabelChar, Bool.or_eq_true, decide_eq_true_eq] at h
  rcases h with ((h | h) | h) | h
  · exact isLower_ascii h
  · exact isUpper_ascii h
  · exact isDigit_ascii h
  · exact (show Ascii (str "._/+-:") by decide) b h

lemma safeLeaseLabel_ascii {maximum : ℕ} (h : safeLeaseLabel value maximum) : Ascii value := by
  simp only [safeLeaseLabel, Bool.and_eq_true] at h
  exact ascii_of_all (fun _ => isLabelChar_ascii) h.2

lemma safeCanonicalYard_ascii (h : safeCanonicalYard value) : Ascii value := by
  simp only [safeCanonicalYard, Bool.and_eq_true] at h
  refine ascii_of_all (fun b hb => ?_) h.2
  simp only [Bool.or_eq_true, decide_eq_true_eq] at hb
  rcases hb with ((hb | hb) | rfl) | rfl
  · exact isLower_ascii hb
  · exact isDigit_ascii hb
  · decide
  · decide

lemma brokerRecordID_ascii {id : Bytes} (h : brokerRecordID id) : Ascii id := by
  simp only [brokerRecordID, Bool.and_eq_true, decide_eq_true_eq] at h
  obtain ⟨⟨⟨_, hdigits⟩, hdash⟩, hhex⟩ := h
  have hsplit : id = id.take 20 ++ ((id.drop 20).take 1 ++ id.drop 21) := by
    rw [show id.drop 21 = (id.drop 20).drop 1 by rw [List.drop_drop], List.take_append_drop,
      List.take_append_drop]
  rw [hsplit, hdash]
  exact (ascii_of_all (fun _ => isDigit_ascii) hdigits).append
    ((show Ascii (str "-") by decide).append (ascii_of_all (fun _ => isHex_ascii) hhex))

/-- The texts of an attribution are seven-bit. -/
structure LeaseContext.AsciiTexts (context : LeaseContext) : Prop where
  yard : Ascii context.yard
  project : Ascii context.project
  checkout : Ascii context.checkout
  run : Ascii context.run
  purpose : Ascii context.purpose

lemma firstBadLabel_eq_none (h : firstBadLabel context = none) :
    safeLeaseLabel context.project 50 ∧ safeLeaseLabel context.run 24
      ∧ safeLeaseLabel context.purpose 80 := by
  simpa [firstBadLabel] using h

/-- What `validateLeaseContext` accepts is seven-bit in every field: the field it does not check
is empty in the schema it belongs to. -/
lemma validateLeaseContext_ascii (h : validateLeaseContext context = .ok ()) :
    context.AsciiTexts := by
  simp only [validateLeaseContext, refuse_bind, refuse_eq_ok] at h
  obtain ⟨hschema, hv1, hv2, hlabels, hcheckout, hyard, _⟩ := h
  obtain ⟨hproject, hrun, hpurpose⟩ :=
    firstBadLabel_eq_none (Option.not_isSome_iff_eq_none.mp (by simpa using hlabels))
  by_cases hone : context.schemaVersion = leaseAttributionSchemaV1
  · simp only [hone, true_and, not_or, not_not] at hv1 hcheckout
    exact ⟨by rw [hv1.1]; exact ascii_nil, safeLeaseLabel_ascii hproject,
      safeLeaseLabel_ascii (by simpa using hcheckout), safeLeaseLabel_ascii hrun,
      safeLeaseLabel_ascii hpurpose⟩
  · simp only [hone, not_false_eq_true, true_and, not_or, not_not] at hv2 hschema
    simp only [hschema, true_and] at hyard
    exact ⟨safeCanonicalYard_ascii (by simpa using hyard), safeLeaseLabel_ascii hproject,
      by rw [hv2.2]; exact ascii_nil, safeLeaseLabel_ascii hrun, safeLeaseLabel_ascii hpurpose⟩

lemma LeaseContext.AsciiTexts.displayLabel (h : context.AsciiTexts) :
    Ascii (contextDisplayLabel context) := by
  have hhash : Ascii (str "#") := by decide
  rw [contextDisplayLabel]
  split
  · exact (h.project.append hhash).append h.run
  · exact (((h.project.append (by decide)).append h.checkout).append hhash).append h.run

lemma legacyLeaseContext_ascii {label purpose : Bytes}
    (h : legacyLeaseContext label purpose = some context) : context.AsciiTexts := by
  rw [legacyLeaseContext] at h
  split at h
  · cases h
  · dsimp only at h
    split at h
    · cases h
      exact validateLeaseContext_ascii (by assumption)
    · cases h

/-- The last occurrence is an occurrence. -/
lemma getElem?_lastIndex (value : Bytes) (b : UInt8) (h : 0 ≤ lastIndex value b) :
    value[(lastIndex value b).toNat]? = some b := by
  rw [lastIndex] at h ⊢
  cases hi : value.reverse.findIdx? (· == b) with
  | none => simp [hi] at h
  | some i =>
    obtain ⟨hlt, hb, _⟩ := List.findIdx?_eq_some_iff_getElem.mp hi
    rw [List.length_reverse] at hlt
    have hidx : ((value.length : ℤ) - 1 - i).toNat = value.length - 1 - i := by omega
    simp only [hidx]
    rw [List.getElem_reverse, beq_iff_eq] at hb
    rw [List.getElem?_eq_getElem (by omega), hb]

/-- A label that `legacyLeaseContext` takes apart is seven-bit as a whole: it is its three parts
and the two separators. -/
lemma legacyLeaseContext_label_ascii {label purpose : Bytes}
    (h : legacyLeaseContext label purpose = some context) : Ascii label := by
  have hascii := legacyLeaseContext_ascii h
  rw [legacyLeaseContext] at h
  split at h
  · cases h
  · rename_i hidx
    simp only [not_or, not_le] at hidx
    dsimp only at h
    split at h
    · cases h
      have hat := getElem?_lastIndex label 64 (by omega)
      have hhash := getElem?_lastIndex label 35 (by omega)
      intro b hb
      obtain ⟨i, hi, rfl⟩ := List.mem_iff_getElem.mp hb
      rcases lt_trichotomy i (lastIndex label 64).toNat with hlt | rfl | hgt
      · exact hascii.project _ (List.mem_iff_getElem.mpr ⟨i, by simp; omega, by simp⟩)
      · rw [List.getElem?_eq_getElem hi] at hat
        rw [Option.some.inj hat]
        decide
      · rcases lt_trichotomy i (lastIndex label 35).toNat with hlt | rfl | hgt'
        · refine hascii.checkout _ (List.mem_iff_getElem.mpr
            ⟨i - ((lastIndex label 64).toNat + 1), by simp; omega, ?_⟩)
          simp only [List.getElem_drop, List.getElem_take]
          congr 1
          omega
        · rw [List.getElem?_eq_getElem hi] at hhash
          rw [Option.some.inj hhash]
          decide
        · refine hascii.run _ (List.mem_iff_getElem.mpr
            ⟨i - ((lastIndex label 35).toNat + 1), by simp; omega, ?_⟩)
          simp only [List.getElem_drop]
          congr 1
          omega
    · cases h

lemma parseUint_ascii {bs : Bytes} {n : ℕ} (h : parseUint bs = some n) : Ascii bs := by
  rw [parseUint, Option.filter_eq_some_iff, parseDigits] at h
  split at h
  · rename_i hd
    exact ascii_of_all (fun _ => isDigit_ascii) hd.2
  · cases h.1

lemma sizeMiB_ascii {n : ℕ} (h : sizeMiB value = some n) : Ascii value := by
  rw [sizeMiB] at h
  dsimp only at h
  split at h
  · rename_i hform
    split at h
    · rename_i number hnumber
      rw [← List.take_append_drop (value.length - 3) value]
      refine (parseUint_ascii hnumber).append ?_
      rcases hform.1 with hunit | hunit <;> rw [hunit] <;> decide
    · cases h
  · cases h

/-- The texts of an accepted environment are seven-bit. -/
structure EnvironmentSpec.AsciiTexts (spec : EnvironmentSpec) : Prop where
  name : Ascii spec.name
  memory : Ascii spec.memory
  disk : Ascii spec.disk
  lifecycle : Ascii spec.lifecycle

lemma EnvironmentSpec.validate_ascii {spec : EnvironmentSpec} (h : spec.validate = .ok ()) :
    spec.AsciiTexts := by
  simp only [EnvironmentSpec.validate, refuse_bind, refuse_eq_ok] at h
  obtain ⟨hlife, hname, hmemory, hdisk⟩ := h
  refine ⟨?_, ?_, ?_, ?_⟩
  · by_cases hpair : spec.name = environmentPair
    · rw [hpair]
      decide
    · by_cases handroid : spec.name = environmentAndroid
      · rw [handroid]
        decide
      · exact absurd ⟨Or.inl hpair, Or.inl handroid⟩ hname
  · cases hs : sizeMiB spec.memory with
    | none => simp [hs] at hmemory
    | some n => exact sizeMiB_ascii hs
  · cases hs : sizeMiB spec.disk with
    | none => simp [hs] at hdisk
    | some n => exact sizeMiB_ascii hs
  · rw [not_not.mp (not_or.mp hlife).1]
    decide

end Subyard.Lease
