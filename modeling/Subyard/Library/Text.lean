import Mathlib.Tactic
import Mathlib.Data.Nat.Digits.Lemmas

/-!
Byte strings: texts are lists of octets, as they stand in memory and on disk, and need not be
well-formed UTF-8.

* `str`: the octets of a literal.
* `runeLength`, `valid`, `coerce`: the UTF-8 reading of a text.  `coerce` puts the replacement
  character in the place of every octet that starts no character, which is what a JSON encoder
  does to the strings it writes.
* `hex`, `decimal`, `padded3`: the renderings of octets and of numbers, with `hex_injective`
  and `padded3_lt_padded3`, the agreement of the textual and the numerical order below `1000`.
* `isLower`, `isUpper`, `isDigit`, `isHex`: classes of seven-bit characters, and `parseUint`,
  `parseInt`, the decimal readings that refuse what does not fit in 64 bits.
-/

namespace Text

/-- A text: its octets in order. -/
abbrev Bytes := List UInt8

instance : LawfulBEq Bytes := inferInstance
instance : Std.Total fun a b : Bytes => a ≤ b := inferInstance
instance : Std.Antisymm fun a b : Bytes => a ≤ b := inferInstance
instance : IsTrans Bytes (· ≤ ·) := inferInstance

variable {n m : ℕ} {b : UInt8} {bs : Bytes}

/-- The octets of a literal. -/
def str (s : String) : Bytes := s.toList.flatMap String.utf8EncodeChar

/-! ### The UTF-8 reading of a text -/

/-- The octets that may follow the first octet `b` of a character. -/
def secondRange (b : UInt8) : UInt8 × UInt8 :=
  if b = 0xE0 then (0xA0, 0xBF)
  else if b = 0xED then (0x80, 0x9F)
  else if b = 0xF0 then (0x90, 0xBF)
  else if b = 0xF4 then (0x80, 0x8F)
  else (0x80, 0xBF)

/-- A continuation octet. -/
def isTail (b : UInt8) : Bool := 0x80 ≤ b && b ≤ 0xBF

/-- The number of octets of the character a text starts with, `none` if its first octet starts
no character. -/
def runeLength : Bytes → Option ℕ
  | [] => none
  | b :: rest =>
      let (lo, hi) := secondRange b
      if b < 0x80 then some 1
      else if 0xC2 ≤ b ∧ b ≤ 0xDF then
        match rest with
        | c :: _ => if lo ≤ c ∧ c ≤ hi then some 2 else none
        | _ => none
      else if 0xE0 ≤ b ∧ b ≤ 0xEF then
        match rest with
        | c :: d :: _ => if lo ≤ c ∧ c ≤ hi ∧ isTail d then some 3 else none
        | _ => none
      else if 0xF0 ≤ b ∧ b ≤ 0xF4 then
        match rest with
        | c :: d :: e :: _ => if lo ≤ c ∧ c ≤ hi ∧ isTail d ∧ isTail e then some 4 else none
        | _ => none
      else none

/-- The replacement character U+FFFD. -/
def replacement : Bytes := [0xEF, 0xBF, 0xBD]

/-- The scan behind `valid`: `n` octets of the current character are still to come. -/
def validFrom : ℕ → Bytes → Bool
  | _, [] => true
  | n + 1, _ :: bs => validFrom n bs
  | 0, b :: bs =>
      match runeLength (b :: bs) with
      | some n => validFrom (n - 1) bs
      | none => false

/-- A text is well-formed UTF-8. -/
def valid (bs : Bytes) : Bool := validFrom 0 bs

/-- The scan behind `coerce`: `n` octets of the current character are still to come. -/
def coerceFrom : ℕ → Bytes → Bytes
  | _, [] => []
  | n + 1, b :: bs => b :: coerceFrom n bs
  | 0, b :: bs =>
      match runeLength (b :: bs) with
      | some n => b :: coerceFrom (n - 1) bs
      | none => replacement ++ coerceFrom 0 bs

/-- A text with the replacement character in the place of every octet that starts no
character. -/
def coerce (bs : Bytes) : Bytes := coerceFrom 0 bs

lemma coerceFrom_of_validFrom : ∀ (bs : Bytes) (n : ℕ), validFrom n bs → coerceFrom n bs = bs
  | [], n, _ => by cases n <;> rfl
  | b :: bs, n + 1, h => by
    rw [coerceFrom, coerceFrom_of_validFrom bs n h]
  | b :: bs, 0, h => by
    rw [validFrom] at h
    rw [coerceFrom]
    cases hr : runeLength (b :: bs) with
    | none => simp [hr] at h
    | some n =>
      simp only [hr] at h
      simp only [coerceFrom_of_validFrom bs (n - 1) h]

/-- Well-formed texts are left alone. -/
lemma coerce_of_valid (h : valid bs) : coerce bs = bs :=
  coerceFrom_of_validFrom bs 0 h

/-- The replacement character is longer than the octet it replaces, so a coerced text is never
shorter, and is longer once an octet was replaced. -/
lemma length_coerceFrom : ∀ (bs : Bytes) (n : ℕ),
    bs.length ≤ (coerceFrom n bs).length
      ∧ (¬ validFrom n bs → bs.length < (coerceFrom n bs).length)
  | [], n => by cases n <;> simp [coerceFrom, validFrom]
  | b :: bs, n + 1 => by
    have ih := length_coerceFrom bs n
    simp only [coerceFrom, validFrom, List.length_cons]
    exact ⟨by omega, fun h => by have := ih.2 h; omega⟩
  | b :: bs, 0 => by
    rw [coerceFrom, validFrom]
    cases hr : runeLength (b :: bs) with
    | none =>
      have ih := length_coerceFrom bs 0
      simp only [replacement, List.length_append, List.length_cons, List.length_nil]
      exact ⟨by omega, fun _ => by omega⟩
    | some n =>
      have ih := length_coerceFrom bs (n - 1)
      simp only [List.length_cons]
      exact ⟨by omega, fun h => by have := ih.2 h; omega⟩

/-- The octets of a recognised character are kept, so it is recognised again. -/
lemma runeLength_coerceFrom (h : runeLength (b :: bs) = some n) :
    runeLength (b :: coerceFrom (n - 1) bs) = some n := by
  unfold runeLength at h ⊢
  dsimp only at h ⊢
  split_ifs at h ⊢
  · exact h
  · rcases bs with _ | ⟨c, bs⟩
    · cases h
    · dsimp only at h
      split_ifs at h with hc
      cases h
      simp [coerceFrom, hc]
  · rcases bs with _ | ⟨c, _ | ⟨d, bs⟩⟩
    · cases h
    · cases h
    · dsimp only at h
      split_ifs at h with hc
      cases h
      simp [coerceFrom, hc]
  · rcases bs with _ | ⟨c, _ | ⟨d, _ | ⟨e, bs⟩⟩⟩
    · cases h
    · cases h
    · cases h
    · dsimp only at h
      split_ifs at h with hc
      cases h
      simp [coerceFrom, hc]

lemma validFrom_coerceFrom : ∀ (bs : Bytes) (n : ℕ), validFrom n (coerceFrom n bs)
  | [], n => by cases n <;> rfl
  | b :: bs, n + 1 => by
    rw [coerceFrom, validFrom]
    exact validFrom_coerceFrom bs n
  | b :: bs, 0 => by
    rw [coerceFrom]
    cases hr : runeLength (b :: bs) with
    | none => exact validFrom_coerceFrom bs 0
    | some n =>
      simp only [validFrom, runeLength_coerceFrom hr]
      exact validFrom_coerceFrom bs (n - 1)

/-- **A coerced text is well formed.** -/
theorem valid_coerce (bs : Bytes) : valid (coerce bs) := validFrom_coerceFrom bs 0

/-- A second coercion changes nothing. -/
@[simp] lemma coerce_coerce (bs : Bytes) : coerce (coerce bs) = coerce bs :=
  coerce_of_valid (valid_coerce bs)

/-- Coercion empties no text. -/
@[simp] lemma coerce_eq_nil : coerce bs = [] ↔ bs = [] := by
  constructor
  · intro h
    have hle := (length_coerceFrom bs 0).1
    rw [show coerceFrom 0 bs = [] from h] at hle
    exact List.eq_nil_of_length_eq_zero (by simpa using hle)
  · rintro rfl
    rfl

/-- A text of seven-bit octets. -/
def Ascii (bs : Bytes) : Prop := ∀ b ∈ bs, b < 0x80

instance (bs : Bytes) : Decidable (Ascii bs) :=
  decidable_of_iff (bs.all (· < 0x80) = true) (by simp [Ascii])

lemma runeLength_of_lt (hb : b < 0x80) (bs : Bytes) : runeLength (b :: bs) = some 1 := by
  simp only [runeLength, if_pos hb]

/-- Seven-bit texts are well formed. -/
lemma Ascii.valid : ∀ {bs : Bytes}, Ascii bs → Text.valid bs
  | [], _ => rfl
  | b :: bs, h => by
    rw [Text.valid, validFrom, runeLength_of_lt (h b (by simp))]
    exact Ascii.valid fun c hc => h c (List.mem_cons_of_mem b hc)

lemma Ascii.append {cs : Bytes} (hb : Ascii bs) (hc : Ascii cs) : Ascii (bs ++ cs) := by
  intro x hx
  rcases List.mem_append.mp hx with h | h
  · exact hb x h
  · exact hc x h

lemma ascii_nil : Ascii [] := fun _ h => absurd h (by simp)

/-- What holds of the octets one by one holds of all of them. -/
lemma forall_octet {p : UInt8 → Prop} (h : ∀ n < 256, p (UInt8.ofNat n)) (b : UInt8) : p b := by
  simpa using h b.toNat b.toNat_lt

/-! ### Hexadecimal and decimal renderings -/

/-- A hexadecimal digit, lower case. -/
def hexDigit (n : ℕ) : UInt8 := if n < 10 then UInt8.ofNat (48 + n) else UInt8.ofNat (87 + n)

/-- The hexadecimal rendering of octets, two digits for each. -/
def hex (bs : Bytes) : Bytes :=
  bs.flatMap fun b => [hexDigit (b.toNat / 16), hexDigit (b.toNat % 16)]

/-- A decimal digit. -/
def digit (n : ℕ) : UInt8 := UInt8.ofNat (48 + n % 10)

/-- The decimal rendering of a number. -/
def decimal (n : ℕ) : Bytes :=
  if n = 0 then [48] else ((Nat.digits 10 n).reverse).map digit

/-- The decimal rendering of a number, padded with zeros to three digits. -/
def padded3 (n : ℕ) : Bytes :=
  if n < 1000 then [digit (n / 100), digit (n / 10), digit n] else decimal n

lemma toNat_digit (n : ℕ) : (digit n).toNat = 48 + n % 10 := by
  have h : n % 10 < 10 := Nat.mod_lt n (by norm_num)
  rw [digit, UInt8.toNat_ofNat', Nat.mod_eq_of_lt (by norm_num; omega)]

lemma digit_lt_digit : digit m < digit n ↔ m % 10 < n % 10 := by
  rw [UInt8.lt_iff_toNat_lt, toNat_digit, toNat_digit]
  omega

lemma digit_eq_digit : digit m = digit n ↔ m % 10 = n % 10 := by
  rw [← UInt8.toNat_inj, toNat_digit, toNat_digit]
  omega

lemma digit_ascii (n : ℕ) : digit n < 0x80 := by
  have h : n % 10 < 10 := Nat.mod_lt n (by norm_num)
  rw [UInt8.lt_iff_toNat_lt, toNat_digit]
  simp only [UInt8.reduceToNat]
  omega

lemma decimal_ascii (n : ℕ) : Ascii (decimal n) := by
  intro b hb
  rw [decimal] at hb
  split at hb
  · rw [List.mem_singleton.mp hb]
    decide
  · obtain ⟨d, _, rfl⟩ := List.mem_map.mp hb
    exact digit_ascii d

lemma padded3_ascii (n : ℕ) : Ascii (padded3 n) := by
  rw [padded3]
  split
  · intro b hb
    simp only [List.mem_cons, List.not_mem_nil, or_false] at hb
    rcases hb with rfl | rfl | rfl <;> exact digit_ascii _
  · exact decimal_ascii n

/-- **Below `1000` the textual order of the padded renderings is the numerical order.** -/
theorem padded3_lt_padded3 (hn : n < 1000) (h : m < n) : padded3 m < padded3 n := by
  rw [padded3, padded3, if_pos hn, if_pos (by omega)]
  simp only [List.cons_lt_cons_iff, digit_lt_digit, digit_eq_digit]
  omega

lemma toNat_hexDigit (h : n < 16) : (hexDigit n).toNat = if n < 10 then 48 + n else 87 + n := by
  rw [hexDigit]
  split <;> rw [UInt8.toNat_ofNat', Nat.mod_eq_of_lt (by norm_num; omega)]

lemma hexDigit_injective (hm : m < 16) (hn : n < 16) (h : hexDigit m = hexDigit n) : m = n := by
  have h' := congrArg UInt8.toNat h
  rw [toNat_hexDigit hm, toNat_hexDigit hn] at h'
  split at h' <;> split at h' <;> omega

lemma hexDigit_ascii (h : n < 16) : hexDigit n < 0x80 := by
  rw [UInt8.lt_iff_toNat_lt, toNat_hexDigit h]
  simp only [UInt8.reduceToNat]
  split <;> omega

lemma hex_ascii (bs : Bytes) : Ascii (hex bs) := by
  intro x hx
  obtain ⟨b, _, hb⟩ := List.mem_flatMap.mp hx
  have hlt := b.toNat_lt
  simp only [List.mem_cons, List.not_mem_nil, or_false] at hb
  rcases hb with rfl | rfl
  · exact hexDigit_ascii (by omega)
  · exact hexDigit_ascii (by omega)

@[simp] lemma length_hex (bs : Bytes) : (hex bs).length = 2 * bs.length := by
  induction bs with
  | nil => rfl
  | cons b bs ih =>
      rw [hex, List.flatMap_cons, List.length_append, ← hex, ih]
      simp only [List.length_cons, List.length_nil]
      omega

/-- Two digits for each octet determine the octets. -/
theorem hex_injective : Function.Injective hex := by
  intro bs
  induction bs with
  | nil =>
    intro cs h
    have hlen := congrArg List.length h
    rw [length_hex, length_hex] at hlen
    exact (List.eq_nil_of_length_eq_zero (by simpa using hlen.symm)).symm
  | cons b bs ih =>
    intro cs h
    cases cs with
    | nil =>
      have hlen := congrArg List.length h
      rw [length_hex, length_hex] at hlen
      simp at hlen
    | cons c cs =>
      simp only [hex, List.flatMap_cons, List.cons_append, List.nil_append,
        List.cons.injEq] at h
      obtain ⟨hhi, hlo, hrest⟩ := h
      have hb := b.toNat_lt
      have hc := c.toNat_lt
      have h1 := hexDigit_injective (by omega) (by omega) hhi
      have h2 := hexDigit_injective (by omega) (by omega) hlo
      have hbc : b = c := UInt8.toNat_inj.mp (by omega)
      rw [hbc, ih hrest]

/-! ### Character classes and decimal readings -/

def isLower (b : UInt8) : Bool := 97 ≤ b && b ≤ 122

def isUpper (b : UInt8) : Bool := 65 ≤ b && b ≤ 90

def isDigit (b : UInt8) : Bool := 48 ≤ b && b ≤ 57

/-- A hexadecimal digit, lower case. -/
def isHex (b : UInt8) : Bool := isDigit b || (97 ≤ b && b ≤ 102)

lemma isLower_ascii (h : isLower b) : b < 0x80 := by
  simp only [isLower, Bool.and_eq_true, decide_eq_true_eq, UInt8.le_iff_toNat_le] at h
  exact UInt8.lt_iff_toNat_lt.mpr (lt_of_le_of_lt h.2 (by decide))

lemma isUpper_ascii (h : isUpper b) : b < 0x80 := by
  simp only [isUpper, Bool.and_eq_true, decide_eq_true_eq, UInt8.le_iff_toNat_le] at h
  exact UInt8.lt_iff_toNat_lt.mpr (lt_of_le_of_lt h.2 (by decide))

lemma isDigit_ascii (h : isDigit b) : b < 0x80 := by
  simp only [isDigit, Bool.and_eq_true, decide_eq_true_eq, UInt8.le_iff_toNat_le] at h
  exact UInt8.lt_iff_toNat_lt.mpr (lt_of_le_of_lt h.2 (by decide))

lemma isHex_ascii (h : isHex b) : b < 0x80 := by
  rcases Bool.or_eq_true_iff.mp h with h | h
  · exact isDigit_ascii h
  · simp only [Bool.and_eq_true, decide_eq_true_eq, UInt8.le_iff_toNat_le] at h
    exact UInt8.lt_iff_toNat_lt.mpr (lt_of_le_of_lt h.2 (by decide))

lemma isDigit_digit (n : ℕ) : isDigit (digit n) := by
  have h : n % 10 < 10 := Nat.mod_lt n (by norm_num)
  simp only [isDigit, Bool.and_eq_true, decide_eq_true_eq, UInt8.le_iff_toNat_le, toNat_digit,
    UInt8.reduceToNat]
  omega

/-- A text all of whose octets are in a seven-bit class is seven-bit. -/
lemma ascii_of_all {p : UInt8 → Bool} (hp : ∀ b, p b → b < 0x80) (h : bs.all p) :
    Ascii bs := fun b hb => hp b (List.all_eq_true.mp h b hb)

/-- The number a non-empty text of digits denotes. -/
def parseDigits (bs : Bytes) : Option ℕ :=
  if bs ≠ [] ∧ bs.all isDigit then some (bs.foldl (fun n b => 10 * n + (b.toNat - 48)) 0) else none

/-- The decimal reading of an unsigned number below `2^64`. -/
def parseUint (bs : Bytes) : Option ℕ := (parseDigits bs).filter (· < 2 ^ 64)

/-- The decimal reading of a signed number of 64 bits. -/
def parseInt (bs : Bytes) : Option ℤ :=
  match bs with
  | 45 :: ds => (parseDigits ds).bind fun n => if n ≤ 2 ^ 63 then some (-(n : ℤ)) else none
  | 43 :: ds => (parseDigits ds).bind fun n => if n < 2 ^ 63 then some (n : ℤ) else none
  | ds => (parseDigits ds).bind fun n => if n < 2 ^ 63 then some (n : ℤ) else none

/-- **A number is read back from its decimal rendering.** -/
theorem parseDigits_decimal (n : ℕ) : parseDigits (decimal n) = some n := by
  by_cases hn : n = 0
  · subst hn
    decide
  have hall : ((Nat.digits 10 n).reverse.map digit).all isDigit := by
    simp [isDigit_digit]
  rw [parseDigits, decimal, if_neg hn, if_pos ⟨by simp [Nat.digits_ne_nil_iff_ne_zero.mpr hn], hall⟩]
  -- the fold over the reversed digits is the value of the digits
  have hfold : ∀ ds : List ℕ, (∀ d ∈ ds, d < 10) →
      (ds.reverse.map digit).foldl (fun n b => 10 * n + (b.toNat - 48)) 0 = Nat.ofDigits 10 ds := by
    intro ds hds
    induction ds with
    | nil => rfl
    | cons d ds ih =>
      have hd : (digit d).toNat - 48 = d := by
        have := hds d (by simp)
        rw [toNat_digit]
        omega
      have ih := ih fun e he => hds e (by simp [he])
      simp only [List.reverse_cons, List.map_append, List.foldl_append, ih, List.map_cons,
        List.map_nil, List.foldl_cons, List.foldl_nil, hd, Nat.ofDigits_cons]
      omega
  rw [hfold _ fun d hd => Nat.digits_lt_base (by norm_num) hd, Nat.ofDigits_digits]

/-- A decimal rendering is a non-empty text of digits. -/
lemma decimal_spec (n : ℕ) : decimal n ≠ [] ∧ (decimal n).all isDigit := by
  have h := parseDigits_decimal n
  rw [parseDigits] at h
  split at h
  · assumption
  · cases h

lemma decimal_injective : Function.Injective decimal := fun m n h => by
  have hm := parseDigits_decimal m
  rw [h, parseDigits_decimal n] at hm
  exact (Option.some.inj hm).symm

lemma length_decimal_le {k : ℕ} (hk : k ≠ 0) (hn : n < 10 ^ k) : (decimal n).length ≤ k := by
  rw [decimal]
  split_ifs
  · exact Nat.one_le_iff_ne_zero.mpr hk
  · rw [List.length_map, List.length_reverse, Nat.digits_length_le_iff (by norm_num)]
    exact hn

end Text
