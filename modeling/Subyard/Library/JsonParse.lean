import Mathlib.Data.List.TakeWhile
import Subyard.Library.Json

/-!
The reader of JSON texts.

* `readString`: the text of a string literal, with its escapes.
* `parse`: the value of a whole text, blanks allowed around every part.
* `parse_render`: **what was rendered is read back**, if its strings are well-formed.
-/

open Text

namespace Json

/-! ### Strings -/

/-- The UTF-8 text of a code point. -/
def encodeRune (n : ℕ) : Bytes :=
  if n < 0x80 then [UInt8.ofNat n]
  else if n < 0x800 then [UInt8.ofNat (0xC0 + n / 64), UInt8.ofNat (0x80 + n % 64)]
  else if n < 0x10000 then
    [UInt8.ofNat (0xE0 + n / 4096), UInt8.ofNat (0x80 + n / 64 % 64), UInt8.ofNat (0x80 + n % 64)]
  else
    [UInt8.ofNat (0xF0 + n / 262144), UInt8.ofNat (0x80 + n / 4096 % 64),
      UInt8.ofNat (0x80 + n / 64 % 64), UInt8.ofNat (0x80 + n % 64)]

def hexValue (b : UInt8) : Option ℕ :=
  if isDigit b then some (b.toNat - 48)
  else if 97 ≤ b ∧ b ≤ 102 then some (b.toNat - 87)
  else if 65 ≤ b ∧ b ≤ 70 then some (b.toNat - 55)
  else none

/-- Four hexadecimal digits. -/
def readHex4 : Bytes → Option (ℕ × Bytes)
  | a :: b :: c :: d :: rest => do
      let a ← hexValue a
      let b ← hexValue b
      let c ← hexValue c
      let d ← hexValue d
      some (((a * 16 + b) * 16 + c) * 16 + d, rest)
  | _ => none

/-- The second half of a surrogate pair, if it follows. -/
def readLow : Bytes → Option (ℕ × Bytes)
  | 92 :: 117 :: rest => (readHex4 rest).filter fun low => 0xDC00 ≤ low.1 ∧ low.1 < 0xE000
  | _ => none

/-- The character of a `\u` escape; half a surrogate pair is replaced. -/
def readUnicode (bs : Bytes) : Option (Bytes × Bytes) := do
  let (n, rest) ← readHex4 bs
  if 0xD800 ≤ n ∧ n < 0xDC00 then
    match readLow rest with
    | some (low, rest) => some (encodeRune (0x10000 + (n - 0xD800) * 0x400 + (low - 0xDC00)), rest)
    | none => some (replacement, rest)
  else if 0xDC00 ≤ n ∧ n < 0xE000 then some (replacement, rest)
  else some (encodeRune n, rest)

/-- What follows a backslash. -/
def readEscape : Bytes → Option (Bytes × Bytes)
  | [] => none
  | b :: rest =>
      if b = 34 ∨ b = 92 ∨ b = 47 then some ([b], rest)
      else if b = 98 then some ([8], rest)
      else if b = 102 then some ([12], rest)
      else if b = 110 then some ([10], rest)
      else if b = 114 then some ([13], rest)
      else if b = 116 then some ([9], rest)
      else if b = 117 then readUnicode rest
      else none

/-- The rest of a string literal up to its closing quotation mark. -/
def readString : ℕ → Bytes → Option (Bytes × Bytes)
  | 0, _ | _, [] => none
  | fuel + 1, b :: bs =>
      if b = 34 then some ([], bs)
      else if b = 92 then do
        let (char, rest) ← readEscape bs
        let (chars, rest) ← readString fuel rest
        some (char ++ chars, rest)
      else if b < 0x20 then none
      else do
        let (chars, rest) ← readString fuel bs
        some (b :: chars, rest)

/-! ### Numbers -/

/-- The characters of number literals. -/
def isNumeral (b : UInt8) : Bool :=
  isDigit b || b = 43 || b = 45 || b = 46 || b = 69 || b = 101

/-- An exponent, or nothing. -/
def isExponent : Bytes → Bool
  | [] => true
  | e :: bs =>
      let digits := if bs.head? = some 43 ∨ bs.head? = some 45 then bs.tail else bs
      (e = 69 || e = 101) && digits ≠ [] && digits.all isDigit

/-- A fraction, an exponent, both or nothing. -/
def isFraction (bs : Bytes) : Bool :=
  if bs.head? = some 46 then
    bs.tail.takeWhile isDigit ≠ [] && isExponent (bs.tail.dropWhile isDigit)
  else isExponent bs

/-- The value of a number literal.  Negative zero is no integer: its sign would be lost. -/
def numeral (literal : Bytes) : Option Json :=
  let minus := literal.head? = some 45
  let body := if minus then literal.tail else literal
  let whole := body.takeWhile isDigit
  let tail := body.dropWhile isDigit
  if whole = [] ∨ (whole.head? = some 48 ∧ whole ≠ [48]) then none
  else if tail = [] then
    (parseDigits whole).map fun n : ℕ =>
      if minus then if n = 0 then real literal else num (-n) else num n
  else if isFraction tail then some (real literal)
  else none

/-! ### Values -/

def isSpace (b : UInt8) : Bool := b = 32 || b = 9 || b = 10 || b = 13

/-- The text without the blanks it starts with. -/
def skip (bs : Bytes) : Bytes := bs.dropWhile isSpace

/-- One of the words `true`, `false` and `null`, whose first letter is read. -/
def word (tail : Bytes) (value : Json) (bs : Bytes) : Option (Json × Bytes) :=
  if tail.isPrefixOf bs then some (value, bs.drop tail.length) else none

mutual

/-- The value a text starts with. -/
def parseValue : ℕ → Bytes → Option (Json × Bytes)
  | 0, _ => none
  | fuel + 1, bs =>
      match skip bs with
      | [] => none
      | b :: rest =>
          if b = 123 then
            if (skip rest).head? = some 125 then some (obj [], (skip rest).tail)
            else (parseMembers fuel rest).map fun (members, rest) => (obj members, rest)
          else if b = 91 then
            if (skip rest).head? = some 93 then some (arr [], (skip rest).tail)
            else (parseItems fuel rest).map fun (items, rest) => (arr items, rest)
          else if b = 34 then
            (readString (rest.length + 1) rest).map fun (s, rest) => (str (coerce s), rest)
          else if b = 116 then word (Text.str "rue") (bool true) rest
          else if b = 102 then word (Text.str "alse") (bool false) rest
          else if b = 110 then word (Text.str "ull") null rest
          else
            (numeral ((b :: rest).takeWhile isNumeral)).map fun value =>
              (value, (b :: rest).dropWhile isNumeral)

/-- The items of an array that is not empty, up to its end. -/
def parseItems : ℕ → Bytes → Option (List Json × Bytes)
  | 0, _ => none
  | fuel + 1, bs => do
      let (item, rest) ← parseValue fuel bs
      match skip rest with
      | [] => none
      | b :: rest =>
          if b = 44 then (parseItems fuel rest).map fun (items, rest) => (item :: items, rest)
          else if b = 93 then some ([item], rest)
          else none

/-- The members of an object that is not empty, up to its end. -/
def parseMembers : ℕ → Bytes → Option (List (Bytes × Json) × Bytes)
  | 0, _ => none
  | fuel + 1, bs =>
      if (skip bs).head? = some 34 then do
        let (key, rest) ← readString bs.length (skip bs).tail
        if (skip rest).head? = some 58 then do
          let (item, rest) ← parseValue fuel (skip rest).tail
          match skip rest with
          | [] => none
          | b :: rest =>
              if b = 44 then
                (parseMembers fuel rest).map fun (members, rest) =>
                  ((coerce key, item) :: members, rest)
              else if b = 125 then some ([(coerce key, item)], rest)
              else none
        else none
      else none

end

/-- The value of a whole text. -/
def parse (bs : Bytes) : Option Json := do
  let (value, rest) ← parseValue (bs.length + 1) bs
  if skip rest = [] then some value else none

/-! ### Strings are read back -/

variable {bs rest chars : Bytes} {b : UInt8} {fuel : ℕ}

/-- The octets of a character after the first are no seven-bit characters. -/
lemma tail_of_runeLength {n : ℕ} (h : runeLength (b :: bs) = some n) :
    (∀ c ∈ bs.take (n - 1), 0x80 ≤ c) ∧ (n = 1 ↔ b < 0x80) := by
  have hlo : ∀ {c : UInt8}, (secondRange b).1 ≤ c → 0x80 ≤ c := by
    intro c hc
    have hlow : 0x80 ≤ (secondRange b).1 := by
      unfold secondRange
      split_ifs <;> decide
    exact UInt8.le_trans hlow hc
  have htail : ∀ {c : UInt8}, isTail c → 0x80 ≤ c := by
    intro c hc
    simp only [isTail, Bool.and_eq_true, decide_eq_true_eq] at hc
    exact hc.1
  unfold runeLength at h
  dsimp only at h
  split_ifs at h with hb
  · cases h
    simp [hb]
  · rcases bs with _ | ⟨c, bs⟩
    · cases h
    · dsimp only at h
      split_ifs at h with hc
      cases h
      simp_all
  · rcases bs with _ | ⟨c, _ | ⟨d, bs⟩⟩
    · cases h
    · cases h
    · dsimp only at h
      split_ifs at h with hc
      cases h
      simp_all
  · rcases bs with _ | ⟨c, _ | ⟨d, _ | ⟨e, bs⟩⟩⟩
    · cases h
    · cases h
    · cases h
    · dsimp only at h
      split_ifs at h with hc
      cases h
      simp_all

/-- A character outside the seven-bit range, and most inside, stand for themselves. -/
lemma readString_plain (h34 : b ≠ 34) (h92 : b ≠ 92) (h20 : ¬ b < 0x20)
    (h : readString fuel bs = some (chars, rest)) :
    readString (fuel + 1) (b :: bs) = some (b :: chars, rest) := by
  rw [readString, if_neg h34, if_neg h92, if_neg h20, h]
  rfl

lemma readString_tail (hb : 0x80 ≤ b) (h : readString fuel bs = some (chars, rest)) :
    readString (fuel + 1) (b :: bs) = some (b :: chars, rest) := by
  refine readString_plain ?_ ?_ ?_ h
  · rintro rfl
    exact absurd hb (by decide)
  · rintro rfl
    exact absurd hb (by decide)
  · rw [UInt8.le_iff_toNat_le] at hb
    rw [UInt8.lt_iff_toNat_lt]
    exact fun hlt => absurd (hb.trans hlt.le) (by decide)

/-- An escape stands for the character it is read as. -/
lemma readString_escaped {char escaped : Bytes} (hescape : readEscape escaped = some (char, bs))
    (h : readString fuel bs = some (chars, rest)) :
    readString (fuel + 1) (92 :: escaped) = some (char ++ chars, rest) := by
  rw [readString, if_neg (by decide), if_pos rfl, hescape]
  show (readString fuel bs >>= _) = _
  rw [h]
  rfl

lemma hexValue_hexDigit : ∀ n < 16, hexValue (hexDigit n) = some n := by decide

lemma readHex4_hex (hb : b < 0x80) (bs : Bytes) :
    readHex4 (48 :: 48 :: (hex [b] ++ bs)) = some (b.toNat, bs) := by
  have hlow : b.toNat < 128 := UInt8.lt_iff_toNat_lt.mp hb
  have hhigh := hexValue_hexDigit (b.toNat / 16) (by omega)
  have hdigit := hexValue_hexDigit (b.toNat % 16) (by omega)
  have hzero : hexValue 48 = some 0 := by decide
  have hsum : ((0 * 16 + 0) * 16 + b.toNat / 16) * 16 + b.toNat % 16 = b.toNat := by omega
  simp only [hex, List.flatMap_cons, List.flatMap_nil, List.cons_append, List.nil_append,
    readHex4, hzero, hhigh, hdigit, Option.bind_eq_bind, Option.bind_some, hsum]

/-- The octets below `0x80` that are written by their number. -/
lemma readEscape_hex (hb : b < 0x80) (bs : Bytes) :
    readEscape (117 :: 48 :: 48 :: (hex [b] ++ bs)) = some ([b], bs) := by
  have hlow : b.toNat < 128 := UInt8.lt_iff_toNat_lt.mp hb
  show readUnicode (48 :: 48 :: (hex [b] ++ bs)) = _
  rw [readUnicode, readHex4_hex hb]
  simp only [Option.bind_eq_bind, Option.bind_some]
  rw [if_neg (by omega), if_neg (by omega), encodeRune, if_pos hlow, UInt8.ofNat_toNat]

/-- The escape of a character is read as the character. -/
lemma readString_escape (hb : b < 0x80) (h : readString fuel bs = some (chars, rest)) :
    readString (fuel + 1) (escape b ++ bs) = some (b :: chars, rest) := by
  unfold escape
  split_ifs with h1 h2 h3 h4 h5 h6 h7
  · have hread : readEscape (b :: bs) = some ([b], bs) := by
      rw [readEscape, if_pos (by tauto)]
    exact readString_escaped hread h
  · subst h2
    exact readString_escaped (show readEscape (98 :: bs) = some ([8], bs) from rfl) h
  · subst h3
    exact readString_escaped (show readEscape (102 :: bs) = some ([12], bs) from rfl) h
  · subst h4
    exact readString_escaped (show readEscape (110 :: bs) = some ([10], bs) from rfl) h
  · subst h5
    exact readString_escaped (show readEscape (114 :: bs) = some ([13], bs) from rfl) h
  · subst h6
    exact readString_escaped (show readEscape (116 :: bs) = some ([9], bs) from rfl) h
  · exact readString_escaped (readEscape_hex hb bs) h
  · rw [not_or] at h1 h7
    exact readString_plain h1.1 h1.2 h7.1 h

lemma escape_ne_nil (b : UInt8) : escape b ≠ [] := by
  unfold escape
  split_ifs
  all_goals exact List.cons_ne_nil _ _

lemma length_lt_of_append {cs : Bytes} (hbs : bs ≠ []) (h : (bs ++ cs).length < fuel + 1) :
    cs.length < fuel := by
  have hpos := List.length_pos_iff.mpr hbs
  rw [List.length_append] at h
  omega

lemma eq_of_take_three {b' c d : UInt8} (h : (b :: bs).take 3 = [b', c, d]) :
    b = b' ∧ bs = c :: d :: bs.drop 2 := by
  rcases bs with _ | ⟨x, _ | ⟨y, bs⟩⟩
  · simp at h
  · simp at h
  · simpa using h

/-- A line separator is a character of three octets. -/
lemma coerceFrom_separator {d : UInt8} (hd : d = 0xA8 ∨ d = 0xA9) {n : ℕ}
    (hbs : bs = 0x80 :: d :: bs.drop 2) (hr : runeLength (0xE2 :: bs) = some n) :
    0xE2 :: coerceFrom (n - 1) bs = [0xE2, 0x80, d] ++ coerceFrom 0 (bs.drop 2) := by
  have hthree : runeLength (0xE2 :: bs) = some 3 := by
    rw [hbs]
    rcases hd with rfl | rfl <;> rfl
  obtain rfl : 3 = n := Option.some.inj (hthree.symm.trans hr)
  rw [hbs]
  rfl

/-- The scan reads back what was written, with `n` octets of the current character to come. -/
lemma readString_quoteFrom (rest : Bytes) : ∀ (s : Bytes) (n : ℕ) (copy : Bool) (fuel : ℕ),
    (∀ c ∈ s.take n, 0x80 ≤ c) → (quoteFrom n copy s).length < fuel →
    readString fuel (quoteFrom n copy s ++ 34 :: rest)
      = some (if copy then coerceFrom n s else coerceFrom 0 (s.drop n), rest)
  | [], n, copy, fuel + 1, _, _ => by
    cases n <;> cases copy <;> rfl
  | b :: bs, n + 1, copy, fuel, htake, hfuel => by
    have hb : 0x80 ≤ b := htake b (by simp)
    have hbs : ∀ c ∈ bs.take n, 0x80 ≤ c := fun c hc => htake c (by simp [hc])
    cases copy with
    | false => exact readString_quoteFrom rest bs n false fuel hbs hfuel
    | true =>
      obtain ⟨fuel, rfl⟩ : ∃ k, fuel = k + 1 := ⟨fuel - 1, by omega⟩
      exact readString_tail hb (readString_quoteFrom rest bs n true fuel hbs
        (length_lt_of_append (List.cons_ne_nil b []) hfuel))
  | b :: bs, 0, copy, fuel + 1, _, hfuel => by
    have hcopy : (if copy then coerceFrom 0 (b :: bs) else coerceFrom 0 ((b :: bs).drop 0))
        = coerceFrom 0 (b :: bs) := by
      cases copy <;> rfl
    have ih := readString_quoteFrom rest bs
    rw [hcopy, coerceFrom]
    rw [quoteFrom] at hfuel ⊢
    cases hr : runeLength (b :: bs) with
    | none =>
      simp only [hr] at hfuel ⊢
      have hread : readEscape (117 :: 102 :: 102 :: 102 :: 100 :: (quoteFrom 0 true bs
          ++ 34 :: rest)) = some (replacement, quoteFrom 0 true bs ++ 34 :: rest) := rfl
      exact readString_escaped hread
        (ih 0 true fuel (by simp) (length_lt_of_append (List.cons_ne_nil _ _) hfuel))
    | some n =>
      obtain ⟨htail, hone⟩ := tail_of_runeLength hr
      simp only [hr] at hfuel ⊢
      split_ifs at hfuel ⊢ with h1 h2028 h2029
      · subst h1
        rw [List.append_assoc]
        exact readString_escape (hone.mp rfl)
          (ih 0 true fuel (by simp) (length_lt_of_append (escape_ne_nil b) hfuel))
      · obtain ⟨rfl, hbs⟩ := eq_of_take_three h2028
        have hread : readEscape (117 :: 50 :: 48 :: 50 :: 56 :: (quoteFrom 2 false bs
            ++ 34 :: rest)) = some ([0xE2, 0x80, 0xA8], quoteFrom 2 false bs ++ 34 :: rest) :=
          rfl
        rw [coerceFrom_separator (.inl rfl) hbs hr]
        exact readString_escaped hread (ih 2 false fuel (by rw [hbs]; simp)
          (length_lt_of_append (List.cons_ne_nil _ _) hfuel))
      · obtain ⟨rfl, hbs⟩ := eq_of_take_three h2029
        have hread : readEscape (117 :: 50 :: 48 :: 50 :: 57 :: (quoteFrom 2 false bs
            ++ 34 :: rest)) = some ([0xE2, 0x80, 0xA9], quoteFrom 2 false bs ++ 34 :: rest) :=
          rfl
        rw [coerceFrom_separator (.inr rfl) hbs hr]
        exact readString_escaped hread (ih 2 false fuel (by rw [hbs]; simp)
          (length_lt_of_append (List.cons_ne_nil _ _) hfuel))
      · have hb : 0x80 ≤ b := UInt8.not_lt.mp fun hlt => h1 (hone.mpr hlt)
        exact readString_tail hb (ih (n - 1) true fuel htail
          (length_lt_of_append (List.cons_ne_nil b []) hfuel))
  | _, _, _, 0, _, hfuel => absurd hfuel (by omega)

/-- **A string literal is read back**, up to the octets that start no character. -/
theorem readString_quote (s rest : Bytes) (hfuel : (quoteFrom 0 true s).length < fuel) :
    readString fuel (quoteFrom 0 true s ++ 34 :: rest) = some (coerce s, rest) :=
  readString_quoteFrom rest s 0 true fuel (by simp) hfuel

/-! ### Numbers are read back -/

/-- Only zero starts with the digit zero. -/
lemma decimal_head {n : ℕ} (h : (decimal n).head? = some 48) : decimal n = [48] := by
  by_cases hn : n = 0
  · rw [decimal, if_pos hn]
  · exfalso
    have hne : Nat.digits 10 n ≠ [] := Nat.digits_ne_nil_iff_ne_zero.mpr hn
    rw [decimal, if_neg hn, List.head?_map, List.head?_reverse, List.getLast?_eq_some_getLast hne,
      Option.map_some] at h
    have hlast := Nat.getLast_digit_ne_zero 10 hn
    have hlt := Nat.digits_lt_base (b := 10) (by norm_num) (List.getLast_mem hne)
    have hdigit := toNat_digit ((Nat.digits 10 n).getLast hne)
    rw [Option.some.inj h] at hdigit
    simp only [UInt8.reduceToNat] at hdigit
    omega

/-- A number starts with a digit or the sign. -/
def isSigned (b : UInt8) : Bool := isDigit b || b = 45

lemma number_cons (n : ℤ) : ∃ c cs, number n = c :: cs ∧ isSigned c ∧ (c :: cs).all isNumeral := by
  obtain ⟨hne, hall⟩ := decimal_spec n.natAbs
  have hnumeral : (decimal n.natAbs).all isNumeral := List.all_eq_true.mpr fun b hb => by
    simp [isNumeral, List.all_eq_true.mp hall b hb]
  rw [number]
  split
  · exact ⟨45, _, rfl, by decide, by rw [List.all_cons, hnumeral]; decide⟩
  · cases hd : decimal n.natAbs with
    | nil => exact absurd hd hne
    | cons c cs =>
      rw [hd] at hall hnumeral
      have hc := List.all_eq_true.mp hall c (by simp)
      exact ⟨c, cs, rfl, by simp [isSigned, hc], hnumeral⟩

lemma ne_of_isSigned {c : UInt8} (hc : isSigned c) (d : UInt8) (hd : isSigned d = false) :
    c ≠ d := by
  rintro rfl
  rw [hd] at hc
  cases hc

lemma isSpace_of_isSigned {c : UInt8} (hc : isSigned c) : isSpace c = false := by
  simp [isSpace, ne_of_isSigned hc 32 (by decide), ne_of_isSigned hc 9 (by decide),
    ne_of_isSigned hc 10 (by decide), ne_of_isSigned hc 13 (by decide)]

lemma takeWhile_digits (n : ℕ) : (decimal n).takeWhile isDigit = decimal n :=
  List.takeWhile_eq_self_iff.mpr (List.all_eq_true.mp (decimal_spec n).2)

lemma dropWhile_digits (n : ℕ) : (decimal n).dropWhile isDigit = [] :=
  List.dropWhile_eq_nil_iff.mpr (List.all_eq_true.mp (decimal_spec n).2)

/-- An integer literal denotes the integer. -/
lemma numeral_number (n : ℤ) : numeral (number n) = some (num n) := by
  have hzero : ¬ (decimal n.natAbs = []
      ∨ ((decimal n.natAbs).head? = some 48 ∧ decimal n.natAbs ≠ [48])) := by
    rintro (h | ⟨h, hne⟩)
    · exact (decimal_spec _).1 h
    · exact hne (decimal_head h)
  by_cases hn : n < 0
  · have habs : -(n.natAbs : ℤ) = n := by omega
    have hne : n.natAbs ≠ 0 := by omega
    simp only [number, if_pos hn, numeral, List.head?_cons, if_true, List.tail_cons,
      takeWhile_digits, dropWhile_digits, if_neg hzero, parseDigits_decimal, Option.map_some,
      if_neg hne, habs]
  · have habs : (n.natAbs : ℤ) = n := by omega
    have hminus : (decimal n.natAbs).head? ≠ some 45 := by
      intro h
      have hmem := List.all_eq_true.mp (decimal_spec n.natAbs).2 45 (List.mem_of_mem_head? h)
      exact absurd hmem (by decide)
    simp only [number, if_neg hn, numeral, if_neg hminus, takeWhile_digits, dropWhile_digits,
      if_neg hzero, if_true, parseDigits_decimal, Option.map_some, habs]

/-- A literal that is kept as it is written. -/
def Literal (bs : Bytes) : Prop := numeral bs = some (real bs)

lemma isExponent_all : ∀ {bs : Bytes}, isExponent bs → bs.all isNumeral
  | [], _ => rfl
  | e :: bs, h => by
    simp only [isExponent, Bool.and_eq_true, Bool.or_eq_true, decide_eq_true_eq] at h
    obtain ⟨⟨he, -⟩, hall⟩ := h
    have hhead : isNumeral e := by rcases he with rfl | rfl <;> decide
    have hdigits : ∀ {ds : Bytes}, ds.all isDigit → ds.all isNumeral := fun {ds} hds =>
      List.all_eq_true.mpr fun b hb => by simp [isNumeral, List.all_eq_true.mp hds b hb]
    rw [List.all_cons, hhead, Bool.true_and]
    split_ifs at hall with hsign
    · cases bs with
      | nil => rfl
      | cons c cs =>
        rw [List.tail_cons] at hall
        rw [List.all_cons, hdigits hall, Bool.and_true]
        simp only [List.head?_cons, Option.some.injEq] at hsign
        rcases hsign with rfl | rfl <;> decide
    · exact hdigits hall

lemma isFraction_all {bs : Bytes} (h : isFraction bs) : bs.all isNumeral := by
  rw [isFraction] at h
  split_ifs at h with hdot
  · cases bs with
    | nil => rfl
    | cons c cs =>
      obtain rfl := Option.some.inj hdot
      simp only [List.tail_cons, Bool.and_eq_true] at h
      rw [← List.takeWhile_append_dropWhile (p := isDigit) (l := cs), List.all_cons,
        List.all_append, isExponent_all h.2, Bool.and_true, Bool.and_eq_true]
      refine ⟨by decide, List.all_eq_true.mpr fun b hb => ?_⟩
      simp [isNumeral, List.mem_takeWhile_imp hb]
  · exact isExponent_all h

/-- A literal starts as a number does and has the characters of one. -/
lemma Literal.cons {bs : Bytes} (h : Literal bs) :
    ∃ c cs, bs = c :: cs ∧ isSigned c ∧ bs.all isNumeral := by
  obtain ⟨body, hbody⟩ : ∃ body, body = if bs.head? = some 45 then bs.tail else bs := ⟨_, rfl⟩
  simp only [Literal, numeral, ← hbody] at h
  have hwhole : body.takeWhile isDigit ≠ [] := fun hnil => by simp [hnil] at h
  have htail : (body.dropWhile isDigit).all isNumeral := by
    by_cases hnil : body.dropWhile isDigit = []
    · rw [hnil, List.all_nil]
    · rw [if_neg hnil] at h
      by_cases hfraction : isFraction (body.dropWhile isDigit)
      · exact isFraction_all hfraction
      · simp [hfraction] at h
  have hsplit := List.takeWhile_append_dropWhile (p := isDigit) (l := body)
  have hall : body.all isNumeral := by
    rw [← hsplit, List.all_append, htail, Bool.and_true]
    exact List.all_eq_true.mpr fun b hb => by simp [isNumeral, List.mem_takeWhile_imp hb]
  by_cases hminus : bs.head? = some 45
  · cases bs with
    | nil => cases hminus
    | cons c cs =>
      obtain rfl := Option.some.inj hminus
      rw [if_pos hminus, List.tail_cons] at hbody
      subst hbody
      exact ⟨45, body, rfl, by decide, by rw [List.all_cons, hall]; decide⟩
  · rw [if_neg hminus] at hbody
    subst hbody
    cases hcons : body.takeWhile isDigit with
    | nil => exact absurd hcons hwhole
    | cons c cs =>
      have hc : isDigit c := List.mem_takeWhile_imp (hcons ▸ List.mem_cons_self)
      refine ⟨c, cs ++ body.dropWhile isDigit, ?_, by simp [isSigned, hc], hall⟩
      rw [← List.cons_append, ← hcons, hsplit]

/-! ### Values are read back -/

mutual

/-- Every string is well formed, and every number a literal that is read back. -/
def Plain : Json → Prop
  | null | bool _ | num _ => True
  | real literal => Literal literal
  | str s => valid s
  | arr items => PlainItems items
  | obj members => PlainMembers members

def PlainItems : List Json → Prop
  | [] => True
  | item :: items => Plain item ∧ PlainItems items

def PlainMembers : List (Bytes × Json) → Prop
  | [] => True
  | (key, item) :: members => valid key ∧ Plain item ∧ PlainMembers members

end

mutual

/-- Every number is a literal that is read back. -/
def Whole : Json → Prop
  | null | bool _ | num _ | str _ => True
  | real literal => Literal literal
  | arr items => WholeItems items
  | obj members => WholeMembers members

def WholeItems : List Json → Prop
  | [] => True
  | item :: items => Whole item ∧ WholeItems items

def WholeMembers : List (Bytes × Json) → Prop
  | [] => True
  | (_, item) :: members => Whole item ∧ WholeMembers members

end

mutual

/-- The value with replacement characters for the octets that start no character. -/
def coerced : Json → Json
  | null => null
  | bool b => bool b
  | num n => num n
  | real literal => real literal
  | str s => str (coerce s)
  | arr items => arr (coercedItems items)
  | obj members => obj (coercedMembers members)

def coercedItems : List Json → List Json
  | [] => []
  | item :: items => coerced item :: coercedItems items

def coercedMembers : List (Bytes × Json) → List (Bytes × Json)
  | [] => []
  | (key, item) :: members => (coerce key, coerced item) :: coercedMembers members

end

mutual

/-- A well-formed value is not changed. -/
lemma Plain.coerced_eq : ∀ {v : Json}, Plain v → Whole v ∧ v.coerced = v
  | null, _ | bool _, _ | num _, _ => ⟨trivial, rfl⟩
  | real _, h => ⟨h, rfl⟩
  | str _, h => ⟨trivial, congrArg str (coerce_of_valid h)⟩
  | arr _, h => ⟨(PlainItems.coerced_eq h).1, congrArg arr (PlainItems.coerced_eq h).2⟩
  | obj _, h => ⟨(PlainMembers.coerced_eq h).1, congrArg obj (PlainMembers.coerced_eq h).2⟩

lemma PlainItems.coerced_eq : ∀ {items : List Json}, PlainItems items →
    WholeItems items ∧ coercedItems items = items
  | [], _ => ⟨trivial, rfl⟩
  | _ :: _, h => ⟨⟨(Plain.coerced_eq h.1).1, (PlainItems.coerced_eq h.2).1⟩,
      congrArg₂ List.cons (Plain.coerced_eq h.1).2 (PlainItems.coerced_eq h.2).2⟩

lemma PlainMembers.coerced_eq : ∀ {members : List (Bytes × Json)}, PlainMembers members →
    WholeMembers members ∧ coercedMembers members = members
  | [], _ => ⟨trivial, rfl⟩
  | (_, _) :: _, h => ⟨⟨(Plain.coerced_eq h.2.1).1, (PlainMembers.coerced_eq h.2.2).1⟩,
      congrArg₂ List.cons (Prod.ext (coerce_of_valid h.1) (Plain.coerced_eq h.2.1).2)
        (PlainMembers.coerced_eq h.2.2).2⟩

end

/-- No number goes on here. -/
def Ends (bs : Bytes) : Prop := ∀ b ∈ bs.head?, isNumeral b = false

lemma ends_cons {b : UInt8} {bs : Bytes} (h : isNumeral b = false) : Ends (b :: bs) := by
  intro c hc
  cases hc
  exact h

@[simp] lemma skip_cons {b : UInt8} {bs : Bytes} (h : isSpace b = false) :
    skip (b :: bs) = b :: bs := by
  rw [skip, List.dropWhile_cons_of_neg (by simp [h])]

/-- A value starts with neither a blank nor the end of an array. -/
lemma render_head : ∀ {v : Json}, Whole v →
    ∃ b bs, render v = b :: bs ∧ isSpace b = false ∧ b ≠ 93
  | null, _ => ⟨_, _, rfl, by decide, by decide⟩
  | bool true, _ => ⟨_, _, rfl, by decide, by decide⟩
  | bool false, _ => ⟨_, _, rfl, by decide, by decide⟩
  | num n, _ => by
    obtain ⟨c, cs, hn, hc, -⟩ := number_cons n
    exact ⟨c, cs, hn, isSpace_of_isSigned hc, ne_of_isSigned hc 93 (by decide)⟩
  | real literal, h => by
    obtain ⟨c, cs, hn, hc, -⟩ := Literal.cons h
    exact ⟨c, cs, hn, isSpace_of_isSigned hc, ne_of_isSigned hc 93 (by decide)⟩
  | str s, _ => ⟨_, _, rfl, by decide, by decide⟩
  | arr items, _ => ⟨_, _, rfl, by decide, by decide⟩
  | obj members, _ => ⟨_, _, rfl, by decide, by decide⟩

/-- A number is read up to the first character that is not one of its own. -/
lemma parseValue_numeral {literal : Bytes} {v : Json} (hv : numeral literal = some v)
    (hshape : ∃ c cs, literal = c :: cs ∧ isSigned c ∧ literal.all isNumeral) {rest : Bytes}
    (hrest : Ends rest) (fuel : ℕ) :
    parseValue (fuel + 1) (literal ++ rest) = some (v, rest) := by
  obtain ⟨c, cs, hn, hc, hall⟩ := hshape
  have hstop : rest.takeWhile isNumeral = [] ∧ rest.dropWhile isNumeral = rest := by
    cases rest with
    | nil => exact ⟨rfl, rfl⟩
    | cons b rest =>
      have hb := hrest b rfl
      exact ⟨List.takeWhile_cons_of_neg (by simp [hb]), List.dropWhile_cons_of_neg (by simp [hb])⟩
  have htake : (literal ++ rest).takeWhile isNumeral = literal := by
    rw [List.takeWhile_append_of_pos (List.all_eq_true.mp hall), hstop.1, List.append_nil]
  have hdrop : (literal ++ rest).dropWhile isNumeral = rest := by
    rw [List.dropWhile_append_of_pos (List.all_eq_true.mp hall), hstop.2]
  have hcons : literal ++ rest = c :: (cs ++ rest) := by rw [hn]; rfl
  rw [parseValue, hcons, skip_cons (isSpace_of_isSigned hc)]
  dsimp only
  rw [if_neg (ne_of_isSigned hc 123 (by decide)), if_neg (ne_of_isSigned hc 91 (by decide)),
    if_neg (ne_of_isSigned hc 34 (by decide)), if_neg (ne_of_isSigned hc 116 (by decide)),
    if_neg (ne_of_isSigned hc 102 (by decide)), if_neg (ne_of_isSigned hc 110 (by decide)),
    ← hcons, htake, hdrop, hv]
  rfl

lemma parseValue_number (n : ℤ) {rest : Bytes} (hrest : Ends rest) (fuel : ℕ) :
    parseValue (fuel + 1) (number n ++ rest) = some (num n, rest) := by
  obtain ⟨c, cs, hn, hc, hall⟩ := number_cons n
  exact parseValue_numeral (numeral_number n) ⟨c, cs, hn, hc, hn ▸ hall⟩ hrest fuel

/-- The text of a string literal without its quotation marks. -/
def Spells (body s : Bytes) : Prop :=
  ∀ rest fuel, body.length < fuel → readString fuel (body ++ 34 :: rest) = some (s, rest)

lemma spells_quote (s : Bytes) : Spells (quoteFrom 0 true s) (coerce s) := fun rest _ hfuel =>
  readString_quote s rest hfuel

lemma Spells.parseValue {body s : Bytes} (h : Spells body s) (rest : Bytes) (fuel : ℕ) :
    parseValue (fuel + 1) (34 :: (body ++ 34 :: rest)) = some (str (coerce s), rest) := by
  have hread : readString ((body ++ 34 :: rest).length + 1) (body ++ 34 :: rest) = some (s, rest) :=
    h rest _ (by rw [List.length_append]; omega)
  rw [Json.parseValue, skip_cons (by decide)]
  dsimp only
  rw [if_neg (by decide), if_neg (by decide), if_pos rfl, hread, Option.map_some]

lemma parseValue_quote (s rest : Bytes) (fuel : ℕ) :
    parseValue (fuel + 1) (quote s ++ rest) = some (str (coerce s), rest) := by
  have h := (spells_quote s).parseValue rest fuel
  rw [coerce_coerce] at h
  simpa [quote] using h

lemma parseValue_arr {fuel : ℕ} {bs : Bytes} (h : (skip bs).head? ≠ some 93) {items : List Json}
    {rest : Bytes} (hitems : parseItems fuel bs = some (items, rest)) :
    parseValue (fuel + 1) (91 :: bs) = some (arr items, rest) := by
  rw [parseValue, skip_cons (by decide)]
  dsimp only
  rw [if_neg (by decide), if_pos rfl, if_neg h, hitems]
  rfl

lemma parseValue_obj {fuel : ℕ} {bs : Bytes} (h : (skip bs).head? ≠ some 125)
    {members : List (Bytes × Json)} {rest : Bytes}
    (hmembers : parseMembers fuel bs = some (members, rest)) :
    parseValue (fuel + 1) (123 :: bs) = some (obj members, rest) := by
  rw [parseValue, skip_cons (by decide)]
  dsimp only
  rw [if_pos rfl, if_neg h, hmembers]
  rfl

lemma parseItems_last {fuel : ℕ} {bs rest : Bytes} {item : Json}
    (hitem : parseValue fuel bs = some (item, 93 :: rest)) :
    parseItems (fuel + 1) bs = some ([item], rest) := by
  rw [parseItems, hitem]
  rfl

lemma parseItems_more {fuel : ℕ} {bs rest rest' : Bytes} {item : Json} {items : List Json}
    (hitem : parseValue fuel bs = some (item, 44 :: rest))
    (hitems : parseItems fuel rest = some (items, rest')) :
    parseItems (fuel + 1) bs = some (item :: items, rest') := by
  rw [parseItems, hitem]
  show (parseItems fuel rest).map _ = _
  rw [hitems]
  rfl

/-- The name of a member is read back. -/
lemma Spells.parseMembers {body key : Bytes} (h : Spells body key) (fuel : ℕ) (bs : Bytes) :
    parseMembers (fuel + 1) (34 :: (body ++ 34 :: 58 :: bs))
      = (Json.parseValue fuel bs).bind fun (item, rest) =>
          match skip rest with
          | [] => none
          | b :: rest =>
            if b = 44 then
              (Json.parseMembers fuel rest).map fun (members, rest) =>
                ((coerce key, item) :: members, rest)
            else if b = 125 then some ([(coerce key, item)], rest)
            else none := by
  have hread : readString (34 :: (body ++ 34 :: 58 :: bs)).length (body ++ 34 :: 58 :: bs)
      = some (key, 58 :: bs) :=
    h (58 :: bs) _ (by simp)
  have hskip : skip (58 :: bs) = 58 :: bs := skip_cons (by decide)
  rw [Json.parseMembers, skip_cons (by decide), List.head?_cons, if_pos rfl, List.tail_cons,
    hread]
  simp only [Option.bind_eq_bind, Option.bind_some, hskip, List.head?_cons, if_true,
    List.tail_cons]

/-- The last member of an object. -/
lemma Spells.parseMembers_last {body key : Bytes} (h : Spells body key) {fuel : ℕ}
    {bs rest : Bytes} {item : Json} (hitem : Json.parseValue fuel bs = some (item, 125 :: rest)) :
    Json.parseMembers (fuel + 1) (34 :: (body ++ 34 :: 58 :: bs))
      = some ([(coerce key, item)], rest) := by
  have hclose : isSpace 125 = false := by decide
  have hcomma : (125 : UInt8) ≠ 44 := by decide
  rw [h.parseMembers, hitem]
  simp only [Option.bind_some, skip_cons hclose, if_neg hcomma, if_true]

/-- A member that is not the last one. -/
lemma Spells.parseMembers_more {body key : Bytes} (h : Spells body key) {fuel : ℕ}
    {bs rest rest' : Bytes} {item : Json} {members : List (Bytes × Json)}
    (hitem : Json.parseValue fuel bs = some (item, 44 :: rest))
    (hmembers : Json.parseMembers fuel rest = some (members, rest')) :
    Json.parseMembers (fuel + 1) (34 :: (body ++ 34 :: 58 :: bs))
      = some ((coerce key, item) :: members, rest') := by
  have hcomma : isSpace 44 = false := by decide
  rw [h.parseMembers, hitem]
  simp only [Option.bind_some, skip_cons hcomma, if_true, hmembers, Option.map_some]

lemma renderItems_head {item : Json} (hitem : Whole item) (items : List Json) (rest : Bytes) :
    (skip (renderItems (item :: items) ++ rest)).head? ≠ some 93 := by
  obtain ⟨b, bs, hb, hspace, hne⟩ := render_head hitem
  cases items <;> simp [renderItems, hb, hspace, hne]

lemma renderMembers_head (member : Bytes × Json) (members : List (Bytes × Json)) (rest : Bytes) :
    (skip (renderMembers (member :: members) ++ rest)).head? ≠ some 125 := by
  have hspace : isSpace 34 = false := by decide
  cases members <;> simp [renderMembers, quote, hspace]

mutual

/-- A value is read back from its text. -/
lemma parseValue_render : ∀ (v : Json) (rest : Bytes) (fuel : ℕ), Whole v → Ends rest →
    (render v).length < fuel → parseValue fuel (render v ++ rest) = some (v.coerced, rest)
  | null, _, _ + 1, _, _, _ => rfl
  | bool true, _, _ + 1, _, _, _ => rfl
  | bool false, _, _ + 1, _, _, _ => rfl
  | num n, _, fuel + 1, _, hrest, _ => parseValue_number n hrest fuel
  | real _, _, fuel + 1, h, hrest, _ => parseValue_numeral h (Literal.cons h) hrest fuel
  | str s, rest, fuel + 1, _, _, _ => parseValue_quote s rest fuel
  | arr [], _, _ + 1, _, _, _ => rfl
  | arr (item :: items), rest, fuel + 1, hwhole, _, hfuel => by
    have hitems := parseItems_render (item :: items) rest fuel (by simp) hwhole (by
      simp only [render, List.length_append, List.length_cons, List.length_nil] at hfuel
      omega)
    simpa [render, coerced] using parseValue_arr (renderItems_head hwhole.1 items _) hitems
  | obj [], _, _ + 1, _, _, _ => rfl
  | obj (member :: members), rest, fuel + 1, hwhole, _, hfuel => by
    have hmembers := parseMembers_render (member :: members) rest fuel (by simp) hwhole (by
      simp only [render, List.length_append, List.length_cons, List.length_nil] at hfuel
      omega)
    simpa [render, coerced] using parseValue_obj (renderMembers_head member members _) hmembers
  | _, _, 0, _, _, hfuel => absurd hfuel (by omega)

/-- The items of an array are read back. -/
lemma parseItems_render : ∀ (items : List Json) (rest : Bytes) (fuel : ℕ), items ≠ [] →
    WholeItems items → (renderItems items).length + 1 < fuel →
    parseItems fuel (renderItems items ++ 93 :: rest) = some (coercedItems items, rest)
  | [], _, _, h, _, _ => absurd rfl h
  | [item], rest, fuel + 1, _, hwhole, hfuel => by
    rw [renderItems] at hfuel ⊢
    exact parseItems_last (parseValue_render item (93 :: rest) fuel hwhole.1
      (ends_cons (by decide)) (by omega))
  | item :: next :: items, rest, fuel + 1, _, hwhole, hfuel => by
    simp only [renderItems, List.length_append, List.length_cons, List.length_nil] at hfuel
    have hitem := parseValue_render item (44 :: (renderItems (next :: items) ++ 93 :: rest)) fuel
      hwhole.1 (ends_cons (by decide)) (by omega)
    have hitems := parseItems_render (next :: items) rest fuel (by simp) hwhole.2 (by omega)
    simpa [renderItems, coercedItems] using parseItems_more hitem hitems
  | _, _, 0, _, _, hfuel => absurd hfuel (by omega)

/-- The members of an object are read back. -/
lemma parseMembers_render : ∀ (members : List (Bytes × Json)) (rest : Bytes) (fuel : ℕ),
    members ≠ [] → WholeMembers members → (renderMembers members).length + 1 < fuel →
    parseMembers fuel (renderMembers members ++ 125 :: rest) = some (coercedMembers members, rest)
  | [], _, _, h, _, _ => absurd rfl h
  | [(key, item)], rest, fuel + 1, _, hwhole, hfuel => by
    simp only [renderMembers, List.length_append] at hfuel
    have hitem := parseValue_render item (125 :: rest) fuel hwhole.1 (ends_cons (by decide))
      (by omega)
    simpa [renderMembers, coercedMembers, quote, coerce_coerce]
      using (spells_quote key).parseMembers_last hitem
  | (key, item) :: next :: members, rest, fuel + 1, _, hwhole, hfuel => by
    simp only [renderMembers, List.length_append, List.length_cons, List.length_nil] at hfuel
    have hitem := parseValue_render item (44 :: (renderMembers (next :: members) ++ 125 :: rest))
      fuel hwhole.1 (ends_cons (by decide)) (by omega)
    have hmembers := parseMembers_render (next :: members) rest fuel (by simp) hwhole.2
      (by omega)
    simpa [renderMembers, coercedMembers, quote, coerce_coerce]
      using (spells_quote key).parseMembers_more hitem hmembers
  | _, _, 0, _, _, hfuel => absurd hfuel (by omega)

end

lemma ends_of_blanks {blanks : Bytes} (h : blanks.all isSpace) : Ends blanks := by
  intro b hb
  have hspace := List.all_eq_true.mp h b (List.mem_of_mem_head? hb)
  simp only [isSpace, Bool.or_eq_true, decide_eq_true_eq] at hspace
  rcases hspace with ((rfl | rfl) | rfl) | rfl <;> decide

lemma skip_of_blanks {blanks : Bytes} (h : blanks.all isSpace) : skip blanks = [] :=
  List.dropWhile_eq_nil_iff.mpr (List.all_eq_true.mp h)

/-- **What was rendered is read back**, also with blanks after it, up to the octets that start no
character. -/
theorem parse_render_coerced {v : Json} (hv : Whole v) {blanks : Bytes}
    (hblanks : blanks.all isSpace) : parse (render v ++ blanks) = some v.coerced := by
  have hlength : (render v).length < (render v ++ blanks).length + 1 := by
    rw [List.length_append]
    omega
  rw [parse, parseValue_render v blanks _ hv (ends_of_blanks hblanks) hlength]
  simp [skip_of_blanks hblanks]

/-- **A well-formed value is read back.** -/
theorem parse_render {v : Json} (hv : Plain v) {blanks : Bytes} (hblanks : blanks.all isSpace) :
    parse (render v ++ blanks) = some v := by
  obtain ⟨hwhole, hcoerced⟩ := hv.coerced_eq
  rw [parse_render_coerced hwhole hblanks, hcoerced]

end Json
