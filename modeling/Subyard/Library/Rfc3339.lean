import Subyard.Library.Text

/-!
Points in time and their RFC 3339 texts.

* `Time`: a point in time in UTC, down to the nanosecond, with a day that its month has.
* `parse`: the reading of a text with an optional fraction of a second and a zone, shifted to
  UTC.  As in the reader it models, the hour may have one digit, the fraction may follow a comma
  and is cut after nine digits, and the zone may be off by 24 hours and 60 minutes.
-/

open Text

namespace Rfc3339

/-! ### Points in time -/

def isLeap (year : ℤ) : Bool := year % 4 = 0 && (year % 100 ≠ 0 || year % 400 = 0)

/-- The days of a month. -/
def daysIn (year : ℤ) (month : ℕ) : ℕ :=
  if month = 2 then if isLeap year then 29 else 28
  else if month = 4 ∨ month = 6 ∨ month = 9 ∨ month = 11 then 30
  else 31

/-- A day of the calendar. -/
structure Date where
  year : ℤ
  month : ℕ
  day : ℕ
  month_pos : 1 ≤ month
  month_le : month ≤ 12
  day_pos : 1 ≤ day
  day_le : day ≤ daysIn year month
deriving DecidableEq

/-- A point in time in UTC. -/
structure Time extends Date where
  hour : ℕ
  minute : ℕ
  second : ℕ
  nano : ℕ
  hour_lt : hour < 24
  minute_lt : minute < 60
  second_lt : second < 60
  nano_lt : nano < 10 ^ 9
deriving DecidableEq

lemma daysIn_pos (year : ℤ) (month : ℕ) : 28 ≤ daysIn year month := by
  unfold daysIn
  split_ifs <;> omega

/-- The day, if there is one. -/
def date? (year : ℤ) (month day : ℕ) : Option Date :=
  if h : 1 ≤ month ∧ month ≤ 12 ∧ 1 ≤ day ∧ day ≤ daysIn year month then
    some ⟨year, month, day, h.1, h.2.1, h.2.2.1, h.2.2.2⟩
  else none

def Date.next (d : Date) : Date :=
  if h : d.day + 1 ≤ daysIn d.year d.month then
    { d with day := d.day + 1, day_pos := by omega, day_le := h }
  else if hm : d.month + 1 ≤ 12 then
    { year := d.year, month := d.month + 1, day := 1, month_pos := by omega, month_le := hm,
      day_pos := le_rfl, day_le := by have := daysIn_pos d.year (d.month + 1); omega }
  else
    { year := d.year + 1, month := 1, day := 1, month_pos := le_rfl, month_le := by omega,
      day_pos := le_rfl, day_le := by have := daysIn_pos (d.year + 1) 1; omega }

def Date.previous (d : Date) : Date :=
  if h : 1 ≤ d.day - 1 then
    { d with day := d.day - 1, day_pos := h, day_le := by have := d.day_le; omega }
  else if hm : 1 ≤ d.month - 1 then
    { year := d.year, month := d.month - 1, day := daysIn d.year (d.month - 1), month_pos := hm,
      month_le := by have := d.month_le; omega,
      day_pos := by have := daysIn_pos d.year (d.month - 1); omega, day_le := le_rfl }
  else
    { year := d.year - 1, month := 12, day := 31, month_pos := by omega, month_le := le_rfl,
      day_pos := by omega, day_le := by unfold daysIn; simp }

/-- The day that many days later, or earlier for a negative number. -/
def Date.shift (d : Date) : ℤ → Date
  | .ofNat n => Date.next^[n] d
  | .negSucc n => Date.previous^[n + 1] d

/-- The time in UTC of a clock that shows `minutes` of the day `d` and is `offset` minutes ahead. -/
def atOffset (d : Date) (minutes : ℕ) (offset : ℤ) {second nano : ℕ} (hsecond : second < 60)
    (hnano : nano < 10 ^ 9) : Time :=
  let total : ℤ := minutes - offset
  { d.shift (total / 1440) with
    hour := (total % 1440).toNat / 60
    minute := (total % 1440).toNat % 60
    second
    nano
    hour_lt := by have := Int.emod_lt_of_pos total (show (0 : ℤ) < 1440 by norm_num); omega
    minute_lt := Nat.mod_lt _ (by norm_num)
    second_lt := hsecond
    nano_lt := hnano }

/-! ### Texts -/

/-- The last `w` digits of a number. -/
def fixed : ℕ → ℕ → Bytes
  | 0, _ => []
  | w + 1, n => fixed w (n / 10) ++ [digit n]

/-- A number of exactly `w` digits. -/
def readFixed (w : ℕ) (bs : Bytes) : Option (ℕ × Bytes) :=
  if bs.length < w then none else (parseDigits (bs.take w)).map fun n => (n, bs.drop w)

/-- A number of one or two digits. -/
def readShort (bs : Bytes) : Option (ℕ × Bytes) := (readFixed 2 bs).or (readFixed 1 bs)

/-- The character `b`. -/
def readByte (b : UInt8) (bs : Bytes) : Option Bytes := if bs.head? = some b then bs.tail else none

/-- The fraction of a second in nanoseconds: all its digits are read, nine count. -/
def readFraction (bs : Bytes) : ℕ × Bytes :=
  let digits := bs.tail.takeWhile isDigit
  if (bs.head? = some 46 ∨ bs.head? = some 44) ∧ digits ≠ [] then
    (((digits ++ List.replicate 9 48).take 9).foldl
        (fun n (b : UInt8) => 10 * n + (b.toNat - 48)) 0,
      bs.tail.dropWhile isDigit)
  else (0, bs)

/-- The zone in minutes ahead of UTC. -/
def readZone (bs : Bytes) : Option (ℤ × Bytes) :=
  if bs.head? = some 90 then some (0, bs.tail)
  else do
    let (hours, rest) ← readFixed 2 bs.tail
    let rest ← readByte 58 rest
    let (minutes, rest) ← readFixed 2 rest
    if hours ≤ 24 ∧ minutes ≤ 60 then
      if bs.head? = some 43 then some (hours * 60 + minutes, rest)
      else if bs.head? = some 45 then some (-(hours * 60 + minutes), rest)
      else none
    else none

/-- The fields of a text before they are checked. -/
structure Fields where
  year : ℕ
  month : ℕ
  day : ℕ
  hour : ℕ
  minute : ℕ
  second : ℕ
  nano : ℕ
  offset : ℤ

/-- Year, month and day. -/
def readDate (bs : Bytes) : Option ((ℕ × ℕ × ℕ) × Bytes) := do
  let (year, bs) ← readFixed 4 bs
  let bs ← readByte 45 bs
  let (month, bs) ← readFixed 2 bs
  let bs ← readByte 45 bs
  let (day, bs) ← readFixed 2 bs
  some ((year, month, day), bs)

/-- Hour, minute, second and nanosecond. -/
def readClock (bs : Bytes) : Option ((ℕ × ℕ × ℕ × ℕ) × Bytes) := do
  let (hour, bs) ← readShort bs
  let bs ← readByte 58 bs
  let (minute, bs) ← readFixed 2 bs
  let bs ← readByte 58 bs
  let (second, bs) ← readFixed 2 bs
  some ((hour, minute, second, (readFraction bs).1), (readFraction bs).2)

/-- The fields of a text that has nothing else. -/
def readFields (bs : Bytes) : Option Fields := do
  let ((year, month, day), bs) ← readDate bs
  let bs ← readByte 84 bs
  let ((hour, minute, second, nano), bs) ← readClock bs
  let (offset, bs) ← readZone bs
  if bs = [] then some ⟨year, month, day, hour, minute, second, nano, offset⟩ else none

/-- The point in time of fields that are in range. -/
def Fields.time? (f : Fields) : Option Time :=
  if h : f.hour < 24 ∧ f.minute < 60 ∧ f.second < 60 ∧ f.nano < 10 ^ 9 then
    (date? f.year f.month f.day).map fun d =>
      atOffset d (f.hour * 60 + f.minute) f.offset h.2.2.1 h.2.2.2
  else none

def parse (bs : Bytes) : Option Time := (readFields bs).bind Fields.time?

end Rfc3339
