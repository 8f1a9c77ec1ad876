import Subyard.Library.Rfc3339

/-!
Points in time as numbers of nanoseconds.

* `Date.ordinal`: the days since the start of the calendar, where the year 1 begins on day 1.
* `Time.nanos`: the nanoseconds since then.
* `sub`: the difference of two points as a duration of 64 bits, which stops at its bounds.
-/

open Text

namespace Rfc3339

/-- The number of a day. -/
def Date.ordinal (d : Date) : ℤ :=
  365 * (d.year - 1) + (d.year - 1) / 4 - (d.year - 1) / 100 + (d.year - 1) / 400
    + ((List.range' 1 (d.month - 1)).map fun m => (daysIn d.year m : ℤ)).sum + d.day

def Time.nanos (t : Time) : ℤ :=
  (((t.toDate.ordinal * 24 + t.hour) * 60 + t.minute) * 60 + t.second) * 10 ^ 9 + t.nano

example : (parse (str "2024-03-01T00:00:00Z")).map Time.nanos
    = (parse (str "2024-02-28T22:00:00-02:00")).map fun t => t.nanos + 24 * 3600 * 10 ^ 9 := by
  decide +kernel

/-- `Sub` of two times. -/
def sub (t u : ℤ) : ℤ := max (min (t - u) (2 ^ 63 - 1)) (-2 ^ 63)

lemma sub_eq {t u : ℤ} (hle : u ≤ t) (hlt : t - u < 2 ^ 63) : sub t u = t - u := by
  rw [sub, min_eq_left (by omega), max_eq_left (by omega)]

end Rfc3339
