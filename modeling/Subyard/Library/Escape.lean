import Subyard.Library.Text

/-!
Escapes of single octets: an octet that is not kept is written as a mark and two digits.

* `escape`: the escaped text.
* `escape_injective`: **a text can be told from its escape**, if the mark is not kept.
-/

open Text

namespace Escape

/-- Octets outside of `keep` are written as `mark` and their hexadecimal digits. -/
def escape (mark : UInt8) (keep : UInt8 → Bool) (bs : Bytes) : Bytes :=
  bs.flatMap fun b => if keep b then [b] else mark :: hex [b]

variable {mark : UInt8} {keep : UInt8 → Bool}

lemma escape_cons (b : UInt8) (bs : Bytes) :
    escape mark keep (b :: bs)
      = (if keep b then [b] else mark :: hex [b]) ++ escape mark keep bs :=
  List.flatMap_cons

lemma length_hex_one (b : UInt8) : (hex [b]).length = 2 := by
  simp [hex]

/-- Texts that are kept as a whole are their escapes. -/
lemma escape_of_all {bs : Bytes} (h : bs.all keep) : escape mark keep bs = bs := by
  induction bs with
  | nil => rfl
  | cons b bs ih =>
    rw [List.all_cons, Bool.and_eq_true] at h
    rw [escape_cons, if_pos h.1, ih h.2]
    rfl

/-- An escape without the mark is that of a text that is kept. -/
lemma all_of_escape : ∀ {bs : Bytes}, mark ∉ escape mark keep bs → bs.all keep
  | [], _ => rfl
  | b :: bs, h => by
    rw [escape_cons, List.mem_append, not_or] at h
    rw [List.all_cons, Bool.and_eq_true]
    refine ⟨?_, all_of_escape h.2⟩
    by_contra hb
    rw [if_neg hb] at h
    exact h.1 List.mem_cons_self

/-- **Escaping is injective**, if the mark itself is escaped. -/
theorem escape_injective (hmark : ¬ keep mark) : Function.Injective (escape mark keep) := by
  intro bs
  induction bs with
  | nil =>
    intro cs h
    cases cs with
    | nil => rfl
    | cons c cs =>
      rw [escape_cons] at h
      have := congrArg List.length h
      split at this <;> simp [escape] at this
  | cons b bs ih =>
    intro cs h
    cases cs with
    | nil =>
      rw [escape_cons] at h
      have := congrArg List.length h
      split at this <;> simp [escape] at this
    | cons c cs =>
      rw [escape_cons, escape_cons] at h
      by_cases hb : keep b <;> by_cases hc : keep c
      · rw [if_pos hb, if_pos hc] at h
        obtain ⟨rfl, htail⟩ := List.cons.inj h
        rw [ih htail]
      · rw [if_pos hb, if_neg hc] at h
        exact absurd ((List.cons.inj h).1 ▸ hb) hmark
      · rw [if_neg hb, if_pos hc] at h
        exact absurd ((List.cons.inj h).1 ▸ hc) hmark
      · rw [if_neg hb, if_neg hc] at h
        have hlength : (mark :: hex [b]).length = (mark :: hex [c]).length := by
          rw [List.length_cons, List.length_cons, length_hex_one, length_hex_one]
        obtain ⟨hhead, htail⟩ := List.append_inj h hlength
        obtain rfl := List.singleton_inj.mp (hex_injective (List.cons.inj hhead).2)
        rw [ih htail]

end Escape
