import Mathlib.Data.List.Infix
import Mathlib.Tactic

/-!
Texts in which the occurrences of some words are replaced by a mark.

* `Masked`: the occurrences are replaced from left to right, each where it begins first; a part of a
  word at the end of the text is replaced too.
* `Masked.unique`: there is one such text, if no word begins with another.
* `Masked.no_word_left`: **no word is left**, if the mark is a text between two letters that no word
  has, and no word is a part of it.
-/

namespace Subyard.Masking

variable {α : Type}

/-- The text `out` is `text` with its words masked. -/
inductive Masked (words : List (List α)) (mark : List α) : List α → List α → Prop
  | done : Masked words mark [] []
  | word {w rest out : List α} (hw : w ∈ words) (h : Masked words mark rest out) :
      Masked words mark (w ++ rest) (mark ++ out)
  | ending {w text : List α} (hw : w ∈ words) (hne : text ≠ []) (hbegin : text <+: w)
      (hproper : text ≠ w) : Masked words mark text mark
  | letter {b : α} {rest out : List α} (hno : ∀ w ∈ words, ¬ w <+: b :: rest)
      (hnot : ∀ w ∈ words, ¬ b :: rest <+: w) (h : Masked words mark rest out) :
      Masked words mark (b :: rest) (b :: out)

/-! ### Words without a letter -/

section Separator

variable {b : α} {w before behind : List α}

/-- What a text begins with and is without a letter of the text stands before the letter. -/
lemma prefix_of_prefix_append (hw : b ∉ w) (h : w <+: before ++ b :: behind) : w <+: before := by
  induction before generalizing w with
  | nil =>
    cases w with
    | nil => exact List.nil_prefix
    | cons c w =>
      rw [List.nil_append, List.cons_prefix_cons] at h
      exact absurd (h.1 ▸ List.mem_cons_self) hw
  | cons a before ih =>
    cases w with
    | nil => exact List.nil_prefix
    | cons c w =>
      rw [List.cons_append, List.cons_prefix_cons] at h
      exact List.cons_prefix_cons.mpr ⟨h.1, ih (fun hc => hw (List.mem_cons_of_mem _ hc)) h.2⟩

lemma infix_of_infix_append (hw : b ∉ w) (h : w <:+: before ++ b :: behind) :
    w <:+: before ∨ w <:+: behind := by
  induction before with
  | nil =>
    rcases List.infix_cons_iff.mp h with h | h
    · have hnil : w <+: [] := prefix_of_prefix_append hw h
      exact .inl hnil.isInfix
    · exact .inr h
  | cons a before ih =>
    rcases List.infix_cons_iff.mp h with h | h
    · have hbefore : w <+: a :: before := prefix_of_prefix_append hw h
      exact .inl hbefore.isInfix
    · exact (ih h).imp_left List.infix_cons

end Separator

/-! ### Masked texts -/

section Masked

variable {words : List (List α)} {mark text out out' : List α}

/-- **The masked text is determined**, if no word is empty and none begins with another. -/
theorem Masked.unique (hne : [] ∉ words)
    (hfree : ∀ v ∈ words, ∀ w ∈ words, v <+: w → v = w) (h : Masked words mark text out)
    (h' : Masked words mark text out') : out = out' := by
  -- a word at the beginning of a part of a word is that word
  have hending : ∀ {v w rest text : List α}, v ∈ words → w ∈ words → v ++ rest = text →
      text <+: w → text ≠ w → False := by
    rintro v w rest _ hv hw rfl hbegin hproper
    have heq := hfree v hv w hw ((List.prefix_append v rest).trans hbegin)
    subst heq
    exact hproper (hbegin.eq_of_length_le (by simp))
  induction h generalizing out' with
  | done =>
    generalize htext : ([] : List α) = text at h'
    cases h' with
    | done => rfl
    | word hw _ =>
      obtain rfl := (List.append_eq_nil_iff.mp htext.symm).1
      exact absurd hw hne
    | ending _ hne' _ _ => exact absurd htext.symm hne'
    | letter => cases htext
  | @word w rest out hw h ih =>
    generalize htext : w ++ rest = text at h'
    cases h' with
    | done =>
      obtain rfl := (List.append_eq_nil_iff.mp htext).1
      exact absurd hw hne
    | @word v rest' out' hv h' =>
      have hboth : w <+: v ∨ v <+: w :=
        List.prefix_or_prefix_of_prefix (List.prefix_append w rest)
          (htext ▸ List.prefix_append v rest')
      obtain rfl : w = v :=
        hboth.elim (hfree w hw v hv) fun hvw => (hfree v hv w hw hvw).symm
      rw [List.append_cancel_left_eq] at htext
      rw [ih (htext ▸ h')]
    | ending hv _ hbegin hproper => exact (hending hw hv htext hbegin hproper).elim
    | letter hno _ _ => exact absurd (htext ▸ List.prefix_append w rest) (hno w hw)
  | @ending w text hw hne' hbegin hproper =>
    cases h' with
    | done => exact absurd rfl hne'
    | word hv _ => exact (hending hv hw rfl hbegin hproper).elim
    | ending => rfl
    | letter _ hnot _ => exact absurd hbegin (hnot w hw)
  | @letter b rest out hno hnot h ih =>
    generalize htext : b :: rest = text at h'
    cases h' with
    | done => cases htext
    | @word v rest' out' hv h' =>
      exact absurd (htext ▸ List.prefix_append v rest') (hno v hv)
    | ending hv _ hbegin _ => exact absurd (htext ▸ hbegin) (hnot _ hv)
    | letter _ _ h' =>
      cases htext
      rw [ih h']

/-- What the masked text begins with before a mark, the text begins with. -/
lemma Masked.begins {first : α} {tail w : List α} (h : Masked words (first :: tail) text out)
    (hw : first ∉ w) (hbegin : w <+: out) : w <+: text := by
  induction h generalizing w with
  | done => exact hbegin
  | word _ _ _ | ending =>
    have hnil : w <+: [] := prefix_of_prefix_append hw hbegin
    exact hnil.trans List.nil_prefix
  | letter _ _ _ ih =>
    cases w with
    | nil => exact List.nil_prefix
    | cons c w =>
      rw [List.cons_prefix_cons] at hbegin ⊢
      exact ⟨hbegin.1, ih (fun hc => hw (List.mem_cons_of_mem _ hc)) hbegin.2⟩

/-- **No word is left in the masked text.** -/
theorem Masked.no_word_left {first last : α} {label : List α}
    (h : Masked words (first :: label ++ [last]) text out) (hne : [] ∉ words)
    (hletters : ∀ w ∈ words, first ∉ w ∧ last ∉ w) (hlabel : ∀ w ∈ words, ¬ w <:+: label)
    {w : List α} (hw : w ∈ words) : ¬ w <:+: out := by
  obtain ⟨hfirst, hlast⟩ := hletters w hw
  have hempty : ¬ w <:+: [] := fun h => hne (List.infix_nil.mp h ▸ hw)
  -- a word lies inside or behind the mark
  have hmark : ∀ {rest : List α}, w <:+: first :: label ++ [last] ++ rest → w <:+: rest := by
    intro rest hin
    have hsplit : first :: label ++ [last] ++ rest = [] ++ first :: (label ++ last :: rest) := by
      simp
    rw [hsplit] at hin
    have hbehind := (infix_of_infix_append hfirst hin).resolve_left hempty
    exact (infix_of_infix_append hlast hbehind).resolve_left (hlabel w hw)
  induction h with
  | done => exact hempty
  | word _ _ ih => exact fun hin => ih (hmark hin)
  | ending =>
    intro hin
    exact hempty (hmark (by rwa [List.append_nil]))
  | @letter b rest out hno hnot h ih =>
    intro hin
    rcases List.infix_cons_iff.mp hin with hin | hin
    · exact hno w hw ((Masked.letter hno hnot h).begins hfirst hin)
    · exact ih hin

end Masked

end Subyard.Masking
