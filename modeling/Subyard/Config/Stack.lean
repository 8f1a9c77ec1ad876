import Subyard.Config.Agreement

/-!
A settings file as the texts of its records, one after the other.

* `textsFrom`: the records without their lines' numbers.
* `Whole`: a text that is one record; `Stacked`: texts that are records of a file, of which only the
  last may have no line feed at its end.
* `texts_flatten`, `exists_stacked`: a file is split into the records it was put together from.
* `terminate`: the line feed at the end of a file does not matter.
-/

namespace Subyard.Config

open Text Fallible Lines

variable {texts : List Bytes}

/-- The texts of the records that some lines complete, and the text and the mark that are left. -/
def textsFrom (current : Bytes) (quote : Option UInt8) : List Bytes → List Bytes × Bytes × Option UInt8
  | [] => ([], current, quote)
  | line :: lines =>
      if scanQuote (chomp line) quote = none then
        ((current ++ line) :: (textsFrom [] none lines).1, (textsFrom [] none lines).2)
      else textsFrom (current ++ line) (scanQuote (chomp line) quote) lines

/-- The records of the editor are these texts. -/
lemma records_texts (lines : List Bytes) : ∀ c : Cursor,
    (records editStep c lines).1.map (·.2) = (textsFrom c.current c.quote lines).1
      ∧ (records editStep c lines).2.current = (textsFrom c.current c.quote lines).2.1
      ∧ (records editStep c lines).2.quote = (textsFrom c.current c.quote lines).2.2 := by
  induction lines with
  | nil => exact fun c => ⟨rfl, rfl, rfl⟩
  | cons line lines ih =>
    intro c
    have hnext := ih (editStep c line).1
    rw [records, textsFrom]
    by_cases hopen : scanQuote (chomp line) c.quote = none
    · rw [editStep, Cursor.close, hopen, if_neg (by simp)] at hnext ⊢
      rw [if_pos rfl]
      refine ⟨?_, hnext.2⟩
      rw [List.map_append, hnext.1]
      rfl
    · rw [editStep, Cursor.close, if_pos hopen] at hnext ⊢
      rw [if_neg hopen]
      exact hnext

lemma textsFrom_append (a b : List Bytes) : ∀ (current : Bytes) (quote : Option UInt8),
    textsFrom current quote (a ++ b)
      = ((textsFrom current quote a).1
          ++ (textsFrom (textsFrom current quote a).2.1 (textsFrom current quote a).2.2 b).1,
        (textsFrom (textsFrom current quote a).2.1 (textsFrom current quote a).2.2 b).2) := by
  induction a with
  | nil => exact fun _ _ => rfl
  | cons line a ih =>
    intro current quote
    rw [List.cons_append, textsFrom, textsFrom]
    split
    · rw [ih]
      rfl
    · rw [ih]

/-- A text that is one record. -/
def Whole (text : Bytes) : Prop := textsFrom [] none (splitAfter text) = ([text], [], none)

/-- Records one after the other; only the last may have no line feed at its end. -/
def Stacked : List Bytes → Prop
  | [] => True
  | text :: texts => Whole text ∧ (text.getLast? = some 10 ∨ texts = []) ∧ Stacked texts

/-- **A file is split into the records it was put together from.** -/
lemma texts_flatten (h : Stacked texts) :
    textsFrom [] none (splitAfter texts.flatten) = (texts, [], none) := by
  induction texts with
  | nil => rfl
  | cons text texts ih =>
    obtain ⟨hwhole, hlast | rfl, hrest⟩ := h
    · rw [List.flatten_cons, splitAfter_append (.inr hlast), textsFrom_append, hwhole, ih hrest]
      rfl
    · rw [List.flatten_singleton]
      exact hwhole

/-- What is before and after a line end. -/
lemma splitAfter_eq_append {content : Bytes} {a b : List Bytes} (h : splitAfter content = a ++ b) :
    splitAfter a.flatten = a ∧ splitAfter b.flatten = b
      ∧ (b = [] ∨ a = [] ∨ a.flatten.getLast? = some 10) := by
  induction a generalizing content with
  | nil =>
    rw [List.nil_append] at h
    refine ⟨rfl, ?_, .inr (.inl rfl)⟩
    rw [← h, flatten_splitAfter]
  | cons line a ih =>
    rcases line_cases content with hline | ⟨body, rest, hbody, rfl⟩
    · by_cases hnil : content = []
      · rw [hnil] at h
        cases h
      · rw [(splitAfter_line hline).1 hnil, List.cons_append] at h
        obtain ⟨rfl, htail⟩ := List.cons.inj h
        obtain ⟨rfl, rfl⟩ := List.append_eq_nil_iff.mp htail.symm
        refine ⟨?_, rfl, .inl rfl⟩
        rw [List.flatten_singleton, (splitAfter_line hline).1 hnil]
    · rw [(splitAfter_line hbody).2, List.cons_append] at h
      obtain ⟨rfl, htail⟩ := List.cons.inj h
      obtain ⟨ha, hb, hcut⟩ := ih htail
      refine ⟨?_, hb, hcut.imp_right fun hcut => .inr ?_⟩
      · rw [List.flatten_cons, List.append_assoc, List.singleton_append, (splitAfter_line hbody).2,
          ha]
      · rcases hcut with rfl | hcut
        · simp
        · rw [List.flatten_cons, List.getLast?_append, hcut]
          rfl

/-- The first lines of a file without an open record are one. -/
lemma exists_first (lines : List Bytes) : ∀ (current : Bytes) (quote : Option UInt8),
    (textsFrom current quote lines).2 = ([], none) → lines ≠ [] →
    ∃ a b, lines = a ++ b ∧ a ≠ [] ∧ textsFrom current quote a = ([current ++ a.flatten], [], none)
      ∧ (textsFrom [] none b).2 = ([], none) := by
  induction lines with
  | nil => exact fun _ _ _ hne => absurd rfl hne
  | cons line lines ih =>
    intro current quote hend _
    rw [textsFrom] at hend
    by_cases hopen : scanQuote (chomp line) quote = none
    · rw [if_pos hopen] at hend
      refine ⟨[line], lines, rfl, by simp, ?_, hend⟩
      rw [textsFrom, if_pos hopen, List.flatten_singleton]
      rfl
    · rw [if_neg hopen] at hend
      have hne : lines ≠ [] := by
        rintro rfl
        exact hopen (congrArg Prod.snd hend)
      obtain ⟨a, b, rfl, -, ha, hb⟩ := ih _ _ hend hne
      refine ⟨line :: a, b, rfl, by simp, ?_, hb⟩
      rw [textsFrom, if_neg hopen, ha, List.flatten_cons, List.append_assoc]

/-- A file without an open record is put together from its records. -/
lemma exists_stacked (content : Bytes) (h : (textsFrom [] none (splitAfter content)).2 = ([], none)) :
    ∃ texts, Stacked texts ∧ content = texts.flatten := by
  induction hn : content.length using Nat.strong_induction_on generalizing content with
  | _ n ih =>
    by_cases hnil : splitAfter content = []
    · refine ⟨[], trivial, ?_⟩
      rw [← flatten_splitAfter content, hnil]
    · obtain ⟨a, b, hsplit, hne, ha, hb⟩ := exists_first _ _ _ h hnil
      obtain ⟨hsa, hsb, hcut⟩ := splitAfter_eq_append hsplit
      have hcontent : content = a.flatten ++ b.flatten := by
        rw [← List.flatten_append, ← hsplit, flatten_splitAfter]
      have hpos : a.flatten ≠ [] := fun heq => hne (by rw [← hsa, heq]; rfl)
      have hshort : b.flatten.length < n := by
        have := List.length_pos_iff.mpr hpos
        rw [← hn, hcontent, List.length_append]
        omega
      obtain ⟨texts, hstacked, htexts⟩ := ih _ hshort b.flatten (by rwa [hsb]) rfl
      refine ⟨a.flatten :: texts, ⟨?_, ?_, hstacked⟩, ?_⟩
      · rw [Whole, hsa, ha, List.nil_append]
      · rcases hcut with rfl | rfl | hcut
        · right
          cases texts with
          | nil => rfl
          | cons text texts =>
            have hempty : text = [] := (List.append_eq_nil_iff.mp (by
              rw [← List.flatten_cons, ← htexts]; rfl)).1
            have hwhole := hstacked.1
            rw [hempty, Whole] at hwhole
            cases hwhole
        · exact absurd rfl hne
        · exact .inl hcut
      · rw [List.flatten_cons, ← htexts, hcontent]

/-! ### The end of a file -/

/-- A text is some lines and what follows the last line feed. -/
lemma last_line (text : Bytes) :
    ∃ front body, text = front ++ body ∧ (front = [] ∨ front.getLast? = some 10) ∧ 10 ∉ body := by
  induction text with
  | nil => exact ⟨[], [], rfl, .inl rfl, by simp⟩
  | cons b text ih =>
    obtain ⟨front, body, rfl, hfront, hbody⟩ := ih
    by_cases hnil : front = []
    · subst hnil
      by_cases hb : b = 10
      · exact ⟨[b], body, rfl, .inr (by rw [hb]; rfl), hbody⟩
      · exact ⟨[], b :: body, rfl, .inl rfl, by simp [hbody, Ne.symm hb]⟩
    · refine ⟨b :: front, body, rfl, .inr ?_, hbody⟩
      rw [List.getLast?_cons_of_ne_nil hnil]
      exact hfront.resolve_left hnil

/-- A text with a line feed at its end. -/
def endLine (text : Bytes) : Bytes := if text.getLast? = some 10 then text else text ++ [10]

lemma getLast_endLine (text : Bytes) : (endLine text).getLast? = some 10 := by
  rw [endLine]
  split
  · assumption
  · exact List.getLast?_concat

lemma trimSpace_endLine (text : Bytes) : trimSpace (endLine text) = trimSpace text := by
  rw [endLine]
  split
  · rfl
  · exact trimSpace_append_blank (.of_mem (by decide)) text

lemma textsFrom_singleton (current line : Bytes) (quote : Option UInt8) :
    textsFrom current quote [line]
      = if scanQuote (chomp line) quote = none then ([current ++ line], [], none)
        else ([], current ++ line, scanQuote (chomp line) quote) := rfl

/-- A record stays one with a line feed at its end. -/
lemma Whole.endLine {text : Bytes} (h : Whole text) : Whole (endLine text) := by
  rw [Config.endLine]
  split
  · exact h
  · next hlast =>
      obtain ⟨front, body, rfl, hfront, hbody⟩ := last_line text
      have hne : body ≠ [] := by
        rintro rfl
        rw [List.append_nil] at h hlast
        rcases hfront with rfl | hfront
        · rw [Whole] at h
          cases h
        · exact hlast hfront
      rw [Whole, splitAfter_append hfront, textsFrom_append, (splitAfter_line hbody).1 hne,
        textsFrom_singleton, chomp_of_not_mem hbody] at h
      rw [Whole, List.append_assoc, splitAfter_append hfront, textsFrom_append,
        (splitAfter_line hbody).2 [], splitAfter, textsFrom_singleton, chomp_concat]
      by_cases hopen : scanQuote body (textsFrom [] none (splitAfter front)).2.2 = none
      · rw [if_pos hopen] at h ⊢
        obtain ⟨hfirst, htext⟩ := List.append_singleton_inj.mp
          ((congrArg Prod.fst h).trans (List.nil_append [front ++ body]).symm)
        rw [hfirst, List.nil_append, ← List.append_assoc, htext, List.append_assoc]
      · rw [if_neg hopen] at h
        exact absurd (congrArg (·.2.2) h) hopen

/-- The records with a line feed at the end of the last one. -/
def terminate : List Bytes → List Bytes
  | [] => []
  | [text] => [endLine text]
  | text :: next :: texts => text :: terminate (next :: texts)

/-- The lines of a text with a line feed at its end. -/
lemma endLine_lines (text : Bytes) : endLine text = text ∨ endLine text = [10]
    ∨ ∃ lines body, 10 ∉ body ∧ splitAfter text = lines ++ [body]
      ∧ splitAfter (endLine text) = lines ++ [body ++ [10]] := by
  obtain ⟨front, body, rfl, hfront, hbody⟩ := last_line text
  by_cases hnil : body = []
  · subst hnil
    rw [List.append_nil]
    rcases hfront with rfl | hfront
    · exact .inr (.inl rfl)
    · exact .inl (if_pos hfront)
  · have hlast : (front ++ body).getLast? ≠ some 10 := by
      rw [List.getLast?_append_of_ne_nil _ hnil]
      exact fun heq => hbody (List.mem_of_getLast? heq)
    refine .inr (.inr ⟨splitAfter front, body, hbody, ?_, ?_⟩)
    · rw [splitAfter_append hfront, (splitAfter_line hbody).1 hnil]
    · rw [endLine, if_neg hlast, List.append_assoc, splitAfter_append hfront,
        (splitAfter_line hbody).2 []]
      rfl

lemma endLine_endLine (text : Bytes) : endLine (endLine text) = endLine text :=
  if_pos (getLast_endLine text)

lemma Stacked.terminate_eq (h : Stacked texts) : terminate texts = texts.map endLine := by
  induction texts with
  | nil => rfl
  | cons text texts ih =>
    obtain ⟨-, hlast, hrest⟩ := h
    cases texts with
    | nil => rfl
    | cons next texts =>
      have hend : endLine text = text := if_pos (hlast.resolve_right (by simp))
      rw [terminate, ih hrest]
      exact congrArg (· :: _) hend.symm

lemma Stacked.terminate_append {more : List Bytes} (h : Stacked texts) (hmore : Stacked more) :
    Stacked (terminate texts ++ more) := by
  induction texts with
  | nil => exact hmore
  | cons text texts ih =>
    obtain ⟨hwhole, hlast, hrest⟩ := h
    cases texts with
    | nil => exact ⟨hwhole.endLine, .inl (getLast_endLine text), hmore⟩
    | cons next texts => exact ⟨hwhole, .inl (hlast.resolve_right (by simp)), ih hrest⟩

lemma Whole.ne_nil {text : Bytes} (h : Whole text) : text ≠ [] := by
  rintro rfl
  rw [Whole] at h
  cases h

lemma Stacked.flatten_terminate (h : Stacked texts) : (terminate texts).flatten = texts.flatten
      ++ (if texts.flatten ≠ [] ∧ texts.flatten.getLast? ≠ some 10 then [10] else []) := by
  induction texts with
  | nil => rfl
  | cons text texts ih =>
    obtain ⟨hwhole, hlast, hrest⟩ := h
    cases texts with
    | nil =>
      rw [terminate, List.flatten_singleton, List.flatten_singleton, endLine]
      by_cases hend : text.getLast? = some 10
      · simp [hend]
      · simp [hend, hwhole.ne_nil]
    | cons next texts =>
      have hne : (next :: texts).flatten ≠ [] := by
        rw [List.flatten_cons]
        exact List.append_ne_nil_of_left_ne_nil hrest.1.ne_nil _
      have hend : (text ++ (next :: texts).flatten).getLast? = (next :: texts).flatten.getLast? :=
        List.getLast?_append_of_ne_nil _ hne
      have hall : text ++ (next :: texts).flatten ≠ [] :=
        List.append_ne_nil_of_right_ne_nil _ hne
      rw [terminate, List.flatten_cons, ih hrest,
        show (text :: next :: texts).flatten = text ++ (next :: texts).flatten from rfl, hend,
        List.append_assoc]
      simp only [ne_eq, hne, hall, not_false_eq_true, true_and]

/-- What holds of the records holds of them with that line feed. -/
lemma forall_terminate {P : Bytes → Prop} (h : ∀ text ∈ texts, P text)
    (hend : ∀ text, P text → P (endLine text)) : ∀ text ∈ terminate texts, P text := by
  induction texts with
  | nil => exact h
  | cons text texts ih =>
    cases texts with
    | nil =>
      intro t ht
      cases List.mem_singleton.mp ht
      exact hend text (h text (by simp))
    | cons next texts =>
      intro t ht
      rcases List.mem_cons.mp ht with rfl | ht
      · exact h t (by simp)
      · exact ih (fun t ht => h t (List.mem_cons_of_mem _ ht)) t ht

/-! ### Properties of files -/

lemma textsFrom_quote (lines : List Bytes) : ∀ (current : Bytes) (quote : Option UInt8),
    (textsFrom current quote lines).2.2
      = lines.foldl (fun quote line => scanQuote (chomp line) quote) quote := by
  induction lines with
  | nil => exact fun _ _ => rfl
  | cons line lines ih =>
    intro current quote
    rw [textsFrom, List.foldl_cons]
    split
    · next h => rw [h, ih]
    · exact ih _ _

lemma quietComments_append (a b : List Bytes) : ∀ quote,
    quietComments quote (a ++ b) = (quietComments quote a
      && quietComments (a.foldl (fun quote line => scanQuote (chomp line) quote) quote) b) := by
  induction a with
  | nil => exact fun _ => rfl
  | cons line a ih =>
    intro quote
    rw [List.cons_append, quietComments, quietComments, ih, Bool.and_assoc]
    rfl

/-- The comments of a file are quiet if those of its records are. -/
lemma Stacked.quiet (h : Stacked texts) : quietComments none (splitAfter texts.flatten)
      ↔ ∀ text ∈ texts, quietComments none (splitAfter text) := by
  induction texts with
  | nil => simp [splitAfter, quietComments]
  | cons text texts ih =>
    obtain ⟨hwhole, hlast | rfl, hrest⟩ := h
    · have hquote := textsFrom_quote (splitAfter text) [] none
      rw [show textsFrom [] none (splitAfter text) = _ from hwhole] at hquote
      rw [List.flatten_cons, splitAfter_append (.inr hlast), quietComments_append, ← hquote,
        Bool.and_eq_true, ih hrest, List.forall_mem_cons]
    · simp

lemma Stacked.short (h : Stacked texts) :
    ShortLines texts.flatten ↔ ∀ text ∈ texts, ShortLines text := by
  induction texts with
  | nil => simp [ShortLines, splitAfter]
  | cons text texts ih =>
    obtain ⟨-, hlast | rfl, hrest⟩ := h
    · rw [List.forall_mem_cons, ← ih hrest, ShortLines, List.flatten_cons,
        splitAfter_append (.inr hlast), List.forall_mem_append]
      rfl
    · simp

end Subyard.Config
