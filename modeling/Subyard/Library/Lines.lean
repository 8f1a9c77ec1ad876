import Subyard.Library.Text

/-!
Lines and white space of texts.

* `strip`: take away the members of a family of strings at the start of a text; `strip_append` and
  `strip_of_clear` determine it.
* `trimSpace`: a text without the white space around it, as Unicode has it.
* `splitAfter`: the lines of a text with their ends.
* `unCR`: a text with the carriage returns before line feeds left out, and `trimSpace_unCR`.
-/

namespace Lines

open Text

/-! ### Stripping -/

section Strip

variable (S : List Bytes)

/-- The scan behind `strip`: `n` octets of the current member are still to be taken away. -/
def stripFrom : ℕ → Bytes → Bytes
  | _, [] => []
  | n + 1, _ :: bs => stripFrom n bs
  | 0, b :: bs =>
      match S.find? (·.isPrefixOf (b :: bs)) with
      | none => b :: bs
      | some s => stripFrom (s.length - 1) bs

/-- A text without the members of `S` it starts with. -/
def strip (bs : Bytes) : Bytes := stripFrom S 0 bs

/-- A family of nonempty strings none of which is the start of another. -/
def Clean : Prop := (∀ s ∈ S, s ≠ []) ∧ ∀ s ∈ S, ∀ t ∈ S, s <+: t → s = t

instance : Decidable (Clean S) := inferInstanceAs (Decidable (_ ∧ _))

/-- No member of `S` starts the text. -/
def Clear (bs : Bytes) : Prop := ∀ s ∈ S, ¬ s <+: bs

instance (bs : Bytes) : Decidable (Clear S bs) := inferInstanceAs (Decidable (∀ s ∈ S, _))

variable {S}

lemma stripFrom_eq : ∀ (n : ℕ) (bs : Bytes), stripFrom S n bs = strip S (bs.drop n)
  | 0, _ => rfl
  | _ + 1, [] => rfl
  | n + 1, _ :: bs => stripFrom_eq n bs

/-- A text that no member starts is left alone. -/
lemma strip_of_clear {bs : Bytes} (h : Clear S bs) : strip S bs = bs := by
  cases bs with
  | nil => rfl
  | cons b bs =>
    have hnone : S.find? (·.isPrefixOf (b :: bs)) = none := by
      rw [List.find?_eq_none]
      intro s hs
      rw [List.isPrefixOf_iff_prefix]
      exact h s hs
    rw [strip, stripFrom, hnone]

/-- A member is taken away. -/
lemma strip_append (hS : Clean S) {s : Bytes} (hs : s ∈ S) (bs : Bytes) :
    strip S (s ++ bs) = strip S bs := by
  obtain ⟨b, tail, rfl⟩ := List.exists_cons_of_ne_nil (hS.1 s hs)
  have hfind : S.find? (·.isPrefixOf ((b :: tail) ++ bs)) = some (b :: tail) := by
    have hsome : (S.find? (·.isPrefixOf ((b :: tail) ++ bs))).isSome := by
      rw [List.find?_isSome]
      exact ⟨_, hs, List.isPrefixOf_iff_prefix.mpr (List.prefix_append _ _)⟩
    obtain ⟨t, ht⟩ := Option.isSome_iff_exists.mp hsome
    have hfound := List.find?_some ht
    have hstart : t <+: (b :: tail) ++ bs := List.isPrefixOf_iff_prefix.mp hfound
    have hmem := List.mem_of_find?_eq_some ht
    rw [ht]
    -- two starts of one text are comparable
    rcases List.prefix_or_prefix_of_prefix hstart (List.prefix_append _ bs) with hle | hle
    · rw [hS.2 t hmem _ hs hle]
    · rw [hS.2 _ hs t hmem hle]
  rw [strip, List.cons_append, stripFrom, ← List.cons_append, hfind]
  show stripFrom S ((b :: tail).length - 1) (tail ++ bs) = _
  rw [stripFrom_eq]
  simp

/-- A concatenation of members of `S`. -/
inductive Blank (S : List Bytes) : Bytes → Prop
  | nil : Blank S []
  | append {s bs : Bytes} (hs : s ∈ S) (h : Blank S bs) : Blank S (s ++ bs)

lemma Blank.trans {a b : Bytes} (ha : Blank S a) (hb : Blank S b) : Blank S (a ++ b) := by
  induction ha with
  | nil => exact hb
  | append hs _ ih =>
    rw [List.append_assoc]
    exact .append hs ih

lemma Blank.of_mem {s : Bytes} (hs : s ∈ S) : Blank S s := by
  have h := Blank.append hs .nil
  rwa [List.append_nil] at h

/-- **What `strip` computes.** -/
lemma strip_blank (hS : Clean S) {a bs : Bytes} (ha : Blank S a) (hbs : Clear S bs) :
    strip S (a ++ bs) = bs := by
  induction ha with
  | nil => exact strip_of_clear hbs
  | append hs _ ih => rw [List.append_assoc, strip_append hS hs, ih]

/-- A text is what `strip` takes away and what it leaves. -/
lemma exists_strip (hS : Clean S) (bs : Bytes) :
    ∃ a, Blank S a ∧ bs = a ++ strip S bs ∧ Clear S (strip S bs) := by
  induction hn : bs.length using Nat.strong_induction_on generalizing bs with
  | _ n ih =>
    by_cases hclear : Clear S bs
    · exact ⟨[], .nil, by rw [strip_of_clear hclear, List.nil_append],
        by rwa [strip_of_clear hclear]⟩
    · rw [Clear] at hclear
      push Not at hclear
      obtain ⟨s, hs, rest, rfl⟩ := hclear
      have hpos : 0 < s.length := List.length_pos_iff.mpr (hS.1 s hs)
      obtain ⟨a, ha, heq, hc⟩ := ih rest.length (by rw [← hn, List.length_append]; omega) rest rfl
      rw [strip_append hS hs]
      exact ⟨s ++ a, .append hs ha, by rw [List.append_assoc, ← heq], hc⟩

end Strip

variable {a m c bs body : Bytes} {b : UInt8}

/-! ### White space -/

/-- The encodings of the white space characters. -/
def spaces : List Bytes :=
  [[9], [10], [11], [12], [13], [32], [0xC2, 0x85], [0xC2, 0xA0], [0xE1, 0x9A, 0x80],
    [0xE2, 0x80, 0x80], [0xE2, 0x80, 0x81], [0xE2, 0x80, 0x82], [0xE2, 0x80, 0x83],
    [0xE2, 0x80, 0x84], [0xE2, 0x80, 0x85], [0xE2, 0x80, 0x86], [0xE2, 0x80, 0x87],
    [0xE2, 0x80, 0x88], [0xE2, 0x80, 0x89], [0xE2, 0x80, 0x8A], [0xE2, 0x80, 0xA8],
    [0xE2, 0x80, 0xA9], [0xE2, 0x80, 0xAF], [0xE2, 0x81, 0x9F], [0xE3, 0x80, 0x80]]

def trimLeft (bs : Bytes) : Bytes := strip spaces bs

def trimRight (bs : Bytes) : Bytes := (strip (spaces.map List.reverse) bs.reverse).reverse

/-- A text without the white space around it. -/
def trimSpace (bs : Bytes) : Bytes := trimRight (trimLeft bs)

lemma clean_spaces : Clean spaces := by decide

lemma clean_reversed : Clean (spaces.map List.reverse) := by decide

/-- White space characters start with an octet that continues none. -/
lemma spaces_shape : ∀ s ∈ spaces, (∃ b ∈ s.head?, ¬ isTail b) ∧ ∀ b ∈ s.tail, isTail b := by
  decide +kernel

/-- No white space character ends the text. -/
def ClearEnd (bs : Bytes) : Prop := ∀ s ∈ spaces, ¬ s <:+ bs

instance (bs : Bytes) : Decidable (ClearEnd bs) := inferInstanceAs (Decidable (∀ s ∈ spaces, _))

lemma blank_reverse (h : Blank spaces a) : Blank (spaces.map List.reverse) a.reverse := by
  induction h with
  | nil => exact .nil
  | append hs _ ih =>
    rw [List.reverse_append]
    exact ih.trans (.of_mem (List.mem_map_of_mem hs))

lemma blank_of_reverse (h : Blank (spaces.map List.reverse) a) : Blank spaces a.reverse := by
  induction h with
  | nil => exact .nil
  | append hs _ ih =>
    obtain ⟨s, hmem, rfl⟩ := List.mem_map.mp hs
    rw [List.reverse_append, List.reverse_reverse]
    exact ih.trans (.of_mem hmem)

lemma trimRight_blank (hm : ClearEnd m) (hc : Blank spaces c) : trimRight (m ++ c) = m := by
  have hclear : Clear (spaces.map List.reverse) m.reverse := by
    intro s hs hstart
    obtain ⟨s, hmem, rfl⟩ := List.mem_map.mp hs
    exact hm s hmem (List.reverse_prefix.mp hstart)
  rw [trimRight, List.reverse_append, strip_blank clean_reversed (blank_reverse hc) hclear,
    List.reverse_reverse]

lemma exists_trimRight (bs : Bytes) :
    ∃ c, Blank spaces c ∧ bs = trimRight bs ++ c ∧ ClearEnd (trimRight bs) := by
  obtain ⟨a, ha, heq, hclear⟩ := exists_strip clean_reversed bs.reverse
  refine ⟨a.reverse, blank_of_reverse ha, ?_, fun s hs hend => ?_⟩
  · rw [trimRight, ← List.reverse_append, ← heq, List.reverse_reverse]
  · refine hclear s.reverse (List.mem_map_of_mem hs) ?_
    rw [← List.reverse_prefix, trimRight, List.reverse_reverse] at hend
    exact hend

lemma clear_nil : Clear spaces [] := by decide

/-- What starts with white space is not clear. -/
lemma eq_nil_of_blank (h : Blank spaces a) (hclear : Clear spaces a) : a = [] := by
  cases h with
  | nil => rfl
  | append hs _ => exact absurd (List.prefix_append _ _) (hclear _ hs)

/-- Nothing continues what is before it. -/
def Fresh (bs : Bytes) : Prop := ∀ b ∈ bs.head?, ¬ isTail b

lemma Blank.fresh (h : Blank spaces c) (rest : Bytes) (hrest : Fresh rest) : Fresh (c ++ rest) := by
  cases h with
  | nil => exact hrest
  | append hs _ =>
    obtain ⟨⟨b, hb, htail⟩, _⟩ := spaces_shape _ hs
    intro b' hb'
    rw [List.append_assoc, List.head?_append, hb] at hb'
    cases hb'
    exact htail

/-- No white space character is on both sides of where a text is cut. -/
lemma Clear.append {rest : Bytes} (hm : Clear spaces m) (hne : m ≠ []) (hrest : Fresh rest) :
    Clear spaces (m ++ rest) := by
  rintro s hs ⟨tail, htail⟩
  rcases List.append_eq_append_iff.mp htail with ⟨t, rfl, -⟩ | ⟨t, rfl, rfl⟩
  · exact hm s hs (List.prefix_append _ _)
  · obtain ⟨b, m, rfl⟩ := List.exists_cons_of_ne_nil hne
    cases t with
    | nil => exact hm _ hs (by rw [List.append_nil])
    | cons c t =>
      refine hrest c rfl ((spaces_shape _ hs).2 c ?_)
      simp

/-- **What `trimSpace` computes.** -/
lemma trimSpace_blank (ha : Blank spaces a) (hc : Blank spaces c) (hm : Clear spaces m)
    (hend : ClearEnd m) : trimSpace (a ++ m ++ c) = m := by
  have hclear : m ≠ [] → Clear spaces (m ++ c) := fun hne => by
    have hfresh := hc.fresh [] (by simp [Fresh])
    rw [List.append_nil] at hfresh
    exact hm.append hne hfresh
  by_cases hne : m = []
  · subst hne
    have hblank := ha.trans hc
    have hleft := strip_blank clean_spaces hblank clear_nil
    rw [List.append_nil] at hleft
    rw [List.append_nil, trimSpace, trimLeft, hleft]
    rfl
  · rw [trimSpace, trimLeft, List.append_assoc, strip_blank clean_spaces ha (hclear hne),
      trimRight_blank hend hc]

/-- A text is its white space and what is between. -/
lemma exists_trimSpace (bs : Bytes) :
    ∃ a c, Blank spaces a ∧ Blank spaces c ∧ bs = a ++ trimSpace bs ++ c
      ∧ Clear spaces (trimSpace bs) ∧ ClearEnd (trimSpace bs) := by
  obtain ⟨a, ha, heq, hclear⟩ := exists_strip clean_spaces bs
  obtain ⟨c, hc, heq', hend⟩ := exists_trimRight (strip spaces bs)
  refine ⟨a, c, ha, hc, ?_, fun s hs hstart => ?_, hend⟩
  · rw [List.append_assoc, trimSpace, trimLeft, ← heq', ← heq]
  · refine hclear s hs (hstart.trans ?_)
    exact ⟨c, heq'.symm⟩

@[simp] lemma trimSpace_trimSpace (bs : Bytes) : trimSpace (trimSpace bs) = trimSpace bs := by
  obtain ⟨_, _, _, _, _, hclear, hend⟩ := exists_trimSpace bs
  have h := trimSpace_blank .nil .nil hclear hend
  rwa [List.nil_append, List.append_nil] at h

/-- White space at the end does not matter. -/
lemma trimSpace_append_blank (hc : Blank spaces c) (bs : Bytes) :
    trimSpace (bs ++ c) = trimSpace bs := by
  obtain ⟨a, c', ha, hc', heq, hclear, hend⟩ := exists_trimSpace bs
  have h := trimSpace_blank ha (hc'.trans hc) hclear hend
  rwa [← List.append_assoc, ← heq] at h

/-- What is left of a text starts as the text does after its white space. -/
lemma head_trimSpace {line rest : Bytes} (hne : trimSpace line ≠ []) (hrest : Fresh rest) :
    (trimSpace (line ++ rest)).head? = (trimSpace line).head? := by
  obtain ⟨a, c, ha, hc, heq, hclear, -⟩ := exists_trimSpace line
  have hall : Clear spaces (trimSpace line ++ (c ++ rest)) := hclear.append hne (hc.fresh rest hrest)
  have hleft : trimLeft (line ++ rest) = trimSpace line ++ (c ++ rest) := by
    nth_rewrite 1 [heq]
    rw [List.append_assoc, List.append_assoc]
    exact strip_blank clean_spaces ha hall
  obtain ⟨c', hc', heq', -⟩ := exists_trimRight (trimLeft (line ++ rest))
  have hright : trimRight (trimLeft (line ++ rest)) ≠ [] := by
    intro hnil
    rw [hnil, List.nil_append, hleft] at heq'
    rw [← heq'] at hc'
    exact hne (List.append_eq_nil_iff.mp (eq_nil_of_blank hc' hall)).1
  obtain ⟨b, tail, hb⟩ := List.exists_cons_of_ne_nil hright
  obtain ⟨d, tail', hd⟩ := List.exists_cons_of_ne_nil hne
  rw [hleft, hd] at heq'
  rw [hleft, hd] at hb
  rw [trimSpace, hleft, hd, hb]
  rw [hb, List.cons_append, List.cons_append] at heq'
  rw [List.head?_cons, List.head?_cons, (List.cons.inj heq').1]

/-- An octet of no white space character. -/
def isInk (b : UInt8) : Bool := spaces.all fun s => b ∉ s

lemma clear_of_ink (h : isInk b) (bs : Bytes) : Clear spaces (b :: bs) := by
  intro s hs hstart
  have hnot : b ∉ s := of_decide_eq_true (List.all_eq_true.mp h s hs)
  obtain ⟨c, tail, rfl⟩ := List.exists_cons_of_ne_nil (clean_spaces.1 s hs)
  obtain ⟨rest, hrest⟩ := hstart
  exact hnot (List.mem_cons.mpr (.inl (List.cons.inj hrest).1.symm))

lemma clearEnd_of_ink (h : isInk b) (bs : Bytes) : ClearEnd (bs ++ [b]) := by
  intro s hs hend
  have hnot : b ∉ s := of_decide_eq_true (List.all_eq_true.mp h s hs)
  obtain ⟨rest, hrest⟩ := hend
  have hlast : s.getLast? = some b := by
    have := congrArg List.getLast? hrest
    rwa [List.getLast?_append_of_ne_nil _ (clean_spaces.1 s hs), List.getLast?_concat] at this
  exact hnot (List.mem_of_getLast? hlast)

/-- A text that starts and ends with ink has no white space around it. -/
lemma trimSpace_of_ink {c : UInt8} {cs : Bytes} (hb : isInk b) (hc : isInk c)
    (heq : b :: bs = cs ++ [c]) : trimSpace (b :: bs) = b :: bs := by
  have h := trimSpace_blank .nil .nil (clear_of_ink hb bs) (heq ▸ clearEnd_of_ink hc cs)
  rwa [List.nil_append, List.append_nil] at h

/-- A text that starts with such an octet keeps it. -/
lemma head_trimSpace_ink (hb : isInk b) (bs : Bytes) : (trimSpace (b :: bs)).head? = some b := by
  obtain ⟨a, c, ha, hc, heq, -, -⟩ := exists_trimSpace (b :: bs)
  have hclear := clear_of_ink hb bs
  cases ha with
  | append hs _ =>
    refine absurd ?_ (hclear _ hs)
    rw [heq, List.append_assoc, List.append_assoc]
    exact List.prefix_append _ _
  | nil =>
    rw [List.nil_append] at heq
    cases htrim : trimSpace (b :: bs) with
    | nil =>
      rw [htrim, List.nil_append] at heq
      exact absurd (eq_nil_of_blank (heq ▸ hc) hclear) (by simp)
    | cons d ds =>
      rw [htrim, List.cons_append] at heq
      rw [(List.cons.inj heq).1]
      rfl

/-! ### Lines -/

/-- The lines of a text with their ends; the last one may have none. -/
def splitAfter : Bytes → List Bytes
  | [] => []
  | b :: bs =>
      if b = 10 then [10] :: splitAfter bs
      else
        match splitAfter bs with
        | [] => [[b]]
        | line :: lines => (b :: line) :: lines

/-- A line without the line feed at its end. -/
def chomp (line : Bytes) : Bytes := if line.getLast? = some 10 then line.dropLast else line

/-- A line without the carriage return at its end. -/
def dropCR (line : Bytes) : Bytes := if line.getLast? = some 13 then line.dropLast else line

@[simp] lemma flatten_splitAfter (bs : Bytes) : (splitAfter bs).flatten = bs := by
  induction bs with
  | nil => rfl
  | cons b bs ih =>
      rw [splitAfter]
      split
      · next h => simp [ih, h]
      · rcases hs : splitAfter bs with _ | ⟨line, lines⟩
        · rw [hs] at ih
          simp [← ih]
        · rw [hs] at ih
          simp only [List.flatten_cons, List.cons_append] at ih ⊢
          rw [ih]

/-- A text without a line feed is one line, and so is it with one at its end. -/
lemma splitAfter_line (h : 10 ∉ body) :
    (body ≠ [] → splitAfter body = [body])
      ∧ ∀ rest, splitAfter (body ++ 10 :: rest) = (body ++ [10]) :: splitAfter rest := by
  induction body with
  | nil => exact ⟨fun hne => absurd rfl hne, fun rest => by simp [splitAfter]⟩
  | cons b body ih =>
    have hb : b ≠ 10 := fun heq => h (heq ▸ List.mem_cons_self)
    obtain ⟨ihone, ihrest⟩ := ih fun hmem => h (List.mem_cons_of_mem b hmem)
    refine ⟨fun _ => ?_, fun rest => ?_⟩
    · rw [splitAfter, if_neg hb]
      cases body with
      | nil => rfl
      | cons c body => rw [ihone (by simp)]
    · rw [List.cons_append, splitAfter, if_neg hb, ihrest]
      rfl

/-- A text is a line without a line feed, or one with a line feed and the rest. -/
lemma line_cases (bs : Bytes) :
    10 ∉ bs ∨ ∃ body rest, 10 ∉ body ∧ bs = body ++ 10 :: rest := by
  by_cases h : 10 ∈ bs
  · obtain ⟨body, rest, heq, hnot⟩ := List.eq_append_cons_of_mem h
    exact .inr ⟨body, rest, hnot, heq⟩
  · exact .inl h

lemma splitAfter_append (h : bs = [] ∨ bs.getLast? = some 10) (rest : Bytes) :
    splitAfter (bs ++ rest) = splitAfter bs ++ splitAfter rest := by
  induction hn : bs.length using Nat.strong_induction_on generalizing bs with
  | _ n ih =>
    rcases line_cases bs with hline | ⟨body, tail, hbody, rfl⟩
    · rcases h with rfl | h
      · rfl
      · exact absurd (List.mem_of_getLast? h) hline
    · rw [List.append_assoc, List.cons_append, (splitAfter_line hbody).2, (splitAfter_line hbody).2,
        List.cons_append, ih tail.length (by rw [← hn]; simp; omega) ?_ rfl]
      rcases List.eq_nil_or_concat tail with rfl | ⟨tail, last, rfl⟩
      · exact .inl rfl
      · rcases h with h | h
        · simp at h
        · rw [List.concat_eq_append, ← List.cons_append, ← List.append_assoc,
            List.getLast?_concat] at h
          rw [List.concat_eq_append, List.getLast?_concat]
          exact .inr h

/-! ### Carriage returns -/

/-- A text without the carriage returns before line feeds. -/
def unCR : Bytes → Bytes
  | [] => []
  | b :: bs => if b = 13 ∧ bs.head? = some 10 then unCR bs else b :: unCR bs

@[simp] lemma unCR_nil : unCR [] = [] := rfl

lemma unCR_append {b : Bytes} (h : a.getLast? = some 13 → b.head? ≠ some 10) :
    unCR (a ++ b) = unCR a ++ unCR b := by
  induction a with
  | nil => rfl
  | cons x a ih =>
    have hih : unCR (a ++ b) = unCR a ++ unCR b := by
      cases a with
      | nil => rfl
      | cons y a => exact ih fun hlast => h (by simpa using hlast)
    rw [List.cons_append, unCR, unCR, hih]
    cases a with
    | nil =>
      by_cases hx : x = 13
      · have hb := h (by simp [hx])
        simp [hx, hb]
      · simp [hx]
    | cons y a =>
      by_cases hx : x = 13 ∧ (y :: a).head? = some 10
      · rw [if_pos hx, if_pos (show x = 13 ∧ (y :: a ++ b).head? = some 10 from hx)]
      · rw [if_neg hx, if_neg (show ¬ (x = 13 ∧ (y :: a ++ b).head? = some 10) from hx),
          List.cons_append]

/-- What has no line feed is left alone. -/
lemma unCR_of_not_mem (h : 10 ∉ bs) : unCR bs = bs := by
  induction bs with
  | nil => rfl
  | cons b bs ih =>
    have hhead : bs.head? ≠ some 10 := fun heq =>
      h (List.mem_cons_of_mem b (List.mem_of_head? heq))
    rw [unCR, if_neg fun hb => hhead hb.2, ih fun hmem => h (List.mem_cons_of_mem b hmem)]

/-- And so is what has no carriage return before a line feed. -/
lemma unCR_eq_self (h : ¬ [13, 10] <:+: bs) : unCR bs = bs := by
  induction bs with
  | nil => rfl
  | cons b bs ih =>
    have hhead : ¬ (b = 13 ∧ bs.head? = some 10) := by
      rintro ⟨rfl, hhead⟩
      obtain ⟨rest, rfl⟩ := List.head?_eq_some_iff.mp hhead
      exact h ⟨[], rest, rfl⟩
    rw [unCR, if_neg hhead, ih fun hin => h (hin.trans (List.suffix_cons b bs).isInfix)]

/-- Only carriage returns are left out. -/
lemma mem_unCR (hb : b ≠ 13) : b ∈ unCR bs ↔ b ∈ bs := by
  induction bs with
  | nil => rfl
  | cons c bs ih =>
    rw [unCR]
    split
    · next hc => rw [ih, List.mem_cons, hc.1, or_iff_right hb]
    · rw [List.mem_cons, List.mem_cons, ih]

lemma head_unCR (h : bs.head? ≠ some 13) : (unCR bs).head? = bs.head? := by
  cases bs with
  | nil => rfl
  | cons b bs =>
    rw [unCR, if_neg fun hb => h (by rw [List.head?_cons, hb.1])]
    rfl

lemma getLast_unCR (bs : Bytes) : (unCR bs).getLast? = bs.getLast? := by
  induction bs with
  | nil => rfl
  | cons b bs ih =>
    by_cases hnil : bs = []
    · subst hnil
      rw [unCR, if_neg (by simp)]
      rfl
    · rw [List.getLast?_cons_of_ne_nil hnil, unCR]
      split
      · exact ih
      · rw [List.getLast?_cons_of_ne_nil, ih]
        exact fun hempty => hnil (List.getLast?_eq_none_iff.mp (by rw [← ih, hempty]; rfl))

lemma unCR_eq_nil : unCR bs = [] ↔ bs = [] := by
  rw [← List.getLast?_eq_none_iff, getLast_unCR, List.getLast?_eq_none_iff]

/-- A line is what is left of it without its end, and white space. -/
lemma exists_dropCR_chomp (line : Bytes) : ∃ c, Blank spaces c ∧ line = dropCR (chomp line) ++ c := by
  have hcut : ∀ (b : UInt8) (bs : Bytes), [b] ∈ spaces → ∃ c, Blank spaces c
      ∧ bs = (if bs.getLast? = some b then bs.dropLast else bs) ++ c := by
    intro b bs hb
    split
    · next h =>
        obtain ⟨init, rfl⟩ := List.getLast?_eq_some_iff.mp h
        exact ⟨[b], .of_mem hb, by rw [List.dropLast_concat]⟩
    · exact ⟨[], .nil, by rw [List.append_nil]⟩
  obtain ⟨c, hc, hline⟩ := hcut 10 line (by decide)
  obtain ⟨d, hd, hchomp⟩ := hcut 13 (chomp line) (by decide)
  refine ⟨d ++ c, hd.trans hc, ?_⟩
  rw [← List.append_assoc, dropCR, ← hchomp]
  exact hline

@[simp] lemma chomp_concat (body : Bytes) : chomp (body ++ [10]) = body := by
  rw [chomp, List.getLast?_concat, if_pos rfl, List.dropLast_concat]

lemma chomp_of_not_mem (h : 10 ∉ body) : chomp body = body :=
  if_neg fun heq => h (List.mem_of_getLast? heq)

/-- A line that ends with a line feed loses the carriage return before it. -/
lemma unCR_line (h : 10 ∉ body) : unCR (body ++ [10]) = dropCR body ++ [10] := by
  by_cases hcr : body.getLast? = some 13
  · obtain ⟨init, rfl⟩ := List.getLast?_eq_some_iff.mp hcr
    have hinit : 10 ∉ init := fun hmem => h (List.mem_append_left _ hmem)
    rw [dropCR, if_pos hcr, List.dropLast_concat, List.append_assoc,
      unCR_append fun _ => by simp, unCR_of_not_mem hinit]
    rfl
  · rw [dropCR, if_neg hcr, unCR_append fun heq => absurd heq hcr, unCR_of_not_mem h]
    rfl

/-- The octets before the first line feed are left alone. -/
lemma prefix_of_unCR {s : Bytes} (hs : 10 ∉ s) : ∀ {bs : Bytes}, s <+: unCR bs → s <+: bs := by
  induction s with
  | nil => exact fun _ => List.nil_prefix
  | cons c s ih =>
    intro bs hstart
    cases bs with
    | nil => exact hstart
    | cons b bs =>
      rw [unCR] at hstart
      split at hstart
      · next hb =>
          -- the line feed comes next
          obtain ⟨rest, rfl⟩ : ∃ rest, bs = 10 :: rest := by
            cases bs with
            | nil => cases hb.2
            | cons d rest => exact ⟨rest, by cases hb.2; rfl⟩
          rw [unCR, if_neg (by simp)] at hstart
          obtain ⟨tail, htail⟩ := hstart
          exact absurd (List.cons.inj htail).1 fun heq => hs (heq ▸ List.mem_cons_self)
      · obtain ⟨tail, htail⟩ := hstart
        obtain ⟨rfl, hmore⟩ := List.cons.inj htail
        obtain ⟨rest, hrest⟩ := ih (fun hmem => hs (List.mem_cons_of_mem c hmem)) ⟨tail, hmore⟩
        exact ⟨rest, by rw [List.cons_append, hrest]⟩

/-- And so are those after the last one. -/
lemma suffix_of_unCR {s : Bytes} (hs : 10 ∉ s) : ∀ {bs : Bytes}, s <:+ unCR bs → s <:+ bs := by
  intro bs
  induction bs with
  | nil => exact id
  | cons b bs ih =>
    intro hend
    by_cases hmem : 10 ∈ b :: bs
    · rw [unCR] at hend
      split at hend
      · exact (ih hend).trans (List.suffix_cons b bs)
      · next hb =>
          rcases List.suffix_cons_iff.mp hend with heq | hend
          · refine absurd ?_ hs
            rw [heq]
            rcases List.mem_cons.mp hmem with hb' | hbs
            · exact List.mem_cons.mpr (.inl hb')
            · exact List.mem_cons_of_mem b ((mem_unCR (by decide)).mpr hbs)
          · exact (ih hend).trans (List.suffix_cons b bs)
    · rwa [unCR_of_not_mem hmem] at hend

lemma blank_unCR (h : Blank spaces a) : Blank spaces (unCR a) := by
  induction h with
  | nil => exact .nil
  | @append s bs hs _ ih =>
    by_cases hcr : s = [13]
    · subst hcr
      rw [List.singleton_append, unCR]
      split
      · exact ih
      · exact .append hs ih
    · have hlast : s.getLast? ≠ some 13 := by
        revert hcr
        revert s
        decide
      rw [unCR_append fun h => absurd h hlast]
      refine .append ?_ ih
      have hsame : unCR s = s := by
        clear hlast ih hcr
        revert s
        decide
      rwa [hsame]

lemma lf_of_mem_spaces : ∀ s ∈ spaces, 10 ∈ s → s = [10] := by decide

lemma Clear.head_ne (h : Clear spaces m) (hb : [b] ∈ spaces) : m.head? ≠ some b := by
  intro heq
  obtain ⟨tail, rfl⟩ := List.head?_eq_some_iff.mp heq
  exact h _ hb (List.prefix_append [b] tail)

lemma ClearEnd.getLast_ne (h : ClearEnd m) (hb : [b] ∈ spaces) : m.getLast? ≠ some b := by
  intro heq
  obtain ⟨init, rfl⟩ := List.getLast?_eq_some_iff.mp heq
  exact h _ hb (List.suffix_append init [b])

lemma Clear.unCR (h : Clear spaces m) : Clear spaces (unCR m) := by
  intro s hs hstart
  by_cases hlf : 10 ∈ s
  · cases lf_of_mem_spaces s hs hlf
    cases m with
    | nil => exact absurd hstart (by decide)
    | cons b rest =>
      rw [Lines.unCR] at hstart
      split at hstart
      · next hb => exact h.head_ne (b := 13) (by decide) (by rw [hb.1, List.head?_cons])
      · obtain ⟨tail, htail⟩ := hstart
        exact h.head_ne hs (by rw [(List.cons.inj htail).1, List.head?_cons])
  · exact h s hs (prefix_of_unCR hlf hstart)

lemma ClearEnd.unCR (h : ClearEnd m) : ClearEnd (unCR m) := by
  intro s hs hend
  by_cases hlf : 10 ∈ s
  · cases lf_of_mem_spaces s hs hlf
    rcases List.eq_nil_or_concat m with rfl | ⟨front, b, rfl⟩
    · exact absurd hend (by decide)
    · rw [List.concat_eq_append] at h hend
      have hb : b ≠ 10 := fun heq => h.getLast_ne hs (by rw [heq, List.getLast?_concat])
      rw [unCR_append fun _ => by simpa using hb] at hend
      obtain ⟨init, hinit⟩ := hend
      have hlast := congrArg List.getLast? hinit
      rw [List.getLast?_concat, show Lines.unCR [b] = [b] by simp [Lines.unCR],
        List.getLast?_concat] at hlast
      exact hb (Option.some.inj hlast).symm
  · exact h s hs (suffix_of_unCR hlf hend)

/-- Trimming and leaving out carriage returns go together. -/
lemma trimSpace_unCR (bs : Bytes) : trimSpace (unCR bs) = unCR (trimSpace bs) := by
  obtain ⟨a, c, ha, hc, heq, hclear, hend⟩ := exists_trimSpace bs
  by_cases hne : trimSpace bs = []
  · -- all white space
    rw [hne, List.append_nil] at heq
    have h := trimSpace_blank (blank_unCR (ha.trans hc)) .nil clear_nil (by decide)
    rw [List.append_nil, List.append_nil, ← heq] at h
    rw [h, hne, unCR_nil]
  · have hlast : (trimSpace bs).getLast? ≠ some 13 := hend.getLast_ne (by decide)
    have hhead : (trimSpace bs ++ c).head? ≠ some 10 := by
      rw [List.head?_append_of_ne_nil _ hne]
      exact hclear.head_ne (by decide)
    have hsplit : unCR bs = unCR a ++ unCR (trimSpace bs) ++ unCR c := by
      nth_rewrite 1 [heq]
      rw [List.append_assoc, unCR_append fun _ => hhead, unCR_append fun h => absurd h hlast,
        List.append_assoc]
    rw [hsplit]
    exact trimSpace_blank (blank_unCR ha) (blank_unCR hc) hclear.unCR hend.unCR

end Lines
