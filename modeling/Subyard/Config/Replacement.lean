import Subyard.Config.Literal

/-!
The record that the editor writes for an assignment.

* `textsFrom_quoted`: a value in single quotation marks is read to its end.
* `replacement_whole`, `replacement_sound`, `replacement_quiet`: it is one record, is accepted and
  has no comment.
* `assigned_replacement`: it assigns the value it was written for.
-/

namespace Subyard.Config

open Text Fallible Lines

/-- What stands between the quotation marks of a value. -/
def quotedBody (value : Bytes) : Bytes :=
  value.flatMap fun char => if char = 39 then [39, 92, 39, 39] else [char]

lemma replacement_eq (name value : Bytes) :
    replacement name value = (name ++ [61, 39]) ++ quotedBody value ++ [39, 10] := by
  simp [replacement, quotePersistentValue, quotedBody]

lemma quotedBody_plain {value : Bytes} (h : 39 ∉ value) : quotedBody value = value := by
  induction value with
  | nil => rfl
  | cons char value ih =>
    rw [List.mem_cons, not_or] at h
    rw [quotedBody, List.flatMap_cons, if_neg (Ne.symm h.1)]
    exact congrArg (char :: ·) (ih h.2)

lemma quotedBody_cons (char : UInt8) (value : Bytes) : quotedBody (char :: value)
    = (if char = 39 then [39, 92, 39, 39] else [char]) ++ quotedBody value := List.flatMap_cons

lemma quotedBody_append (a b : Bytes) : quotedBody (a ++ b) = quotedBody a ++ quotedBody b :=
  List.flatMap_append

lemma not_mem_quotedBody {value : Bytes} (h : 10 ∉ value) : 10 ∉ quotedBody value := by
  intro hmem
  obtain ⟨char, hchar, hmem⟩ := List.mem_flatMap.mp hmem
  split at hmem
  · exact absurd hmem (by decide)
  · cases List.mem_singleton.mp hmem
    exact h hchar

lemma scanQuoteFrom_name {name : Bytes} (h : ∀ char ∈ name, char ≠ 92 ∧ char ≠ 39 ∧ char ≠ 34)
    (rest : Bytes) : scanQuoteFrom false none (name ++ rest) = scanQuoteFrom false none rest := by
  induction name with
  | nil => rfl
  | cons char name ih =>
    obtain ⟨h92, h39, h34⟩ := h char (by simp)
    rw [List.cons_append, scanQuoteFrom, if_neg (by simp), if_neg fun hc => h92 hc.1,
      if_neg fun hc => hc.2.elim h39 h34, if_neg (by simp)]
    exact ih fun c hc => h c (List.mem_cons_of_mem char hc)

/-- A quotation mark in the value is closed, escaped and opened again. -/
lemma scanQuoteFrom_body (body rest : Bytes) :
    scanQuoteFrom false (some 39) (quotedBody body ++ rest) = scanQuoteFrom false (some 39) rest := by
  induction body with
  | nil => rfl
  | cons char body ih =>
    rw [quotedBody_cons, List.append_assoc]
    by_cases h : char = 39
    · rw [if_pos h]
      exact ih
    · rw [if_neg h, List.singleton_append, scanQuoteFrom, if_neg (by simp), if_neg fun hc => hc.2 rfl,
        if_neg (by simp), if_neg fun hc => h (Option.some.inj hc).symm, ih]

/-- A value in single quotation marks is read to its end; `start` is what comes before it on its
first line. -/
lemma textsFrom_quoted (value : Bytes) : ∀ (start : Bytes), 10 ∉ start →
    ∀ quote : Option UInt8,
    (∀ rest, scanQuote (start ++ rest) quote = scanQuoteFrom false (some 39) rest) →
    ∀ current, textsFrom current quote (splitAfter (start ++ quotedBody value ++ [39, 10]))
      = ([current ++ (start ++ quotedBody value ++ [39, 10])], [], none) := by
  induction hn : value.length using Nat.strong_induction_on generalizing value with
  | _ n ih =>
    intro start hstart quote hscan current
    rcases line_cases value with hvalue | ⟨body, rest, hbody, rfl⟩
    · have hline : 10 ∉ start ++ quotedBody value ++ [39] := by
        simp [hstart, not_mem_quotedBody hvalue]
      have hclosed : scanQuote (start ++ quotedBody value ++ [39]) quote = none := by
        rw [List.append_assoc, hscan, scanQuoteFrom_body]
        rfl
      rw [show start ++ quotedBody value ++ [39, 10] = (start ++ quotedBody value ++ [39]) ++ [10]
        by simp, (splitAfter_line hline).2 [], splitAfter, textsFrom_singleton, chomp_concat,
        if_pos hclosed]
    · have hline : 10 ∉ start ++ quotedBody body := by simp [hstart, not_mem_quotedBody hbody]
      have hopen : scanQuote (start ++ quotedBody body) quote = some 39 := by
        have := scanQuoteFrom_body body []
        rw [List.append_nil] at this
        rw [hscan, this]
        rfl
      have hrest := ih rest.length (by simp [← hn]; omega) rest rfl [] (by simp)
        (some 39) (fun _ => rfl) (current ++ (start ++ quotedBody body ++ [10]))
      rw [List.nil_append] at hrest
      rw [quotedBody_append, quotedBody_cons, if_neg (by decide),
        show start ++ (quotedBody body ++ ([10] ++ quotedBody rest)) ++ [39, 10]
          = (start ++ quotedBody body) ++ 10 :: (quotedBody rest ++ [39, 10]) by simp,
        (splitAfter_line hline).2, textsFrom, chomp_concat, hopen, if_neg (by simp), hrest]
      simp

/-- Lines without an open record and without records are none. -/
lemma eq_nil_of_textsFrom {lines : List Bytes} (h : (textsFrom [] none lines).2 = ([], none))
    (hnone : (textsFrom [] none lines).1 = []) : lines = [] := by
  by_contra hne
  obtain ⟨a, b, rfl, -, ha, -⟩ := exists_first lines _ _ h hne
  rw [textsFrom_append, ha] at hnone
  simp at hnone

/-- The lines of a record after its first one are in quotation marks. -/
lemma quiet_of_open (lines : List Bytes) : ∀ {current text : Bytes} {quote : Option UInt8},
    quote ≠ none → textsFrom current quote lines = ([text], [], none) → quietComments quote lines := by
  induction lines with
  | nil => exact fun _ _ => rfl
  | cons line lines ih =>
    intro current text quote hquote h
    rw [textsFrom] at h
    rw [quietComments, Bool.and_eq_true]
    refine ⟨by simp [hquote], ?_⟩
    by_cases hopen : scanQuote (chomp line) quote = none
    · rw [if_pos hopen] at h
      rw [hopen, eq_nil_of_textsFrom (congrArg Prod.snd h) (List.cons.inj (congrArg Prod.fst h)).2]
      rfl
    · rw [if_neg hopen] at h
      exact ih hopen h

lemma Whole.quiet {first : UInt8} {rest : Bytes} (h : Whole (first :: rest)) (hink : isInk first)
    (hcomment : first ≠ 35) : quietComments none (splitAfter (first :: rest)) := by
  obtain ⟨line, lines, hlines⟩ :
      ∃ line lines, splitAfter (first :: rest) = (first :: line) :: lines := by
    have h10 : first ≠ 10 := by
      rintro rfl
      exact absurd hink (by decide)
    rw [splitAfter, if_neg h10]
    split
    · exact ⟨_, _, rfl⟩
    · exact ⟨_, _, rfl⟩
  have hkept : ¬ isSkipped (first :: line) := by
    have hhead := head_trimSpace_ink hink line
    rw [isSkipped, hhead]
    rintro hskip
    rcases Bool.or_eq_true _ _ ▸ hskip with hnil | hmark
    · rw [of_decide_eq_true hnil] at hhead
      cases hhead
    · exact hcomment (Option.some.inj (of_decide_eq_true hmark))
  rw [Whole, hlines, textsFrom] at h
  rw [hlines, quietComments, Bool.and_eq_true]
  refine ⟨by simp [hkept], ?_⟩
  by_cases hopen : scanQuote (chomp (first :: line)) none = none
  · rw [if_pos hopen] at h
    rw [hopen, eq_nil_of_textsFrom (congrArg Prod.snd h) (List.cons.inj (congrArg Prod.fst h)).2]
    rfl
  · rw [if_neg hopen] at h
    exact quiet_of_open lines hopen h

section Replacement

variable {setting : Bytes} (hname : validVariable setting)

include hname

lemma scanQuote_setting (rest : Bytes) :
    scanQuote (setting ++ [61, 39] ++ rest) none = scanQuoteFrom false (some 39) rest := by
  have hplain : ∀ char ∈ setting ++ [61], char ≠ 92 ∧ char ≠ 39 ∧ char ≠ 34 := by
    intro char hchar
    rcases List.mem_append.mp hchar with hchar | hchar
    · exact ⟨ne_of_mem_of_not_mem hchar (validVariable_not_mem hname (by decide)),
        ne_of_mem_of_not_mem hchar (validVariable_not_mem hname (by decide)),
        ne_of_mem_of_not_mem hchar (validVariable_not_mem hname (by decide))⟩
    · cases List.mem_singleton.mp hchar
      decide
  rw [show setting ++ [61, 39] ++ rest = (setting ++ [61]) ++ 39 :: rest by simp, scanQuote,
    scanQuoteFrom_name hplain]
  rfl

lemma replacement_whole (value : Bytes) : Whole (replacement setting value) := by
  have hstart : 10 ∉ setting ++ [61, 39] := by
    have hsetting : 10 ∉ setting := validVariable_not_mem hname (by decide)
    simp [hsetting]
  rw [Whole, replacement_eq]
  exact textsFrom_quoted value _ hstart none (scanQuote_setting hname) []

lemma isInk_of_mem {char : UInt8} (hchar : char ∈ setting) : isInk char := by
  have hspaces : ∀ s ∈ spaces, ∀ c ∈ s, variableChar c false = false := by decide +kernel
  refine List.all_eq_true.mpr fun s hs => decide_eq_true fun hmem => ?_
  exact validVariable_not_mem hname (hspaces s hs char hmem) hchar

lemma trimSpace_replacement (value : Bytes) :
    trimSpace (replacement setting value) = setting ++ 61 :: (39 :: quotedBody value ++ [39]) := by
  have htrim : trimSpace (setting ++ 61 :: (39 :: quotedBody value ++ [39]))
      = setting ++ 61 :: (39 :: quotedBody value ++ [39]) := by
    cases setting with
    | nil => cases hname
    | cons first rest =>
      have hends : first :: (rest ++ 61 :: (39 :: quotedBody value ++ [39]))
          = (first :: rest ++ 61 :: 39 :: quotedBody value) ++ [39] := by simp
      exact trimSpace_of_ink (isInk_of_mem hname List.mem_cons_self) (by decide) hends
  rw [replacement_eq, ← htrim]
  conv_rhs => rw [← trimSpace_append_blank (c := [10]) (.of_mem (by decide))]
  simp

/-- The start of a name is not that of a comment or of another kind of record. -/
lemma exists_first_char :
    ∃ first rest, setting = first :: rest ∧ isInk first ∧ first ≠ 35 ∧ first ≠ 58 := by
  cases setting with
  | nil => cases hname
  | cons first rest =>
    have hmem : first ∈ first :: rest := List.mem_cons_self
    exact ⟨first, rest, rfl, isInk_of_mem hname hmem,
      ne_of_mem_of_not_mem hmem (validVariable_not_mem hname (by decide)),
      ne_of_mem_of_not_mem hmem (validVariable_not_mem hname (by decide))⟩

lemma not_isSkipped_replacement (value : Bytes) : ¬ isSkipped (replacement setting value) := by
  obtain ⟨first, rest, rfl, hink, hcomment, -⟩ := exists_first_char hname
  rw [isSkipped, trimSpace_replacement hname value]
  simpa using hcomment

lemma literalOf_replacement (value : Bytes) :
    literalOf (replacement setting value) = some (setting, 39 :: quotedBody value ++ [39]) := by
  have h61 : 61 ∉ setting := validVariable_not_mem hname (by decide)
  have h32 : 32 ∉ setting := validVariable_not_mem hname (by decide)
  have hexport : ¬ str "export " <+: setting ++ 61 :: (39 :: quotedBody value ++ [39]) := by
    intro hstart
    have hboth : setting ++ [61] <+: setting ++ 61 :: (39 :: quotedBody value ++ [39]) :=
      ⟨39 :: quotedBody value ++ [39], by simp⟩
    rcases List.prefix_or_prefix_of_prefix hstart hboth with h | h
    · have hmem : (32 : UInt8) ∈ setting ++ [61] := h.subset (by decide)
      simp [h32] at hmem
    · have hmem : (61 : UInt8) ∈ str "export " := h.subset (by simp)
      exact absurd hmem (by decide)
  have hsetting : trimSpace setting = setting := by
    obtain ⟨first, rest, rfl, hink, -⟩ := exists_first_char hname
    have hlast := List.dropLast_append_getLast (List.cons_ne_nil first rest)
    exact trimSpace_of_ink hink (isInk_of_mem hname (List.getLast_mem (by simp))) hlast.symm
  have hends : 39 :: (quotedBody value ++ [39]) = (39 :: quotedBody value) ++ [39] := rfl
  have hraw : trimSpace (39 :: quotedBody value ++ [39]) = 39 :: quotedBody value ++ [39] :=
    trimSpace_of_ink (by decide) (by decide) hends
  refine literalOf_eq_some.mpr ⟨?_, ?_, ?_⟩
  · obtain ⟨first, rest, rfl, -, -, hcolon⟩ := exists_first_char hname
    rw [trimSpace_replacement hname value]
    simpa using hcolon
  · rw [trimSpace_replacement hname value, splitAssignment_eq, exported,
      if_neg fun h => hexport (List.isPrefixOf_iff_prefix.mp h), sides_append h61, if_neg, hsetting,
      hraw]
    rintro rfl
    cases hname
  · rw [isLiteral, isWrapped_body]
    rfl

/-- The record of an edit is accepted. -/
lemma replacement_sound (value : Bytes) : Sound (replacement setting value) :=
  .inr ⟨_, _, literalOf_replacement hname value, hname, .inl (isWrapped_body 39 _)⟩

lemma assigned_replacement {value : Bytes} (hvalue : 39 ∉ value)
    (hretired : ¬ isRetiredSetting setting) :
    assigned (replacement setting value) = some (setting, value) := by
  rw [assigned, if_neg (not_isSkipped_replacement hname value), literalOf_replacement hname value,
    quotedBody_plain hvalue]
  simp only [hretired, literalText_wrapped]
  rfl

lemma replacement_quiet (value : Bytes) : quietComments none (splitAfter (replacement setting value)) := by
  have hwhole := replacement_whole hname value
  obtain ⟨first, rest, rfl, hink, hcomment, -⟩ := exists_first_char hname
  exact hwhole.quiet hink hcomment

end Replacement

end Subyard.Config
