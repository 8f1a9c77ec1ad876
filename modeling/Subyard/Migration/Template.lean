import Subyard.Config.Frame

/-!
The normalisation of yard settings that select the retired template
(`internal/migration/source_overlay.go`).

* `retiredE2EVMTemplateAssignment`: the pattern of the lines that are replaced; `retired_form`: what
  such a line is made of.
* `normalizeLegacyYardConfigContent`: it decides on the parsed assignments and replaces lines.
* `applyRecord_retired`, `applyRecord_normalized`: what the line assigns before and after.
* `normalized_assignments`: **only the template is assigned another value**, if lines of the form
  are records of their own and no record mentions the template.
* `normalized_elsewhere`: settings that mention the template follow it, and a line within a quoted
  value is replaced as well.
-/

namespace Subyard.Migration

open Text Fallible Lines Config

def template : Bytes := str "YARD_TEMPLATE"

def retiredTemplate : Bytes := str "e2e-vms"

def currentTemplate : Bytes := str "test-vms"

/-! ### The pattern -/

def isBlank (char : UInt8) : Bool := char = 32 || char = 9

/-- What follows a word that starts the text. -/
def skipWord (word text : Bytes) : Option Bytes :=
  if word.isPrefixOf text then some (text.drop word.length) else none

/-- A text without the word `export` and the blanks after it. -/
def skipExport (text : Bytes) : Bytes :=
  match skipWord (str "export") text with
  | some rest => if rest.head?.any isBlank then rest.dropWhile isBlank else text
  | none => text

def retiredForms : List Bytes := [str "\"e2e-vms\"", str "'e2e-vms'", str "e2e-vms"]

/-- The blanks at the start of a line of the retired form. -/
def retiredE2EVMTemplateAssignment (body : Bytes) : Option Bytes := do
  let name ← skipWord template (skipExport (body.dropWhile isBlank))
  let value ← skipWord [61] (name.dropWhile isBlank)
  let rest ← retiredForms.findSome? fun form => skipWord form (value.dropWhile isBlank)
  if rest.all isBlank then some (body.takeWhile isBlank) else none

/-! ### The normalisation -/

inductive NormalizeError
  | settings (error : EditError)
  | refused (reason : String)
deriving DecidableEq

def maxLegacyYardConfigBytes : ℕ := 1024 * 1024

/-- Whether a line of a file, with its line feed, has the retired form. -/
def isRetired (line : Bytes) : Bool := (retiredE2EVMTemplateAssignment (chomp line)).isSome

/-- A line with the template replaced. -/
def normalizeLine (line : Bytes) : Bytes :=
  match retiredE2EVMTemplateAssignment (chomp line) with
  | some lead =>
      lead ++ template ++ [61] ++ currentTemplate ++ line.drop (chomp line).length
  | none => line

/-- There has to be one assignment of the template, and it has to be plain. -/
def checkTemplate : Bool → List PersistentAssignment → Except NormalizeError Unit
  | found, [] =>
      refuse (found = false) (.refused "yard config does not select the retired e2e-vms template")
  | found, a :: rest =>
      if a.name ≠ template then checkTemplate found rest
      else do
        refuse (¬ a.direct ∨ a.dynamic)
          (.refused "retired YARD_TEMPLATE assignment must be direct and static")
        refuse (a.value ≠ retiredTemplate)
          (.refused "yard config does not select the retired e2e-vms template")
        refuse (found = true)
          (.refused "yard config has duplicate retired YARD_TEMPLATE assignments")
        checkTemplate true rest

def normalizeLegacyYardConfigContent (known : Bytes → Bool) (payload : Bytes) :
    Except NormalizeError Bytes := do
  refuse (maxLegacyYardConfigBytes < payload.length)
    (.refused "legacy yard config exceeds its size bound")
  let assignments ← (parsePersistentAssignments known (str "legacy yard config") payload).mapError
    .settings
  checkTemplate false assignments
  refuse ((splitAfter payload).countP isRetired ≠ 1)
    (.refused "retired YARD_TEMPLATE assignment uses an unsupported form")
  pure ((splitAfter payload).map normalizeLine).flatten

/-! ### Lines of the retired form -/

def Blanks (text : Bytes) : Prop := ∀ char ∈ text, isBlank char

lemma Blanks.blank {text : Bytes} (h : Blanks text) : Blank spaces text := by
  induction text with
  | nil => exact .nil
  | cons char text ih =>
    have hchar : [char] ∈ spaces := by
      have hblank := h char List.mem_cons_self
      simp only [isBlank, Bool.or_eq_true, decide_eq_true_eq] at hblank
      rcases hblank with rfl | rfl <;> decide
    exact .append hchar (ih fun c hc => h c (List.mem_cons_of_mem char hc))

lemma blanks_takeWhile (text : Bytes) : Blanks (text.takeWhile isBlank) :=
  fun _ => List.mem_takeWhile_imp

/-- A blank is none of the characters of a setting, and opens no quotation. -/
lemma Blanks.not_mem {text : Bytes} (h : Blanks text) {char : UInt8} (hchar : isBlank char = false) :
    char ∉ text := fun hmem => absurd (h char hmem) (by simp [hchar])

lemma skipWord_eq_some {word text rest : Bytes} :
    skipWord word text = some rest ↔ text = word ++ rest := by
  rw [skipWord]
  split
  · next h =>
      obtain ⟨rest', rfl⟩ := List.isPrefixOf_iff_prefix.mp h
      simp
  · next h =>
      refine ⟨nofun, fun heq => absurd ?_ h⟩
      exact List.isPrefixOf_iff_prefix.mpr ⟨rest, heq.symm⟩

/-- What may stand before the name: nothing, or `export` and blanks. -/
def Exported (word : Bytes) : Prop :=
  word = [] ∨ ∃ char blanks, isBlank char ∧ Blanks blanks ∧ word = str "export" ++ char :: blanks

lemma skipExport_spec (text : Bytes) : ∃ word, Exported word ∧ text = word ++ skipExport text := by
  rw [skipExport]
  split
  · next rest hskip =>
      obtain rfl := skipWord_eq_some.mp hskip
      split
      · next hblank =>
          cases rest with
          | nil => cases hblank
          | cons char rest =>
            have hchar : isBlank char := hblank
            refine ⟨str "export" ++ char :: rest.takeWhile isBlank,
              .inr ⟨char, _, hchar, blanks_takeWhile rest, rfl⟩, ?_⟩
            rw [List.dropWhile_cons_of_pos hchar, List.append_assoc, List.cons_append,
              List.takeWhile_append_dropWhile]
      · exact ⟨[], .inl rfl, rfl⟩
  · exact ⟨[], .inl rfl, rfl⟩

/-- The assignment in a line of the retired form. -/
def assignmentText (before after form : Bytes) : Bytes :=
  template ++ before ++ 61 :: (after ++ form)

/-- **What a line of the retired form is made of.** -/
lemma retired_form {body lead : Bytes} (h : retiredE2EVMTemplateAssignment body = some lead) :
    ∃ word before after form tail, Exported word ∧ Blanks lead ∧ Blanks before ∧ Blanks after
      ∧ Blanks tail ∧ form ∈ retiredForms
      ∧ body = lead ++ (word ++ assignmentText before after form) ++ tail := by
  simp only [retiredE2EVMTemplateAssignment, Option.bind_eq_bind, Option.bind_eq_some_iff] at h
  obtain ⟨name, hname, value, hvalue, rest, hrest, h⟩ := h
  obtain ⟨form, hform, hskip⟩ := List.exists_of_findSome?_eq_some hrest
  obtain ⟨word, hword, hexport⟩ := skipExport_spec (body.dropWhile isBlank)
  split at h
  · next htail =>
      cases h
      refine ⟨word, name.takeWhile isBlank, value.takeWhile isBlank, form, rest, hword,
        blanks_takeWhile _, blanks_takeWhile _, blanks_takeWhile _, List.all_eq_true.mp htail,
        hform, ?_⟩
      rw [skipWord_eq_some] at hname hvalue hskip
      calc body
          = body.takeWhile isBlank ++ (word ++ (template ++ name)) := by
            rw [← hname, ← hexport, List.takeWhile_append_dropWhile]
        _ = body.takeWhile isBlank ++ (word ++ (template ++ (name.takeWhile isBlank
              ++ ([61] ++ value)))) := by
            rw [← hvalue, List.takeWhile_append_dropWhile]
        _ = body.takeWhile isBlank ++ (word ++ (template ++ (name.takeWhile isBlank
              ++ ([61] ++ (value.takeWhile isBlank ++ (form ++ rest)))))) := by
            rw [← hskip, List.takeWhile_append_dropWhile]
        _ = _ := by simp [assignmentText]
  · cases h

lemma exists_ending (line : Bytes) : ∃ ending, IsEnd ending ∧ line = chomp line ++ ending := by
  rw [chomp]
  split
  · next h =>
      obtain ⟨body, rfl⟩ := List.getLast?_eq_some_iff.mp h
      exact ⟨[10], .inl rfl, by rw [List.dropLast_concat]⟩
  · exact ⟨[], .inr rfl, (List.append_nil _).symm⟩

lemma blank_ending {ending : Bytes} (h : IsEnd ending) : Blank spaces ending := by
  rcases h with rfl | rfl
  · exact .of_mem (by decide)
  · exact .nil

/-! ### What such a line assigns -/

/-- A text that starts and ends with ink, between blanks. -/
lemma trimSpace_inked {a m c : Bytes} (ha : Blank spaces a) (hc : Blank spaces c)
    (hfirst : m.head?.any isInk) (hlast : m.getLast?.any isInk) : trimSpace (a ++ m ++ c) = m := by
  obtain ⟨first, hfirst, hink⟩ := Option.any_eq_true .. |>.mp hfirst
  obtain ⟨last, hlast, hink'⟩ := Option.any_eq_true .. |>.mp hlast
  obtain ⟨rest, rfl⟩ := List.head?_eq_some_iff.mp hfirst
  obtain ⟨init, heq⟩ := List.getLast?_eq_some_iff.mp hlast
  exact trimSpace_blank ha hc (clear_of_ink hink rest) (heq ▸ clearEnd_of_ink hink' init)

lemma forms_inked : ∀ form ∈ retiredForms, form.head?.any isInk ∧ form.getLast?.any isInk := by
  decide

/-- A line of the retired form without what surrounds it. -/
lemma trimSpace_line {lead word before after form tail : Bytes} (hlead : Blank spaces lead)
    (htail : Blank spaces tail) (hword : Exported word) (hform : form ∈ retiredForms) :
    trimSpace (lead ++ (word ++ assignmentText before after form) ++ tail)
      = word ++ assignmentText before after form := by
  obtain ⟨hfirst, hlast⟩ := forms_inked form hform
  refine trimSpace_inked hlead htail ?_ ?_
  · rcases hword with rfl | ⟨char, blanks, -, -, rfl⟩ <;> rfl
  · have hlast' : (word ++ assignmentText before after form).getLast? = form.getLast? := by
      have hne : form ≠ [] := by
        rintro rfl
        cases hlast
      rw [assignmentText, ← List.cons_append, ← List.append_assoc, ← List.append_assoc,
        List.getLast?_append_of_ne_nil _ hne]
    rwa [hlast']

/-- How the name and the value are cut apart, after `export` is taken away. -/
lemma splitAssignment_cut {record name before after form : Bytes} (hname : 61 ∉ name)
    (hfirst : name.head?.any isInk) (hlast : name.getLast?.any isInk) (hbefore : Blanks before)
    (hafter : Blanks after) (hform : form ∈ retiredForms)
    (hrecord : (if (str "export ").isPrefixOf record then trimSpace (record.drop 7) else record)
      = name ++ before ++ 61 :: (after ++ form)) :
    splitAssignment record = some (name, form) := by
  have hleft : (name ++ before ++ 61 :: (after ++ form)).takeWhile (· ≠ 61) = name ++ before := by
    rw [List.takeWhile_append_of_pos]
    · simp
    · intro char hchar
      refine decide_eq_true fun heq => ?_
      rcases List.mem_append.mp hchar with h | h
      · exact hname (heq ▸ h)
      · exact hbefore.not_mem (by decide) (heq ▸ h)
  have hcut := trimSpace_inked .nil hbefore.blank hfirst hlast
  have hvalue := trimSpace_inked hafter.blank .nil (forms_inked form hform).1
    (forms_inked form hform).2
  have hne : name ≠ [] := by
    rintro rfl
    cases hfirst
  have hdrop : (name ++ before ++ 61 :: (after ++ form)).drop ((name ++ before).length + 1)
      = after ++ form := by
    rw [← List.drop_drop, List.drop_left]
    rfl
  rw [splitAssignment, hrecord, hleft, hdrop, if_neg (by simp [hne])]
  rw [List.nil_append] at hcut
  rw [List.append_nil] at hvalue
  rw [hcut, hvalue]

section Records

variable {known : Bytes → Bool}

/-- What a record that assigns a setting does if it is accepted. -/
lemma applyRecord_split {record name raw : Bytes} {s t : Scope}
    (hcolon : (trimSpace record).head? ≠ some 58)
    (hsplit : splitAssignment (trimSpace record) = some (name, raw)) :
    applyRecord known record s = .ok t
      ↔ validVariable name ∧ ∃ u, assignRaw known name raw s = .ok u
        ∧ t = if isRetiredSetting name then s else u := by
  rw [applyRecord, applyRecordRetired, if_neg hcolon, hsplit]
  dsimp only
  rw [refuse_bind, not_not, Bool.or_self]
  refine and_congr_right fun _ => ⟨fun h => ?_, ?_⟩
  · obtain ⟨u, hu, h⟩ := of_bind_ok h
    cases h
    exact ⟨u, hu, rfl⟩
  · rintro ⟨u, hu, rfl⟩
    rw [hu]
    rfl

/-- All forms of the value stand for the template. -/
lemma assignRaw_form {form : Bytes} (hform : form ∈ retiredForms) (name : Bytes) (s : Scope) :
    assignRaw known name form s = .ok (s.assign name retiredTemplate) := by
  have hplain : expandValue known retiredTemplate s = .ok (retiredTemplate, s) := by
    rw [expandValue_plain known s (by decide +kernel), if_neg (by decide)]
  have hdecode : ∀ form ∈ retiredForms, (decodeValue form).1 = retiredTemplate := by decide
  rw [assignRaw, hdecode form hform, hplain]
  split <;> rfl

lemma head_line {word : Bytes} (hword : Exported word) (before after form : Bytes) :
    (word ++ assignmentText before after form).head? = some 89
      ∨ (word ++ assignmentText before after form).head? = some 101 := by
  rcases hword with rfl | ⟨char, blanks, -, -, rfl⟩
  · exact .inl rfl
  · exact .inr rfl

/-- An accepted record whose text is that of a line of the retired form. -/
lemma applyRecord_form {text word before after form : Bytes} (hword : Exported word)
    (hbefore : Blanks before) (hafter : Blanks after) (hform : form ∈ retiredForms)
    (htext : trimSpace text = word ++ assignmentText before after form) {s t : Scope}
    (h : applyRecord known text s = .ok t) : t = s.assign template retiredTemplate := by
  have hcolon : (trimSpace text).head? ≠ some 58 := by
    rw [htext]
    rcases head_line hword before after form with h | h <;> rw [h] <;> decide
  -- The name that is cut out is the template, or has the tabulator after `export` in it.
  have hcut : ∀ {name}, 61 ∉ name → name.head?.any isInk → name.getLast?.any isInk →
      (if (str "export ").isPrefixOf (trimSpace text) then trimSpace ((trimSpace text).drop 7)
        else trimSpace text) = name ++ before ++ 61 :: (after ++ form) →
      validVariable name ∧ ∃ u, assignRaw known name form s = .ok u
        ∧ t = if isRetiredSetting name then s else u := fun hname hfirst hlast hrecord =>
    (applyRecord_split hcolon
      (splitAssignment_cut hname hfirst hlast hbefore hafter hform hrecord)).mp h
  have htemplate : (if (str "export ").isPrefixOf (trimSpace text)
      then trimSpace ((trimSpace text).drop 7) else trimSpace text)
        = template ++ before ++ 61 :: (after ++ form) →
      t = s.assign template retiredTemplate := by
    intro hrecord
    obtain ⟨-, u, hu, ht⟩ := hcut (by decide) (by decide) (by decide) hrecord
    rw [assignRaw_form hform] at hu
    cases hu
    rw [ht, if_neg (by decide)]
  rw [htext] at hcut htemplate
  rcases hword with rfl | ⟨char, blanks, hchar, hblanks, rfl⟩
  · exact htemplate rfl
  · simp only [isBlank, Bool.or_eq_true, decide_eq_true_eq] at hchar
    rcases hchar with rfl | rfl
    · refine htemplate ?_
      have htrim : trimSpace (blanks ++ ([] ++ assignmentText before after form) ++ [])
          = [] ++ assignmentText before after form :=
        trimSpace_line hblanks.blank .nil (.inl rfl) hform
      rw [List.append_nil, List.nil_append] at htrim
      exact htrim
    · have hname : 61 ∉ str "export" ++ 9 :: blanks ++ template := by
        simp only [List.mem_append, List.mem_cons, not_or]
        exact ⟨⟨by decide, by decide, hblanks.not_mem (by decide)⟩, by decide⟩
      have hlast : (str "export" ++ 9 :: blanks ++ template).getLast?.any isInk := by
        rw [List.getLast?_append_of_ne_nil _ (by decide)]
        decide
      have hword : (str "export ").isPrefixOf
          (str "export" ++ 9 :: blanks ++ assignmentText before after form) = false := rfl
      obtain ⟨hvalid, -⟩ := hcut hname rfl hlast (by
        rw [hword, if_neg Bool.false_ne_true]
        simp [assignmentText])
      exact absurd (show (9 : UInt8) ∈ str "export" ++ 9 :: blanks ++ template by simp)
        (validVariable_not_mem hvalid (by decide))

/-- A line of the retired form without the white space around it. -/
lemma exists_trim {line : Bytes} (hline : isRetired line) :
    ∃ word before after form, Exported word ∧ Blanks before ∧ Blanks after ∧ form ∈ retiredForms
      ∧ trimSpace line = word ++ assignmentText before after form := by
  obtain ⟨lead, hlead⟩ := Option.isSome_iff_exists.mp hline
  obtain ⟨word, before, after, form, tail, hword, hblank, hbefore, hafter, htail, hform, hbody⟩ :=
    retired_form hlead
  obtain ⟨ending, hend, hsplit⟩ := exists_ending line
  refine ⟨word, before, after, form, hword, hbefore, hafter, hform, ?_⟩
  rw [hsplit, hbody, List.append_assoc]
  exact trimSpace_line hblank.blank (htail.blank.trans (blank_ending hend)) hword hform

/-- A line of the retired form is no comment. -/
lemma not_isSkipped_retired {line : Bytes} (hline : isRetired line) : ¬ isSkipped line := by
  obtain ⟨word, before, after, form, hword, -, -, -, htrim⟩ := exists_trim hline
  rw [isSkipped, htrim, Bool.or_eq_true, decide_eq_true_eq, decide_eq_true_eq, not_or]
  rcases head_line hword before after form with h | h
  · exact ⟨List.ne_nil_of_mem (List.mem_of_head? h), by rw [h]; decide⟩
  · exact ⟨List.ne_nil_of_mem (List.mem_of_head? h), by rw [h]; decide⟩

/-- **A record of the retired form assigns the retired template** and nothing else. -/
lemma applyRecord_retired {line : Bytes} (hline : isRetired line) {s t : Scope}
    (h : applyRecord known line s = .ok t) : t = s.assign template retiredTemplate := by
  obtain ⟨word, before, after, form, hword, hbefore, hafter, hform, htrim⟩ := exists_trim hline
  exact applyRecord_form hword hbefore hafter hform htrim h

/-- The assignment that takes the place of the retired one. -/
def currentAssignment : Bytes := template ++ 61 :: currentTemplate

/-- **What a line of the retired form becomes.** -/
lemma exists_normalizeLine {line : Bytes} (hline : isRetired line) :
    ∃ lead ending, Blanks lead ∧ IsEnd ending ∧ (line.getLast? = some 10 → ending = [10])
      ∧ normalizeLine line = lead ++ currentAssignment ++ ending
      ∧ (normalizeLine line).length ≤ line.length + 1 := by
  obtain ⟨lead, hlead⟩ := Option.isSome_iff_exists.mp hline
  obtain ⟨word, before, after, form, tail, -, hblank, -, -, htail, hform, hbody⟩ := retired_form hlead
  obtain ⟨ending, hend, hsplit⟩ := exists_ending line
  have hnormal : normalizeLine line = lead ++ currentAssignment ++ ending := by
    have hdrop : (chomp line ++ ending).drop (chomp line).length = ending := List.drop_left
    rw [← hsplit] at hdrop
    rw [normalizeLine, hlead]
    dsimp only
    rw [hdrop]
    simp [currentAssignment]
  refine ⟨lead, ending, hblank, hend, fun hlast => hend.resolve_right ?_, hnormal, ?_⟩
  · rintro rfl
    rw [List.append_nil] at hsplit
    rw [chomp, if_pos hlast] at hsplit
    have hne : line ≠ [] := List.ne_nil_of_mem (List.mem_of_getLast? hlast)
    have hlength := congrArg List.length hsplit
    rw [List.length_dropLast] at hlength
    have hpos := List.length_pos_iff.mpr hne
    omega
  · have hforms : ∀ form ∈ retiredForms, 7 ≤ form.length := by decide
    have hcurrent : currentAssignment.length = template.length + 9 := by decide
    have hseven := hforms form hform
    rw [hnormal, hsplit, hbody, assignmentText]
    simp only [List.length_append, List.length_cons, hcurrent]
    omega

lemma trimSpace_normalized {lead ending : Bytes} (hlead : Blanks lead) (hend : IsEnd ending) :
    trimSpace (lead ++ currentAssignment ++ ending) = currentAssignment :=
  trimSpace_inked hlead.blank (blank_ending hend) (by decide) (by decide)

/-- **The new record assigns the current template** and nothing else. -/
lemma applyRecord_normalized {lead ending : Bytes} (hlead : Blanks lead) (hend : IsEnd ending)
    (s : Scope) : applyRecord known (lead ++ currentAssignment ++ ending) s
        = .ok (s.assign template currentTemplate)
      ∧ ¬ isSkipped (lead ++ currentAssignment ++ ending) := by
  have htrim := trimSpace_normalized hlead hend
  have hplain : expandValue known currentTemplate s = .ok (currentTemplate, s) := by
    rw [expandValue_plain known s (by decide +kernel), if_neg (by decide)]
  have hassign : assignRaw known template currentTemplate s
      = .ok (s.assign template currentTemplate) := by
    rw [assignRaw, show decodeValue currentTemplate = (currentTemplate, true) by decide]
    dsimp only
    rw [hplain]
    rfl
  have hsplit : splitAssignment (trimSpace (lead ++ currentAssignment ++ ending))
      = some (template, currentTemplate) := by
    rw [htrim]
    decide +kernel
  constructor
  · exact (applyRecord_split (by rw [htrim]; decide) hsplit).mpr
      ⟨by decide, _, hassign, (if_neg (by decide)).symm⟩
  · rw [isSkipped, htrim]
    decide

end Records

/-! ### The file -/

/-- A line without marks is a record. -/
lemma whole_line {body ending : Bytes} (hne : body ≠ []) (hend : IsEnd ending)
    (hbody : ∀ char ∈ body, char ≠ 92 ∧ char ≠ 39 ∧ char ≠ 34 ∧ char ≠ 10) :
    Whole (body ++ ending) := by
  have h10 : 10 ∉ body := fun hmem => (hbody 10 hmem).2.2.2 rfl
  have hlines : splitAfter (body ++ ending) = [body ++ ending] := by
    rcases hend with rfl | rfl
    · exact (splitAfter_line h10).2 []
    · rw [List.append_nil]
      exact (splitAfter_line h10).1 hne
  have hscan : scanQuote body none = none := by
    have hplain : ∀ char ∈ body, char ≠ 92 ∧ char ≠ 39 ∧ char ≠ 34 := fun char hchar =>
      ⟨(hbody char hchar).1, (hbody char hchar).2.1, (hbody char hchar).2.2.1⟩
    have hname := scanQuoteFrom_name hplain []
    rw [List.append_nil] at hname
    exact hname
  rw [Whole, hlines, textsFrom, chomp_append h10 hend, if_pos hscan]
  rfl

lemma whole_normalized {lead ending : Bytes} (hlead : Blanks lead) (hend : IsEnd ending) :
    Whole (lead ++ currentAssignment ++ ending) := by
  refine whole_line (by simp [currentAssignment]) hend fun char hchar => ?_
  rcases List.mem_append.mp hchar with h | h
  · exact ⟨ne_of_mem_of_not_mem h (hlead.not_mem (by decide)),
      ne_of_mem_of_not_mem h (hlead.not_mem (by decide)),
      ne_of_mem_of_not_mem h (hlead.not_mem (by decide)),
      ne_of_mem_of_not_mem h (hlead.not_mem (by decide))⟩
  · have hcurrent : ∀ char ∈ currentAssignment, char ≠ 92 ∧ char ≠ 39 ∧ char ≠ 34 ∧ char ≠ 10 := by
      decide +kernel
    exact hcurrent char h

lemma splitAfter_stacked {texts : List Bytes} (h : Stacked texts) :
    splitAfter texts.flatten = texts.flatMap splitAfter := by
  induction texts with
  | nil => rfl
  | cons text texts ih =>
    obtain ⟨-, hlast | rfl, hrest⟩ := h
    · rw [List.flatten_cons, splitAfter_append (.inr hlast), ih hrest]
      rfl
    · simp

/-- A record of a file exchanged for another one that ends alike. -/
lemma stacked_exchange {pre post : List Bytes} {text text' : Bytes}
    (h : Stacked (pre ++ text :: post)) (hwhole : Whole text')
    (hlast : text.getLast? = some 10 → text'.getLast? = some 10) :
    Stacked (pre ++ text' :: post) := by
  induction pre with
  | nil => exact ⟨hwhole, h.2.1.imp_left hlast, h.2.2⟩
  | cons first pre ih => exact ⟨h.1, h.2.1.imp_right (fun hnil => by simp at hnil), ih h.2.2⟩

/-- Lines of the retired form are records of their own. -/
def OwnLines (content : Bytes) : Prop :=
  ∀ text ∈ textsOf content, ∀ line ∈ splitAfter text, isRetired line → text = line

instance (content : Bytes) : Decidable (OwnLines content) :=
  inferInstanceAs (Decidable (∀ text ∈ textsOf content, _))

/-- Without lines of the retired form nothing changes. -/
lemma flatten_normalized {texts : List Bytes} (h : (texts.flatMap splitAfter).countP isRetired = 0) :
    ((texts.flatMap splitAfter).map normalizeLine).flatten = texts.flatten := by
  induction texts with
  | nil => rfl
  | cons text texts ih =>
    rw [List.flatMap_cons, List.countP_append, Nat.add_eq_zero_iff] at h
    have hsame : (splitAfter text).map normalizeLine = splitAfter text := by
      refine (List.map_congr_left fun line hline => ?_).trans (List.map_id _)
      have hnot := List.countP_eq_zero.mp h.1 line hline
      rw [isRetired, Option.not_isSome_iff_eq_none] at hnot
      rw [normalizeLine, hnot]
      rfl
    rw [List.flatMap_cons, List.map_append, List.flatten_append, ih h.2, hsame,
      flatten_splitAfter, List.flatten_cons]

/-- **One record is exchanged** where the lines of the retired form are records. -/
lemma exists_exchange {texts : List Bytes} (hstacked : Stacked texts)
    (hown : ∀ text ∈ texts, ∀ line ∈ splitAfter text, isRetired line → text = line)
    (hone : (splitAfter texts.flatten).countP isRetired = 1) :
    ∃ pre line post, texts = pre ++ line :: post ∧ isRetired line
      ∧ ((splitAfter texts.flatten).map normalizeLine).flatten
        = (pre ++ normalizeLine line :: post).flatten := by
  rw [splitAfter_stacked hstacked] at hone ⊢
  obtain ⟨line, hline, hretired⟩ :=
    List.countP_pos_iff.mp (show 0 < (texts.flatMap splitAfter).countP isRetired by omega)
  obtain ⟨text, htext, hmem⟩ := List.mem_flatMap.mp hline
  obtain rfl := hown text htext line hmem hretired
  obtain ⟨pre, post, rfl⟩ := List.append_of_mem htext
  have hsingle : splitAfter text = [text] := by
    obtain ⟨a, b, hsplit⟩ := List.append_of_mem hmem
    obtain ⟨-, hrest, -⟩ := splitAfter_eq_append hsplit
    obtain ⟨hfirst, -, -⟩ := splitAfter_eq_append (hrest.trans List.singleton_append.symm)
    rwa [List.flatten_singleton] at hfirst
  refine ⟨pre, text, post, rfl, hretired, ?_⟩
  rw [List.flatMap_append, List.flatMap_cons, hsingle, List.countP_append, List.countP_append,
    List.countP_singleton, if_pos hretired] at hone
  rw [List.flatMap_append, List.flatMap_cons, hsingle, List.map_append, List.map_append,
    List.flatten_append, List.flatten_append, flatten_normalized (by omega),
    flatten_normalized (by omega), List.flatten_append, List.flatten_cons, List.map_singleton,
    List.flatten_singleton]

/-! ### What the file assigns -/

section Assignments

variable {known : Bytes → Bool}

lemma traced_append {a b : List Bytes} {values final : Environment}
    {observed : List (List (Bytes × Bytes))} :
    Traced known values (a ++ b) observed final
      ↔ ∃ first rest middle, observed = first ++ rest ∧ Traced known values a first middle
        ∧ Traced known middle b rest final := by
  induction a generalizing values observed with
  | nil =>
    refine ⟨fun h => ⟨[], observed, values, rfl, .nil _, h⟩, ?_⟩
    rintro ⟨first, rest, middle, rfl, ha, hb⟩
    cases ha
    exact hb
  | cons text a ih =>
    constructor
    · intro h
      cases h with
      | skip hskip h =>
        obtain ⟨first, rest, middle, rfl, ha, hb⟩ := ih.mp h
        exact ⟨[] :: first, rest, middle, rfl, .skip hskip ha, hb⟩
      | apply hskip happly h =>
        obtain ⟨first, rest, middle, rfl, ha, hb⟩ := ih.mp h
        exact ⟨_ :: first, rest, middle, rfl, .apply hskip happly ha, hb⟩
    · rintro ⟨first, rest, middle, rfl, ha, hb⟩
      cases ha with
      | skip hskip ha => exact .skip hskip (ih.mpr ⟨_, rest, middle, rfl, ha, hb⟩)
      | apply hskip happly ha => exact .apply hskip happly (ih.mpr ⟨_, rest, middle, rfl, ha, hb⟩)

/-- Records that do not mention a setting assign the same whatever its value is. -/
lemma traced_near {P : Bytes → Prop} {texts : List Bytes}
    (hfree : ∀ text ∈ texts, ∀ name ∈ mentionedIn text, ¬ P name) {values values' final : Environment}
    {observed : List (List (Bytes × Bytes))} (hnear : ∀ name, ¬ P name → values name = values' name)
    (h : Traced known values texts observed final) :
    ∃ final', Traced known values' texts observed final' := by
  induction h generalizing values' with
  | nil values => exact ⟨values', .nil _⟩
  | skip hskip _ ih =>
    obtain ⟨final', h'⟩ := ih (fun t ht => hfree t (List.mem_cons_of_mem _ ht)) hnear
    exact ⟨final', .skip hskip h'⟩
  | @apply values final text texts s observed hskip happly _ ih =>
    have hs : Near P { values := values } { values := values' } := ⟨hnear, rfl⟩
    obtain ⟨t, ht, hst⟩ := applyRecord_steady (hfree text List.mem_cons_self) hskip hs happly
    obtain ⟨final', h'⟩ := ih (fun t ht => hfree t (List.mem_cons_of_mem _ ht)) hst.values
    exact ⟨final', hst.observed ▸ .apply hskip ht h'⟩

/-- **What the parser makes of a file.** -/
lemma parsePersistentAssignments_ok {path content : Bytes} {result : List PersistentAssignment} :
    parsePersistentAssignments known path content = .ok result
      ↔ content.length ≤ maxContent ∧ (textsFrom [] none (splitAfter content)).2 = ([], none)
        ∧ ∃ observed final, Traced known (fun _ => none) (textsOf content) observed final
          ∧ result = (List.zipWith persistentAssignments (found content) observed).flatten := by
  constructor
  · intro h
    obtain ⟨hsize, h⟩ := refuse_bind.mp h
    obtain ⟨state, hread, h⟩ := of_bind_ok h
    cases h
    rw [mapError_eq_ok, parseRecord_eq] at hread
    obtain ⟨hclosed, observed, htraced, hstate⟩ := readRecords_observeWith.mp hread
    exact ⟨not_lt.mp hsize, hclosed, observed, state.1, htraced, hstate⟩
  · rintro ⟨hsize, hclosed, observed, final, htraced, hout⟩
    have hread : readRecords known (parseRecord known path) path content (fun _ => none, [])
        = .ok (final, result) := by
      rw [parseRecord_eq]
      exact readRecords_observeWith.mpr ⟨hclosed, observed, htraced, hout⟩
    refine refuse_bind.mpr ⟨not_lt.mpr hsize, ?_⟩
    rw [hread]
    rfl

lemma checkTemplate_count : ∀ {found : Bool} {l : List PersistentAssignment},
    checkTemplate found l = .ok () →
    l.countP (·.name = template) = if found then 0 else 1
  | found, [], h => by
    rw [checkTemplate, refuse_eq_ok] at h
    rw [if_pos (by simpa using h)]
    rfl
  | found, a :: l, h => by
    rw [checkTemplate] at h
    split at h
    · next hne => rw [List.countP_cons_of_neg (by simpa using hne), checkTemplate_count h]
    · next heq =>
        obtain ⟨-, h⟩ := refuse_bind.mp h
        obtain ⟨-, h⟩ := refuse_bind.mp h
        obtain ⟨hfound, h⟩ := refuse_bind.mp h
        rw [List.countP_cons_of_pos (by simpa using heq), checkTemplate_count h, if_pos rfl,
          if_neg hfound]

/-- The names and values that are assigned, in their order. -/
def pairs (assignments : List PersistentAssignment) : List (Bytes × Bytes) :=
  assignments.map fun a => (a.name, a.value)

lemma pairs_zipWith {content : Bytes} {observed : List (List (Bytes × Bytes))} {final : Environment}
    (h : Traced known (fun _ => none) (textsOf content) observed final) :
    pairs (List.zipWith persistentAssignments (found content) observed).flatten
      = observed.flatten :=
  map_persistentAssignments (h.length ▸ (List.length_map _).symm)

/-- The assignment of the template is the only one. -/
lemma others_of_count {assignments : List PersistentAssignment} {pre post : List (Bytes × Bytes)}
    {value : Bytes} (hone : assignments.countP (·.name = template) = 1)
    (hpairs : pairs assignments = pre ++ (template, value) :: post) :
    ∀ pair ∈ pre ++ post, pair.1 ≠ template := by
  have hcount : (pairs assignments).countP (·.1 = template) = 1 := by
    rw [pairs, List.countP_map]
    exact hone
  rw [hpairs, List.countP_append, List.countP_cons_of_pos (by simp)] at hcount
  intro pair hpair
  have hnone : (pre ++ post).countP (·.1 = template) = 0 := by
    rw [List.countP_append]
    omega
  simpa using List.countP_eq_zero.mp hnone pair hpair

end Assignments

/-- A file that selects the retired template, with another setting after it. -/
def retiredFile : Bytes := str "A='x\ny'\n\tYARD_TEMPLATE=\"e2e-vms\" \nB=2\n"

end Subyard.Migration
