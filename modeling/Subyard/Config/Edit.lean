import Subyard.Config.Replacement
import Subyard.Config.Reading

/-!
Setting and unsetting in files of literal records.

* `editedTexts`: the records after an edit; `editedTexts_mine` and `editedTexts_other` tell those
  for the setting and the others.
* `Proper.edit`: the editor writes these records.
* `setting_edited`: the setting has the value, the others and their records are as before, and the
  same edit again changes nothing.
* `quote_in_value`: the editor fails at a value with a single quotation mark.
-/

namespace Subyard.Config

open Text Fallible Lines

/-! ### The records after an edit -/

/-- Whether a name, old or new, is that of a setting. -/
def isSetting (setting name : Bytes) : Bool := canonicalSettingName name = setting

@[simp] lemma isSetting_iff {setting name : Bytes} :
    isSetting setting name = true ↔ canonicalSettingName name = setting := decide_eq_true_iff

/-- Whether a record assigns a setting. -/
def assigns (setting text : Bytes) : Bool :=
  match assigned text with
  | some pair => isSetting setting pair.1
  | none => false

/-- The records with the last one for a setting replaced and the others for it left out. -/
def editTexts (setting : Bytes) (value : Option Bytes) : List Bytes → List Bytes
  | [] => []
  | text :: texts =>
      if ¬ assigns setting text then text :: editTexts setting value texts
      else if texts.any (assigns setting) then editTexts setting value texts
      else (value.map (replacement setting)).toList ++ editTexts setting value texts

/-- The records after an edit. -/
def editedTexts (setting : Bytes) (value : Option Bytes) (texts : List Bytes) : List Bytes :=
  if texts.any (assigns setting) then editTexts setting value texts
  else
    match value with
    | some value => terminate texts ++ [replacement setting value]
    | none => texts

section Texts

variable {setting : Bytes} {value : Option Bytes} {texts : List Bytes}

lemma editTexts_of_none (h : texts.any (assigns setting) = false) :
    editTexts setting value texts = texts := by
  induction texts with
  | nil => rfl
  | cons text texts ih =>
    rw [List.any_cons, Bool.or_eq_false_iff] at h
    rw [editTexts, if_pos (by simp [h.1]), ih h.2]

/-- **The editor writes these records.** -/
lemma editRecords_eq (hset : setting ≠ []) (texts : List Bytes) :
    editRecords setting value (texts.map fun text => ⟨text, canonicalSettingName (assignedName text)⟩)
      = ((editTexts setting value texts).flatten, texts.any (assigns setting)) := by
  have hname : ∀ text, canonicalSettingName (assignedName text) = setting ↔ assigns setting text := by
    intro text
    rw [assignedName, assigns]
    cases assigned text with
    | none => simpa using (fun h => hset h.symm : (canonicalSettingName []) ≠ setting)
    | some pair => simp
  induction texts with
  | nil => rfl
  | cons text texts ih =>
    rw [List.map_cons, editRecords, ih, editTexts, List.any_cons]
    by_cases hmine : assigns setting text
    · simp only [ne_eq, hname, hmine, not_true_eq_false, if_false, Bool.true_or]
      split
      · next hfound => rfl
      · cases value <;> rfl
    · simp only [ne_eq, hname, hmine, Bool.false_or]
      rfl

lemma Stacked.editedText (h : Stacked texts) (hset : setting ≠ []) :
    editedText setting value
        (texts.map fun text => ⟨text, canonicalSettingName (assignedName text)⟩)
      = (editedTexts setting value texts).flatten := by
  unfold Config.editedText editedTexts
  rw [editRecords_eq hset]
  cases hfound : texts.any (assigns setting) with
  | true => cases value <;> rfl
  | false =>
    rw [editTexts_of_none hfound]
    cases value with
    | none => rfl
    | some value => simp [h.flatten_terminate]

/-- The assignments to other settings are kept. -/
lemma filter_editTexts_other (hmine : ∀ v ∈ value, assigns setting (replacement setting v)) :
    (editTexts setting value texts).filter (fun text => !assigns setting text)
      = texts.filter (fun text => !assigns setting text) := by
  have hnew : (value.map (replacement setting)).toList.filter (fun text => !assigns setting text) = [] := by
    cases value with
    | none => rfl
    | some v => simp [hmine v rfl]
  induction texts with
  | nil => rfl
  | cons text texts ih =>
    rw [editTexts]
    by_cases h : assigns setting text
    · rw [if_neg (not_not.mpr h), List.filter_cons_of_neg (by simp [h])]
      split
      · exact ih
      · rw [List.filter_append, hnew, ih, List.nil_append]
    · rw [if_pos h, List.filter_cons_of_pos (by simp [h]), List.filter_cons_of_pos (by simp [h]), ih]

/-- The last assignment to the setting is the new one. -/
lemma filter_editTexts_mine (hmine : ∀ v ∈ value, assigns setting (replacement setting v))
    (hfound : texts.any (assigns setting)) :
    (editTexts setting value texts).filter (assigns setting)
      = (value.map (replacement setting)).toList := by
  have hnew : (value.map (replacement setting)).toList.filter (assigns setting)
      = (value.map (replacement setting)).toList := by
    cases value with
    | none => rfl
    | some v => simp [hmine v rfl]
  induction texts with
  | nil => cases hfound
  | cons text texts ih =>
    rw [editTexts]
    by_cases h : assigns setting text
    · rw [if_neg (not_not.mpr h)]
      split
      · next hrest => exact ih hrest
      · next hrest =>
          have hnone := Bool.eq_false_of_not_eq_true hrest
          rw [List.filter_append, hnew, editTexts_of_none hnone, List.filter_eq_nil_iff.mpr,
            List.append_nil]
          exact fun t ht hassigns => hrest (List.any_eq_true.mpr ⟨t, ht, hassigns⟩)
    · rw [List.any_cons, Bool.eq_false_of_not_eq_true h, Bool.false_or] at hfound
      rw [if_pos h, List.filter_cons_of_neg h, ih hfound]

/-- An edit that is already made changes nothing. -/
lemma editTexts_eq_self
    (h : texts.filter (assigns setting) = (value.map (replacement setting)).toList) :
    editTexts setting value texts = texts := by
  induction texts with
  | nil => rfl
  | cons text texts ih =>
    by_cases hmine : assigns setting text
    · rw [List.filter_cons_of_pos hmine] at h
      obtain ⟨v, rfl⟩ : ∃ v, value = some v := by
        cases value with
        | none => cases h
        | some v => exact ⟨v, rfl⟩
      obtain ⟨htext, hrest⟩ := List.cons.inj h
      have hnone : texts.any (assigns setting) = false := List.any_eq_false.mpr
        (List.filter_eq_nil_iff.mp hrest)
      rw [editTexts, if_neg (not_not.mpr hmine), hnone, if_neg (by simp), editTexts_of_none hnone,
        htext]
      rfl
    · rw [List.filter_cons_of_neg hmine] at h
      rw [editTexts, if_pos hmine, ih h]

lemma assigns_endLine (text : Bytes) : assigns setting (endLine text) = assigns setting text := by
  rw [assigns, assigns, assigned_endLine]

lemma filter_map_endLine (p : Bytes → Bool) (h : ∀ text, p (endLine text) = p text)
    (texts : List Bytes) : (texts.map endLine).filter p = (texts.filter p).map endLine := by
  rw [List.filter_map]
  exact congrArg _ (List.filter_congr fun text _ => h text)

/-- **The records for other settings** are kept, with a line feed at the end of the last. -/
lemma editedTexts_other (hstacked : Stacked texts)
    (hmine : ∀ v ∈ value, assigns setting (replacement setting v)) :
    ((editedTexts setting value texts).filter fun text => !assigns setting text).map endLine
      = (texts.filter fun text => !assigns setting text).map endLine := by
  unfold editedTexts
  split
  · rw [filter_editTexts_other hmine]
  · cases value with
    | none => rfl
    | some v =>
      have hnew : [replacement setting v].filter (fun text => !assigns setting text) = [] := by
        simp [hmine v rfl]
      dsimp only
      rw [List.filter_append, hnew, List.append_nil, hstacked.terminate_eq,
        filter_map_endLine _ fun text => by rw [assigns_endLine], List.map_map]
      exact List.map_congr_left fun text _ => endLine_endLine text

/-- **The records for the setting** are the new one. -/
lemma editedTexts_mine (hstacked : Stacked texts)
    (hmine : ∀ v ∈ value, assigns setting (replacement setting v)) :
    (editedTexts setting value texts).filter (assigns setting)
      = (value.map (replacement setting)).toList := by
  unfold editedTexts
  split
  · next hfound => exact filter_editTexts_mine hmine hfound
  · next hfound =>
      have hnone : texts.filter (assigns setting) = [] := List.filter_eq_nil_iff.mpr
        fun t ht hassigns => hfound (List.any_eq_true.mpr ⟨t, ht, hassigns⟩)
      cases value with
      | none => exact hnone
      | some v =>
        dsimp only
        rw [List.filter_append, hstacked.terminate_eq, filter_map_endLine _ assigns_endLine, hnone,
          List.filter_cons_of_pos (hmine v rfl)]
        rfl

lemma editedTexts_eq_self
    (h : texts.filter (assigns setting) = (value.map (replacement setting)).toList) :
    editedTexts setting value texts = texts := by
  unfold editedTexts
  split
  · exact editTexts_eq_self h
  · next hfound =>
      have hnone : texts.filter (assigns setting) = [] := List.filter_eq_nil_iff.mpr
        fun t ht hassigns => hfound (List.any_eq_true.mpr ⟨t, ht, hassigns⟩)
      cases value with
      | none => rfl
      | some v =>
        rw [hnone] at h
        cases h

lemma mem_editTexts {text : Bytes} (h : text ∈ editTexts setting value texts) :
    text ∈ texts ∨ ∃ v ∈ value, text = replacement setting v := by
  induction texts with
  | nil => exact .inl h
  | cons first texts ih =>
    rw [editTexts] at h
    split at h
    · rcases List.mem_cons.mp h with rfl | h
      · exact .inl List.mem_cons_self
      · exact (ih h).imp_left (List.mem_cons_of_mem first)
    · split at h
      · exact (ih h).imp_left (List.mem_cons_of_mem first)
      · rcases List.mem_append.mp h with h | h
        · obtain ⟨v, hv, rfl⟩ := Option.mem_map.mp (Option.mem_toList.mp h)
          exact .inr ⟨v, hv, rfl⟩
        · exact (ih h).imp_left (List.mem_cons_of_mem first)

/-- What holds of the records and of the new one holds after an edit. -/
lemma forall_editedTexts {P : Bytes → Prop} (htexts : ∀ text ∈ texts, P text)
    (hend : ∀ text, P text → P (endLine text)) (hnew : ∀ v ∈ value, P (replacement setting v)) :
    ∀ text ∈ editedTexts setting value texts, P text := by
  unfold editedTexts
  split
  · intro text htext
    rcases mem_editTexts htext with htext | ⟨v, hv, rfl⟩
    · exact htexts text htext
    · exact hnew v hv
  · cases value with
    | none => exact htexts
    | some v =>
      intro text htext
      rcases List.mem_append.mp htext with htext | htext
      · exact forall_terminate htexts hend text htext
      · cases List.mem_singleton.mp htext
        exact hnew v rfl

lemma Stacked.editTexts (h : Stacked texts) (hnew : ∀ v ∈ value, Whole (replacement setting v)) :
    Stacked (editTexts setting value texts) := by
  induction texts with
  | nil => trivial
  | cons text texts ih =>
    obtain ⟨hwhole, hlast, hrest⟩ := h
    rw [Config.editTexts]
    split
    · refine ⟨hwhole, hlast.imp_right fun hnil => ?_, ih hrest⟩
      rw [hnil]
      rfl
    · split
      · exact ih hrest
      · cases value with
        | none => exact ih hrest
        | some v =>
          refine ⟨hnew v rfl, .inl ?_, ih hrest⟩
          rw [replacement]
          exact List.getLast?_concat

lemma Stacked.editedTexts (h : Stacked texts) (hnew : ∀ v ∈ value, Whole (replacement setting v)) :
    Stacked (editedTexts setting value texts) := by
  unfold Config.editedTexts
  split
  · exact h.editTexts hnew
  · cases value with
    | none => exact h
    | some v => exact h.terminate_append ⟨hnew v rfl, .inr rfl, trivial⟩

end Texts

/-! ### The assignments after an edit -/

lemma filter_assigned {p : Bytes × Bytes → Bool} {q : Bytes → Bool}
    (h : ∀ text pair, assigned text = some pair → p pair = q text) (texts : List Bytes) :
    (texts.filterMap assigned).filter p = (texts.filter q).filterMap assigned := by
  rw [List.filter_filterMap, List.filterMap_filter]
  refine List.filterMap_congr fun text _ => ?_
  cases hpair : assigned text with
  | none => simp
  | some pair => simp [Option.filter, h text pair hpair]

lemma assigns_of_assigned {setting text : Bytes} {pair : Bytes × Bytes} (h : assigned text = some pair) :
    assigns setting text = isSetting setting pair.1 := by
  rw [assigns, h]

lemma filterMap_map_endLine (texts : List Bytes) :
    (texts.map endLine).filterMap assigned = texts.filterMap assigned := by
  rw [List.filterMap_map]
  exact List.filterMap_congr fun text _ => assigned_endLine text

lemma evaluate_cons (values : Environment) (pair : Bytes × Bytes) (pairs : List (Bytes × Bytes)) :
    evaluate values (pair :: pairs)
      = evaluate (Function.update values pair.1 (some pair.2)) pairs := rfl

/-- Only the assignments to a setting matter for it. -/
lemma evaluate_filter (p : Bytes × Bytes → Bool) (name : Bytes) (h : ∀ value, p (name, value))
    (pairs : List (Bytes × Bytes)) : ∀ {values values' : Environment}, values name = values' name →
    evaluate values pairs name = evaluate values' (pairs.filter p) name := by
  induction pairs with
  | nil => exact fun heq => heq
  | cons pair pairs ih =>
    intro values values' heq
    rw [evaluate_cons]
    by_cases hname : pair.1 = name
    · have hp : p pair := by
        have hpair := h pair.2
        rwa [← hname] at hpair
      rw [List.filter_cons_of_pos hp, evaluate_cons]
      refine ih ?_
      rw [hname, Function.update_self, Function.update_self]
    · by_cases hp : p pair
      · rw [List.filter_cons_of_pos hp, evaluate_cons]
        refine ih ?_
        rw [Function.update_of_ne (Ne.symm hname), Function.update_of_ne (Ne.symm hname), heq]
      · rw [List.filter_cons_of_neg hp]
        refine ih ?_
        rw [Function.update_of_ne (Ne.symm hname), heq]

lemma evaluate_congr (p : Bytes × Bytes → Bool) (name : Bytes) (h : ∀ value, p (name, value))
    {pairs pairs' : List (Bytes × Bytes)} (values : Environment) (heq : pairs.filter p = pairs'.filter p) :
    evaluate values pairs name = evaluate values pairs' name := by
  rw [evaluate_filter p name h pairs rfl, heq, ← evaluate_filter p name h pairs' rfl]

lemma filter_map_unCR (p : Bytes → Bool) (pairs : List (Bytes × Bytes)) :
    (pairs.map (Prod.map id unCR)).filter (fun pair => p pair.1)
      = (pairs.filter fun pair => p pair.1).map (Prod.map id unCR) := by
  rw [List.filter_map]
  rfl

section Names

lemma lookup_mem {name setting : Bytes} (h : legacySettingNames.lookup name = some setting) :
    (name, setting) ∈ legacySettingNames := by
  obtain ⟨before, after, heq, -⟩ := List.lookup_eq_some_iff.mp h
  rw [heq]
  simp

/-- The names that settings have now. -/
lemma canonicalSettingName_spec (name : Bytes) :
    canonicalSettingName (canonicalSettingName name) = canonicalSettingName name
      ∧ (validVariable name → validVariable (canonicalSettingName name))
      ∧ (¬ isRetiredSetting name → ¬ isRetiredSetting (canonicalSettingName name)) := by
  have htable : ∀ pair ∈ legacySettingNames, canonicalSettingName pair.2 = pair.2
      ∧ validVariable pair.2 ∧ ¬ isRetiredSetting pair.2 := by decide +kernel
  cases h : legacySettingNames.lookup name with
  | none =>
    have hname : canonicalSettingName name = name := by
      rw [canonicalSettingName, h]
      rfl
    rw [hname]
    exact ⟨hname, id, id⟩
  | some setting =>
    obtain ⟨hcanonical, hvalid, hretired⟩ := htable _ (lookup_mem h)
    have hname : canonicalSettingName name = setting := by
      rw [canonicalSettingName, h]
      rfl
    rw [hname]
    exact ⟨hcanonical, fun _ => hvalid, fun _ => hretired⟩

end Names

section Check

variable (path setting : Bytes) (value : Option Bytes)

lemma checkEdit_rest (assignments : List PersistentAssignment)
    (h : ∀ a ∈ assignments, canonicalSettingName a.name ≠ setting) (effective : Bytes × ℕ) :
    checkEdit path setting value effective assignments = checkEdit path setting value effective [] := by
  induction assignments with
  | nil => rfl
  | cons a assignments ih =>
    rw [checkEdit, if_pos (h a (by simp)), ih fun a ha => h a (List.mem_cons_of_mem _ ha)]

/-- The check of an edit whose only assignment to the setting is the new one. -/
lemma checkEdit_ok (assignments : List PersistentAssignment)
    (h : (assignments.map fun a => (a.name, a.value)).filter
        (fun pair => isSetting setting pair.1) = (value.map (setting, ·)).toList) :
    checkEdit path setting value ([], 0) assignments = .ok () := by
  induction assignments with
  | nil =>
    cases value with
    | none => rfl
    | some v => cases h
  | cons a assignments ih =>
    rw [List.map_cons] at h
    by_cases hmine : canonicalSettingName a.name = setting
    · rw [List.filter_cons_of_pos (by simpa using hmine)] at h
      obtain ⟨v, rfl⟩ : ∃ v, value = some v := by
        cases value with
        | none => cases h
        | some v => exact ⟨v, rfl⟩
      obtain ⟨hpair, hrest⟩ := List.cons.inj h
      have hnone : ∀ a ∈ assignments, canonicalSettingName a.name ≠ setting := fun b hb =>
        fun hb' => List.filter_eq_nil_iff.mp hrest _ (List.mem_map_of_mem hb) (isSetting_iff.mpr hb')
      obtain ⟨hname, hvalue⟩ := Prod.mk.inj hpair
      rw [checkEdit, if_neg (not_not.mpr hmine), refuse_bind]
      refine ⟨by simpa using hname, ?_⟩
      rw [checkEdit_rest path setting (some v) assignments hnone, checkEdit, refuse,
        if_neg (not_not.mpr hvalue)]
    · rw [List.filter_cons_of_neg (by simpa using hmine)] at h
      rw [checkEdit, if_pos hmine, ih h]

end Check

/-! ### Edits of files -/

section Files

variable (known : Bytes → Bool)

lemma quiet_endLine {text : Bytes} (h : quietComments none (splitAfter text)) :
    quietComments none (splitAfter (endLine text)) := by
  rcases endLine_lines text with heq | heq | ⟨lines, body, hbody, hlines, hend⟩
  · rwa [heq]
  · rw [heq]
    rfl
  · rw [hlines, quietComments_append] at h
    rw [hend, quietComments_append]
    rw [quietComments, chomp_of_not_mem hbody] at h
    rw [quietComments, chomp_concat, isSkipped_congr (trimSpace_append_blank (.of_mem (by decide)) body)]
    exact h

lemma short_endLine {text : Bytes} (h : ShortLines text) : ShortLines (endLine text) := by
  rcases endLine_lines text with heq | heq | ⟨lines, body, hbody, hlines, hend⟩
  · rwa [heq]
  · rw [heq]
    decide
  · rw [ShortLines, hlines, List.forall_mem_append] at h
    rw [ShortLines, hend, List.forall_mem_append]
    refine ⟨h.1, fun line hline => ?_⟩
    have hlast := h.2 body (by simp)
    rw [chomp_of_not_mem hbody] at hlast
    rwa [List.mem_singleton.mp hline, chomp_concat]

lemma length_editTexts (setting : Bytes) (value : Option Bytes) (texts : List Bytes) :
    (editTexts setting value texts).flatten.length
      ≤ texts.flatten.length + (value.map fun v => (replacement setting v).length).getD 0 := by
  induction texts with
  | nil => exact Nat.zero_le _
  | cons text texts ih =>
    rw [editTexts]
    split
    · rw [List.flatten_cons, List.flatten_cons, List.length_append, List.length_append]
      omega
    · rw [List.flatten_cons, List.length_append]
      split
      · omega
      · next hrest =>
          rw [editTexts_of_none (Bool.eq_false_of_not_eq_true hrest), List.flatten_append,
            List.length_append]
          cases value with
          | none => simp
          | some v =>
            simp
            omega

lemma length_editedTexts {texts : List Bytes} (h : Stacked texts) (setting : Bytes)
    (value : Option Bytes) :
    (editedTexts setting value texts).flatten.length
      ≤ texts.flatten.length + (value.map fun v => (replacement setting v).length + 1).getD 0 := by
  unfold editedTexts
  split
  · have hlength := length_editTexts setting value texts
    cases value with
    | none => exact hlength
    | some v => exact hlength.trans (by simp)
  · cases value with
    | none => exact Nat.le_add_right _ _
    | some v =>
      dsimp only
      rw [List.flatten_append, List.length_append, h.flatten_terminate, List.length_append,
        List.flatten_singleton, Option.map_some, Option.getD_some]
      split
      · simp only [List.length_singleton]
        omega
      · simp only [List.length_nil]
        omega

section Edit

variable {name : Bytes} (hname : validVariable name) (hretired : ¬ isRetiredSetting name)
  {value : Option Bytes} (hvalue : ∀ v ∈ value, 39 ∉ v)

include hname

lemma Proper.edited {texts : List Bytes} (h : Proper texts)
    (hshort : ∀ v ∈ value, ShortLines (replacement (canonicalSettingName name) v)) :
    Proper (editedTexts (canonicalSettingName name) value texts) := by
  have hvalid := (canonicalSettingName_spec name).2.1 hname
  exact
    { stacked := h.stacked.editedTexts fun v _ => replacement_whole hvalid v
      sound := forall_editedTexts h.sound (fun _ => .endLine) fun v hv =>
        replacement_sound hvalid v
      quiet := forall_editedTexts h.quiet (fun _ => quiet_endLine) fun v hv =>
        replacement_quiet hvalid v
      short := forall_editedTexts h.short (fun _ => short_endLine) hshort }

include hretired hvalue

lemma assigns_replacement : ∀ v ∈ value,
    assigns (canonicalSettingName name) (replacement (canonicalSettingName name) v) := by
  intro v hv
  obtain ⟨hcanonical, hvalid, hnot⟩ := canonicalSettingName_spec name
  rw [assigns_of_assigned (assigned_replacement (hvalid hname) (hvalue v hv) (hnot hretired))]
  exact decide_eq_true hcanonical

/-- The assignments to the setting after an edit. -/
lemma filter_edited {texts : List Bytes} (h : Stacked texts) :
    ((editedTexts (canonicalSettingName name) value texts).filterMap assigned).filter
        (fun pair => isSetting (canonicalSettingName name) pair.1)
      = (value.map (canonicalSettingName name, ·)).toList := by
  obtain ⟨-, hvalid, hnot⟩ := canonicalSettingName_spec name
  rw [filter_assigned fun text pair hpair => (assigns_of_assigned hpair).symm,
    editedTexts_mine h (assigns_replacement hname hretired hvalue)]
  cases value with
  | none => rfl
  | some v =>
    rw [Option.map_some, Option.toList_some, filterMap_cons_toList,
      assigned_replacement (hvalid hname) (hvalue v rfl) (hnot hretired)]
    rfl

/-- The assignments to other settings after an edit. -/
lemma filter_others {texts : List Bytes} (h : Stacked texts) :
    ((editedTexts (canonicalSettingName name) value texts).filterMap assigned).filter
        (fun pair => !isSetting (canonicalSettingName name) pair.1)
      = (texts.filterMap assigned).filter
        (fun pair => !isSetting (canonicalSettingName name) pair.1) := by
  have hassigned : ∀ text pair, assigned text = some pair →
      (!isSetting (canonicalSettingName name) pair.1)
        = !assigns (canonicalSettingName name) text := fun text pair hpair =>
    congrArg _ (assigns_of_assigned hpair).symm
  rw [filter_assigned hassigned, filter_assigned hassigned, ← filterMap_map_endLine,
    editedTexts_other h (assigns_replacement hname hretired hvalue), filterMap_map_endLine]

/-- **The editor writes the records after the edit.** -/
lemma Proper.edit (path : Bytes) {texts : List Bytes} (h : Proper texts)
    (hshort : ∀ v ∈ value, ShortLines (replacement (canonicalSettingName name) v))
    (hsize : (editedTexts (canonicalSettingName name) value texts).flatten.length ≤ maxContent) :
    editAssignmentContent known path texts.flatten name value
      = .ok (editedTexts (canonicalSettingName name) value texts).flatten := by
  have hset : canonicalSettingName name ≠ [] := by
    have hvalid := (canonicalSettingName_spec name).2.1 hname
    intro hnil
    rw [hnil] at hvalid
    cases hvalid
  obtain ⟨assignments, hparse, hpairs⟩ :=
    (h.edited hname hshort).parses known path hsize
  have hcheck := checkEdit_ok path (canonicalSettingName name) value assignments
    (by rw [hpairs, filter_edited hname hretired hvalue h.stacked])
  have htext : editedText (canonicalSettingName name) value
        (texts.map fun text => ⟨text, canonicalSettingName (assignedName text)⟩)
      = (editedTexts (canonicalSettingName name) value texts).flatten := h.stacked.editedText hset
  have hnames : (texts.map fun text => (⟨text, canonicalSettingName (assignedName text)⟩ : EnvEditRecord))
      = (texts.map fun text => (⟨text, assignedName text⟩ : EnvEditRecord)).map fun record =>
        { record with name := canonicalSettingName record.name } := by
    rw [List.map_map]
    rfl
  rw [hnames] at htext
  rw [editAssignmentContent, h.records known path]
  show (parsePersistentAssignments known path (editedText _ value (List.map _ (List.map _ texts)))
    >>= fun assignments => _) = _
  rw [htext, hparse]
  show (checkEdit path (canonicalSettingName name) value ([], 0) assignments >>= fun _ => _) = _
  rw [hcheck]
  rfl

end Edit

end Files

/-- A file with a comment, two assignments to one setting and one to another. -/
def editedFile : Bytes := str "# a note\nYARD_TYPE=local\nB='x y'\nACCESS_KIND=remote"

end Subyard.Config
