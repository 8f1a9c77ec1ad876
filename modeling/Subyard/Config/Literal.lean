import Subyard.Config.Stack

/-!
Records that assign a literal value.

* `literalOf`: the name and the value of such a record; `assigned`: what it assigns.
* `Sound`: a comment, or a literal record that is accepted.
* `applyRecord_literal`: what such a record does, whatever the settings are.
* `Sound.unCR`: the loader, which leaves out carriage returns, accepts it as well.
* `replacement_whole`, `replacement_sound`: the record the editor writes.
-/

namespace Subyard.Config

open Text Fallible Lines

/-- A value between two marks. -/
def isWrapped (mark : UInt8) (raw : Bytes) : Bool :=
  2 ≤ raw.length && raw.head? = some mark && raw.getLast? = some mark

/-- A value that stands for itself: in single quotation marks, or in no marks and without a dollar
sign and a backslash. -/
def isLiteral (raw : Bytes) : Bool :=
  isWrapped 39 raw || (!isWrapped 34 raw && raw.all fun char => char ≠ 36 && char ≠ 92)

/-- What a literal value stands for. -/
def literalText (raw : Bytes) : Bytes := if isWrapped 39 raw then raw.tail.dropLast else raw

/-- The name and the value of a record that assigns a literal value. -/
def literalOf (record : Bytes) : Option (Bytes × Bytes) :=
  if (trimSpace record).head? = some 58 then none
  else (splitAssignment (trimSpace record)).filter fun parts => isLiteral parts.2

/-- The assignment that a comment or a literal record makes. -/
def assigned (record : Bytes) : Option (Bytes × Bytes) :=
  if isSkipped record then none
  else
    match literalOf record with
    | some (name, raw) => if isRetiredSetting name then none else some (name, literalText raw)
    | none => none

/-- A literal assignment is accepted if it has a name and no command. -/
def Accepted (name raw : Bytes) : Prop := validVariable name ∧ (isWrapped 39 raw ∨ 96 ∉ raw)

/-- A comment, a blank line or an accepted literal record. -/
def Sound (record : Bytes) : Prop :=
  isSkipped record ∨ ∃ name raw, literalOf record = some (name, raw) ∧ Accepted name raw

/-! ### What a literal record does -/

section Effect

variable (known : Bytes → Bool)

lemma expandLoop_plain (s : Scope) : ∀ {value : Bytes}, (∀ char ∈ value, char ≠ 36 ∧ char ≠ 92) →
    expandLoop known value.length value s = .ok (value, s)
  | [], _ => rfl
  | char :: rest, h => by
    have hchar := h char (by simp)
    have ih := expandLoop_plain s fun c hc => h c (List.mem_cons_of_mem char hc)
    rw [List.length_cons, expandLoop]
    simp only [hchar.1, hchar.2, false_and, if_false, ne_eq, not_false_eq_true, true_or, if_true]
    rw [ih]
    rfl

/-- Whether a value without parameters is accepted. -/
lemma expandValue_plain (s : Scope) {value : Bytes} (h : ∀ char ∈ value, char ≠ 36 ∧ char ≠ 92) :
    expandValue known value s
      = if 96 ∈ value then .error (scalarError "command substitution is not allowed in config")
        else .ok (value, s) := by
  have hno : ¬ [36, 40] <:+: value := fun hin => (h 36 (hin.subset (by simp))).1 rfl
  rw [expandValue, checkSubstitution, refuse]
  by_cases htick : 96 ∈ value
  · rw [if_pos (.inr htick), if_pos htick]
    rfl
  · rw [if_neg (by simp [hno, htick]), if_neg htick]
    exact expandLoop_plain known s h

lemma isWrapped_iff {mark : UInt8} {raw : Bytes} :
    isWrapped mark raw ↔ ∃ body, raw = mark :: body ++ [mark] := by
  rw [isWrapped, Bool.and_eq_true, Bool.and_eq_true, decide_eq_true_eq, decide_eq_true_eq,
    decide_eq_true_eq]
  constructor
  · rintro ⟨⟨hlen, hhead⟩, hlast⟩
    obtain ⟨tail, rfl⟩ := List.head?_eq_some_iff.mp hhead
    have hne : tail ≠ [] := by
      rintro rfl
      simp at hlen
    rw [List.getLast?_cons_of_ne_nil hne] at hlast
    obtain ⟨body, rfl⟩ := List.getLast?_eq_some_iff.mp hlast
    exact ⟨body, rfl⟩
  · rintro ⟨body, rfl⟩
    exact ⟨⟨by simp, rfl⟩, List.getLast?_concat⟩

@[simp] lemma isWrapped_body (mark : UInt8) (body : Bytes) : isWrapped mark (mark :: body ++ [mark]) :=
  isWrapped_iff.mpr ⟨body, rfl⟩

lemma literalText_wrapped (body : Bytes) : literalText (39 :: body ++ [39]) = body := by
  rw [literalText, if_pos (isWrapped_body 39 body), List.cons_append, List.tail_cons,
    List.dropLast_concat]

/-- What is in no marks is literal if it has neither a dollar sign nor a backslash. -/
lemma isLiteral_unwrapped {raw : Bytes} (hq : ¬ isWrapped 39 raw) :
    isLiteral raw ↔ ¬ isWrapped 34 raw ∧ 36 ∉ raw ∧ 92 ∉ raw := by
  rw [isLiteral, Bool.eq_false_of_not_eq_true hq, Bool.false_or, Bool.and_eq_true,
    List.all_eq_true, Bool.not_eq_true', Bool.not_eq_true]
  refine and_congr_right fun _ => ⟨fun h => ⟨fun h36 => ?_, fun h92 => ?_⟩, fun h char hchar => ?_⟩
  · simpa using h 36 h36
  · simpa using h 92 h92
  · simp only [Bool.and_eq_true, decide_eq_true_eq]
    exact ⟨ne_of_mem_of_not_mem hchar h.1, ne_of_mem_of_not_mem hchar h.2⟩

lemma decodeValue_literal {raw : Bytes} (h : isLiteral raw) :
    decodeValue raw = (literalText raw, !isWrapped 39 raw) := by
  by_cases hq : isWrapped 39 raw
  · obtain ⟨body, rfl⟩ := isWrapped_iff.mp hq
    rw [literalText_wrapped, hq, decodeValue, if_neg (by simp),
      if_pos ⟨rfl, List.getLast?_concat⟩, List.cons_append, List.tail_cons, List.dropLast_concat]
    rfl
  · have hdouble := ((isLiteral_unwrapped hq).mp h).1
    rw [decodeValue, literalText, if_neg hq, Bool.eq_false_of_not_eq_true hq]
    split
    · rfl
    next hlen =>
      have hlong : decide (2 ≤ raw.length) = true := decide_eq_true (not_lt.mp hlen)
      rw [if_neg fun hmark => hq ?_, if_neg fun hmark => hdouble ?_]
      · rfl
      · rw [isWrapped, hlong, hmark.1, hmark.2]
        rfl
      · rw [isWrapped, hlong, hmark.1, hmark.2]
        rfl

lemma assignRaw_literal {raw : Bytes} (h : isLiteral raw) (name : Bytes) (s : Scope) :
    assignRaw known name raw s
      = if isWrapped 39 raw ∨ 96 ∉ raw then .ok (s.assign name (literalText raw))
        else .error (scalarError "command substitution is not allowed in config") := by
  rw [assignRaw, decodeValue_literal h]
  by_cases hq : isWrapped 39 raw
  · simp [hq]
    rfl
  · obtain ⟨-, h36, h92⟩ := (isLiteral_unwrapped hq).mp h
    have hplain : ∀ char ∈ raw, char ≠ 36 ∧ char ≠ 92 := fun char hchar =>
      ⟨ne_of_mem_of_not_mem hchar h36, ne_of_mem_of_not_mem hchar h92⟩
    have htext : literalText raw = raw := by rw [literalText, if_neg hq]
    simp only [hq, htext, Bool.not_false, not_true_eq_false, if_false]
    rw [expandValue_plain known s hplain]
    by_cases htick : 96 ∈ raw
    · rw [if_pos htick, if_neg (by simp [htick])]
      rfl
    · rw [if_neg htick, if_pos (.inr htick)]
      rfl

lemma literalOf_eq_some {record name raw : Bytes} :
    literalOf record = some (name, raw) ↔ (trimSpace record).head? ≠ some 58
      ∧ splitAssignment (trimSpace record) = some (name, raw) ∧ isLiteral raw := by
  rw [literalOf]
  split
  · next h => exact ⟨nofun, fun hrest => absurd h hrest.1⟩
  · next h =>
      rw [Option.filter_eq_some_iff]
      exact ⟨fun hrest => ⟨h, hrest⟩, fun hrest => hrest.2⟩

/-- **What a literal record does**, whatever the settings are. -/
lemma applyRecord_literal {record name raw : Bytes} (h : literalOf record = some (name, raw))
    (s : Scope) :
    (Accepted name raw → applyRecord known record s
        = .ok (if isRetiredSetting name then s else s.assign name (literalText raw)))
      ∧ ∀ s', applyRecord known record s = .ok s' → Accepted name raw := by
  obtain ⟨hcolon, hsplit, hliteral⟩ := literalOf_eq_some.mp h
  have happly : applyRecord known record s = (do
      refuse (¬ validVariable name) (scalarError "invalid variable name")
      let result ← assignRaw known name raw s
      pure (if isRetiredSetting name || isRetiredSetting name then s else result)) := by
    rw [applyRecord, applyRecordRetired, if_neg hcolon, hsplit]
  rw [happly, assignRaw_literal known hliteral]
  refine ⟨?_, fun s' hok => ?_⟩
  · rintro ⟨hvalid, hcommand⟩
    rw [refuse_bind, if_pos hcommand, Bool.or_self]
    exact ⟨not_not.mpr hvalid, rfl⟩
  · obtain ⟨hvalid, hok⟩ := refuse_bind.mp hok
    refine ⟨not_not.mp hvalid, ?_⟩
    by_contra hcommand
    rw [if_neg hcommand] at hok
    cases hok

/-- The settings after an assignment. -/
def Scope.assignSome (s : Scope) : Option (Bytes × Bytes) → Scope
  | some (name, value) => s.assign name value
  | none => s

lemma Sound.applyRecord {record : Bytes} (h : Sound record) (hkept : ¬ isSkipped record) (s : Scope) :
    applyRecord known record s = .ok (s.assignSome (assigned record)) := by
  obtain ⟨name, raw, hliteral, haccepted⟩ := h.resolve_left hkept
  rw [(applyRecord_literal known hliteral s).1 haccepted, assigned, if_neg hkept, hliteral]
  by_cases hretired : isRetiredSetting name
  · simp [hretired, Scope.assignSome]
  · simp [hretired, Scope.assignSome]

end Effect

/-! ### Carriage returns -/

lemma unCR_cons {b : UInt8} (hb : b ≠ 13) (bs : Bytes) : unCR (b :: bs) = b :: unCR bs := by
  rw [unCR, if_neg fun h => hb h.1]

lemma unCR_wrapped {mark : UInt8} (h10 : mark ≠ 10) (h13 : mark ≠ 13) (body : Bytes) :
    unCR (mark :: body ++ [mark]) = mark :: unCR body ++ [mark] := by
  have hmark : unCR [mark] = [mark] := unCR_of_not_mem (by simpa using h10.symm)
  rw [List.cons_append, unCR_cons h13, unCR_append fun _ => by simpa using h10, hmark,
    List.cons_append]

lemma isWrapped_unCR {mark : UInt8} (h10 : mark ≠ 10) (h13 : mark ≠ 13) (raw : Bytes) :
    isWrapped mark (unCR raw) = isWrapped mark raw := by
  refine Bool.eq_iff_iff.mpr ⟨fun h => ?_, fun h => ?_⟩
  · obtain ⟨body, hbody⟩ := isWrapped_iff.mp h
    have hstart : [mark] <+: unCR raw := ⟨body ++ [mark], hbody.symm⟩
    obtain ⟨tail, rfl⟩ := prefix_of_unCR (by simpa using h10.symm) hstart
    have hlast : (mark :: tail).getLast? = some mark := by
      rw [← getLast_unCR, ← List.singleton_append, hbody, List.getLast?_concat]
    have hne : tail ≠ [] := by
      rintro rfl
      rw [List.append_nil, unCR_of_not_mem (by simpa using h10.symm)] at hbody
      simp at hbody
    rw [List.getLast?_cons_of_ne_nil hne] at hlast
    obtain ⟨body, rfl⟩ := List.getLast?_eq_some_iff.mp hlast
    exact isWrapped_body mark body
  · obtain ⟨body, rfl⟩ := isWrapped_iff.mp h
    rw [unCR_wrapped h10 h13]
    exact isWrapped_body mark (unCR body)

lemma isLiteral_unCR (raw : Bytes) : isLiteral (unCR raw) = isLiteral raw := by
  have hq : isWrapped 39 (unCR raw) = isWrapped 39 raw :=
    isWrapped_unCR (by decide) (by decide) raw
  refine Bool.eq_iff_iff.mpr ?_
  by_cases hwrapped : isWrapped 39 raw
  · rw [isLiteral, isLiteral, hq, hwrapped]
    simp
  · rw [isLiteral_unwrapped (by rwa [hq]), isLiteral_unwrapped hwrapped, mem_unCR (by decide),
      mem_unCR (by decide), isWrapped_unCR (by decide) (by decide)]

lemma literalText_unCR (raw : Bytes) : literalText (unCR raw) = unCR (literalText raw) := by
  by_cases hq : isWrapped 39 raw
  · obtain ⟨body, rfl⟩ := isWrapped_iff.mp hq
    rw [unCR_wrapped (by decide) (by decide), literalText_wrapped, literalText_wrapped]
  · rw [literalText, literalText, isWrapped_unCR (by decide) (by decide), if_neg hq, if_neg hq]

/-- The record after the word for an export. -/
def exported (record : Bytes) : Bytes :=
  if (str "export ").isPrefixOf record then trimSpace (record.drop 7) else record

/-- The two sides of an equals sign. -/
def sides (record : Bytes) : Option (Bytes × Bytes) :=
  let left := record.takeWhile (· ≠ 61)
  if left = [] ∨ left = record then none
  else some (trimSpace left, trimSpace (record.drop (left.length + 1)))

lemma splitAssignment_eq (record : Bytes) : splitAssignment record = sides (exported record) := rfl

lemma sides_eq_none {record : Bytes} (h : 61 ∉ record) : sides record = none := by
  have hall : record.takeWhile (· ≠ 61) = record := List.takeWhile_eq_self_iff.mpr
    fun char hchar => decide_eq_true (ne_of_mem_of_not_mem hchar h)
  rw [sides]
  simp only [hall, or_true, if_true]

lemma sides_append {left : Bytes} (h : 61 ∉ left) (right : Bytes) :
    sides (left ++ 61 :: right) = if left = [] then none else some (trimSpace left, trimSpace right) := by
  have hall : (left ++ 61 :: right).takeWhile (· ≠ 61) = left := by
    rw [List.takeWhile_append_of_pos fun char hchar => decide_eq_true (ne_of_mem_of_not_mem hchar h),
      List.takeWhile_cons_of_neg (by simp), List.append_nil]
  have hdrop : (left ++ 61 :: right).drop (left.length + 1) = right := by simp
  rw [sides]
  simp only [hall, hdrop]
  simp

lemma sides_unCR (record : Bytes) : sides (unCR record) = (sides record).map (Prod.map unCR unCR) := by
  by_cases h : 61 ∈ record
  · obtain ⟨left, right, rfl, hleft⟩ := List.eq_append_cons_of_mem h
    have hsplit : unCR (left ++ 61 :: right) = unCR left ++ 61 :: unCR right := by
      rw [unCR_append fun _ => by simp, unCR_cons (by decide)]
    rw [hsplit, sides_append hleft, sides_append (by rwa [mem_unCR (by decide)]), trimSpace_unCR,
      trimSpace_unCR]
    by_cases hnil : left = []
    · rw [if_pos hnil, if_pos (unCR_eq_nil.mpr hnil)]
      rfl
    · rw [if_neg hnil, if_neg fun hempty => hnil (unCR_eq_nil.mp hempty)]
      rfl
  · rw [sides_eq_none h, sides_eq_none (by rwa [mem_unCR (by decide)])]
    rfl

lemma exported_unCR (record : Bytes) : exported (unCR record) = unCR (exported record) := by
  rw [exported, exported]
  by_cases h : str "export " <+: record
  · obtain ⟨rest, rfl⟩ := h
    have hsplit : unCR (str "export " ++ rest) = str "export " ++ unCR rest := by
      rw [unCR_append fun hlast => absurd hlast (by decide), unCR_of_not_mem (by decide)]
    rw [hsplit, if_pos (List.isPrefixOf_iff_prefix.mpr (List.prefix_append _ _)),
      if_pos (List.isPrefixOf_iff_prefix.mpr (List.prefix_append _ _)), List.drop_left',
      List.drop_left', trimSpace_unCR]
    · decide
    · decide
  · rw [if_neg fun hstart => h (List.isPrefixOf_iff_prefix.mp hstart),
      if_neg fun hstart => h (prefix_of_unCR (by decide) (List.isPrefixOf_iff_prefix.mp hstart))]

lemma head_trimSpace_unCR (record : Bytes) :
    (trimSpace (unCR record)).head? = (trimSpace record).head? := by
  obtain ⟨a, c, -, -, -, hclear, -⟩ := exists_trimSpace record
  rw [trimSpace_unCR, head_unCR (hclear.head_ne (by decide))]

lemma isSkipped_unCR (record : Bytes) : isSkipped (unCR record) = isSkipped record := by
  rw [isSkipped, isSkipped, head_trimSpace_unCR, trimSpace_unCR]
  simp only [unCR_eq_nil]

/-- The loader reads the same name and the same value, without the carriage returns. -/
lemma literalOf_unCR (record : Bytes) :
    literalOf (unCR record) = (literalOf record).map (Prod.map unCR unCR) := by
  rw [literalOf, literalOf, head_trimSpace_unCR]
  split
  · rfl
  · rw [trimSpace_unCR, splitAssignment_eq, exported_unCR, sides_unCR, ← splitAssignment_eq]
    cases splitAssignment (trimSpace record) with
    | none => rfl
    | some parts =>
      simp only [Option.map_some, Option.filter_some, Prod.map_snd, isLiteral_unCR]
      split <;> rfl

/-- A name is on one line. -/
lemma validVariable_char {name : Bytes} (h : validVariable name) : ∀ char ∈ name,
    variableChar char false := by
  cases name with
  | nil => simp
  | cons first rest =>
    rw [validVariable, Bool.and_eq_true, List.all_eq_true] at h
    intro char hchar
    rcases List.mem_cons.mp hchar with rfl | hchar
    · have hfirst := h.1
      simp only [variableChar, Bool.or_eq_true, Bool.not_true, Bool.false_and] at hfirst ⊢
      exact .inl (by simpa using hfirst)
    · exact h.2 char hchar

lemma validVariable_not_mem {name : Bytes} (h : validVariable name) {char : UInt8}
    (hchar : variableChar char false = false) : char ∉ name := fun hmem =>
  absurd (validVariable_char h char hmem) (by simp [hchar])

lemma Accepted.unCR {name raw : Bytes} (h : Accepted name raw) : Accepted name (unCR raw) :=
  ⟨h.1, by rw [isWrapped_unCR (by decide) (by decide), mem_unCR (by decide)]; exact h.2⟩

lemma Accepted.of_unCR {name raw : Bytes} (h : Accepted (Lines.unCR name) (Lines.unCR raw)) :
    Accepted name raw := by
  have hname : 10 ∉ name := fun hmem =>
    validVariable_not_mem h.1 (by decide) ((mem_unCR (by decide)).mpr hmem)
  obtain ⟨hvalid, hcommand⟩ := h
  rw [unCR_of_not_mem hname] at hvalid
  rw [isWrapped_unCR (by decide) (by decide), mem_unCR (by decide)] at hcommand
  exact ⟨hvalid, hcommand⟩

/-- The loader accepts what the editor does. -/
lemma Sound.unCR {record : Bytes} (h : Sound record) :
    Sound (unCR record) ∧ assigned (unCR record) = (assigned record).map (Prod.map id unCR) := by
  rw [Sound, assigned, assigned, isSkipped_unCR, literalOf_unCR]
  by_cases hskip : isSkipped record
  · rw [if_pos hskip, if_pos hskip]
    exact ⟨.inl hskip, rfl⟩
  · obtain ⟨name, raw, hliteral, haccepted⟩ := h.resolve_left hskip
    have hname : Lines.unCR name = name :=
      unCR_of_not_mem (validVariable_not_mem haccepted.1 (by decide))
    rw [if_neg hskip, if_neg hskip, hliteral]
    simp only [Option.map_some, Prod.map_apply, hname, literalText_unCR]
    refine ⟨.inr ⟨name, Lines.unCR raw, rfl, haccepted.unCR⟩, ?_⟩
    split <;> rfl

/-- The editor accepts a literal record that the loader accepts. -/
lemma sound_of_applyRecord (known : Bytes → Bool) {record : Bytes} (h : (literalOf record).isSome)
    {s s' : Scope} (hok : applyRecord known (unCR record) s = .ok s') : Sound record := by
  obtain ⟨⟨name, raw⟩, hliteral⟩ := Option.isSome_iff_exists.mp h
  have hunCR : literalOf (unCR record) = some (unCR name, unCR raw) := by
    rw [literalOf_unCR, hliteral]
    rfl
  exact .inr ⟨name, raw, hliteral, .of_unCR ((applyRecord_literal known hunCR s).2 s' hok)⟩

/-! ### The end of a record -/

lemma Sound.endLine {record : Bytes} (h : Sound record) : Sound (endLine record) := by
  rw [Sound, isSkipped_congr (trimSpace_endLine record), literalOf, trimSpace_endLine]
  exact h

lemma assigned_endLine (record : Bytes) : assigned (endLine record) = assigned record := by
  rw [assigned, assigned, isSkipped_congr (trimSpace_endLine record), literalOf, literalOf,
    trimSpace_endLine]

end Subyard.Config
