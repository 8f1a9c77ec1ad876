import Subyard.Config.Literal

/-!
What the readers find in a file of literal records.

* `Proper`: the records of such a file.
* `Proper.loads`, `Proper.parses`, `Proper.records`: what the loader and the two readers of the
  editor find in it.
* `exists_proper`: a literal file that the loader accepts has such records.
-/

namespace Subyard.Config

open Text Fallible Lines

/-! ### Records -/

/-- The records of a file that is read without errors. -/
structure Proper (texts : List Bytes) : Prop where
  stacked : Stacked texts
  sound : ∀ text ∈ texts, Sound text
  quiet : ∀ text ∈ texts, quietComments none (splitAfter text)
  short : ∀ text ∈ texts, ShortLines text

/-- The settings after some assignments. -/
def evaluate (values : Environment) (pairs : List (Bytes × Bytes)) : Environment :=
  pairs.foldl (fun values pair => Function.update values pair.1 (some pair.2)) values

/-- The setting that a record assigns, if any. -/
def assignedName (text : Bytes) : Bytes := ((assigned text).map (·.1)).getD []

lemma assigned_skipped {text : Bytes} (h : isSkipped text) : assigned text = none := if_pos h

lemma evaluate_toList (values : Environment) (pair : Option (Bytes × Bytes)) :
    evaluate values pair.toList = (Scope.assignSome { values := values } pair).values
      ∧ (Scope.assignSome { values := values } pair).observed = pair.toList := by
  cases pair with
  | none => exact ⟨rfl, rfl⟩
  | some pair => exact ⟨rfl, rfl⟩

lemma filterMap_cons_toList {α β : Type} (f : α → Option β) (a : α) (l : List α) :
    (a :: l).filterMap f = (f a).toList ++ l.filterMap f := by
  rw [List.filterMap_cons]
  cases f a <;> rfl

section Readers

variable (known : Bytes → Bool)

lemma applyPersistent_sound (path : Bytes) {record : Record} (h : Sound record.2)
    (hkept : ¬ isSkipped record.2) (values : Environment) :
    applyPersistent known path record values
      = .ok (Scope.assignSome { values := values } (assigned record.2)) := by
  rw [applyPersistent, applyRecord_trimSpace, h.applyRecord known hkept]
  rfl

/-- The assignments that the editor reads. -/
lemma parse_sound (path : Bytes) (found : List Record) (h : ∀ record ∈ found, Sound record.2) :
    ∀ state, ∃ values assignments,
      found.foldlM (parseRecord known path) state = .ok (values, state.2 ++ assignments)
        ∧ assignments.map (fun a => (a.name, a.value)) = (found.map (·.2)).filterMap assigned := by
  induction found with
  | nil => exact fun state => ⟨state.1, [], by rw [List.append_nil]; rfl, rfl⟩
  | cons record found ih =>
    intro state
    have hrest := ih fun r hr => h r (List.mem_cons_of_mem record hr)
    rw [List.foldlM_cons, parseRecord, List.map_cons, filterMap_cons_toList]
    by_cases hskip : isSkipped record.2
    · rw [if_pos hskip, assigned_skipped hskip]
      exact hrest state
    · rw [if_neg hskip, applyPersistent_sound known path (h record (by simp)) hskip]
      obtain ⟨values, assignments, hfold, hpairs⟩ := hrest
        ((Scope.assignSome { values := state.1 } (assigned record.2)).values,
          state.2 ++ persistentAssignments record (assigned record.2).toList)
      refine ⟨values, persistentAssignments record (assigned record.2).toList ++ assignments, ?_, ?_⟩
      · rw [← List.append_assoc, ← hfold, ← (evaluate_toList state.1 (assigned record.2)).2]
        rfl
      · rw [List.map_append, hpairs, persistentAssignments, List.map_map]
        exact congrArg (· ++ _) (List.map_id _)

/-- The records that the editor edits. -/
lemma edit_sound (path : Bytes) (found : List Record) (h : ∀ record ∈ found, Sound record.2) :
    ∀ state, ∃ values, found.foldlM (editRecord known path) state
      = .ok (values, state.2 ++ found.map fun record => ⟨record.2, assignedName record.2⟩) := by
  induction found with
  | nil => exact fun state => ⟨state.1, by rw [List.map_nil, List.append_nil]; rfl⟩
  | cons record found ih =>
    intro state
    have hrest := ih fun r hr => h r (List.mem_cons_of_mem record hr)
    rw [List.foldlM_cons, editRecord]
    by_cases hskip : isSkipped record.2
    · obtain ⟨values, hfold⟩ := hrest (state.1, state.2 ++ [{ content := record.2 }])
      have hname : assignedName record.2 = [] := by
        rw [assignedName, assigned_skipped hskip]
        rfl
      refine ⟨values, ?_⟩
      rw [if_pos hskip, List.map_cons,
        List.append_cons state.2 ⟨record.2, assignedName record.2⟩, hname]
      exact hfold
    · obtain ⟨values, hfold⟩ := hrest
        ((Scope.assignSome { values := state.1 } (assigned record.2)).values,
          state.2 ++ [⟨record.2, assignedName record.2⟩])
      have hname : (((assigned record.2).toList.getLast?).map (·.1)).getD []
          = assignedName record.2 := by
        rw [assignedName]
        cases assigned record.2 <;> rfl
      refine ⟨values, ?_⟩
      rw [if_neg hskip, applyPersistent_sound known path (h record (by simp)) hskip, List.map_cons,
        List.append_cons state.2 ⟨record.2, assignedName record.2⟩, ← hfold, ← hname, ← (evaluate_toList state.1 (assigned record.2)).2]
      rfl

/-- What the loader makes of a record that it accepts. -/
lemma loadRecord_ok (source : Bytes) {l e : Record} (hsame : SameRecord l e) (loaded : Loaded) :
    (Sound e.2 → ¬ isSkipped e.2 → ∃ assignments, loadRecord known isRetiredSetting source loaded l
        = .ok ⟨evaluate loaded.values ((assigned e.2).map (Prod.map id unCR)).toList, assignments⟩)
      ∧ ((literalOf e.2).isSome → ∀ loaded', loadRecord known isRetiredSetting source loaded l
        = .ok loaded' → Sound e.2) := by
  have hl : applyRecordRetired known isRetiredSetting l.2 { values := loaded.values }
      = applyRecord known (unCR e.2) { values := loaded.values } :=
    applyRecord_congr known (hsame.2.trans (trimSpace_unCR e.2).symm) _
  rw [loadRecord, hl]
  constructor
  · intro hsound hkept
    obtain ⟨hunCR, hassigned⟩ := hsound.unCR
    rw [hunCR.applyRecord known (by rwa [isSkipped_unCR]), hassigned, (evaluate_toList _ _).1]
    exact ⟨_, rfl⟩
  · intro hliteral loaded' hok
    cases happly : applyRecord known (unCR e.2) { values := loaded.values } with
    | error cause =>
      rw [happly] at hok
      cases hok
    | ok s => exact sound_of_applyRecord known hliteral happly

/-- The settings that the loader reads. -/
lemma load_sound (source : Bytes) {l e : List Record} (hsame : List.Forall₂ SameRecord l e)
    (h : ∀ record ∈ e, Sound record.2 ∧ ¬ isSkipped record.2) : ∀ loaded : Loaded, ∃ assignments,
    l.foldlM (loadRecord known isRetiredSetting source) loaded
      = .ok ⟨evaluate loaded.values
          (((e.map (·.2)).filterMap assigned).map (Prod.map id unCR)), assignments⟩ := by
  induction hsame with
  | nil => exact fun loaded => ⟨loaded.assignments, rfl⟩
  | @cons first record l e hfirst _ ih =>
    intro loaded
    obtain ⟨hsound, hkept⟩ := h record (by simp)
    obtain ⟨assignments, hok⟩ := (loadRecord_ok known source hfirst loaded).1 hsound hkept
    obtain ⟨assignments', hrest⟩ := ih (fun r hr => h r (List.mem_cons_of_mem record hr))
      ⟨evaluate loaded.values ((assigned record.2).map (Prod.map id unCR)).toList, assignments⟩
    refine ⟨assignments', ?_⟩
    have hpairs : evaluate (evaluate loaded.values
          ((assigned record.2).map (Prod.map id unCR)).toList)
          (((e.map (·.2)).filterMap assigned).map (Prod.map id unCR))
        = evaluate loaded.values
          ((((record :: e).map (·.2)).filterMap assigned).map (Prod.map id unCR)) := by
      rw [List.map_cons, filterMap_cons_toList, List.map_append]
      unfold evaluate
      rw [List.foldl_append]
      cases assigned record.2 <;> rfl
    rw [List.foldlM_cons, hok, ← hpairs]
    exact hrest

/-- Literal records that the loader accepts are sound. -/
lemma sound_of_loaded (source : Bytes) {l e : List Record} (hsame : List.Forall₂ SameRecord l e)
    (h : ∀ record ∈ e, (literalOf record.2).isSome) : ∀ {loaded loaded' : Loaded},
    l.foldlM (loadRecord known isRetiredSetting source) loaded = .ok loaded' →
    ∀ record ∈ e, Sound record.2 := by
  induction hsame with
  | nil => exact fun _ _ hr => absurd hr (by simp)
  | @cons first record l e hfirst _ ih =>
    intro loaded loaded' hok r hr
    rw [List.foldlM_cons] at hok
    obtain ⟨next, hnext, hrest⟩ := of_bind_ok hok
    rcases List.mem_cons.mp hr with rfl | hr
    · exact (loadRecord_ok known source hfirst loaded).2 (h r (by simp)) next hnext
    · exact ih (fun r hr => h r (List.mem_cons_of_mem record hr)) hrest r hr

end Readers

/-! ### Files -/

/-- The records of a file. -/
def textsOf (content : Bytes) : List Bytes := (records editStep {} (splitAfter content)).1.map (·.2)

/-- A file of blank lines, comments and literal assignments. -/
def LiteralFile (content : Bytes) : Prop :=
  ∀ text ∈ textsOf content, isSkipped text ∨ (literalOf text).isSome

instance (content : Bytes) : Decidable (LiteralFile content) :=
  inferInstanceAs (Decidable (∀ text ∈ textsOf content, _))

section Files

variable (known : Bytes → Bool)

lemma Stacked.textsOf {texts : List Bytes} (h : Stacked texts) : textsOf texts.flatten = texts := by
  rw [Config.textsOf, (records_texts _ {}).1, texts_flatten h]

lemma Stacked.closed {texts : List Bytes} (h : Stacked texts) :
    ¬ ((records editStep {} (splitAfter texts.flatten)).2.quote ≠ none
      ∨ (records editStep {} (splitAfter texts.flatten)).2.current ≠ []) := by
  have hrecords := (records_texts (splitAfter texts.flatten) {}).2
  rw [texts_flatten h] at hrecords
  rw [hrecords.1, hrecords.2]
  simp

lemma Proper.sound_record {texts : List Bytes} (h : Proper texts) :
    ∀ record ∈ (records editStep {} (splitAfter texts.flatten)).1, Sound record.2 := by
  intro record hrecord
  refine h.sound record.2 ?_
  rw [← h.stacked.textsOf]
  exact List.mem_map_of_mem hrecord

/-- What the editor reads. -/
lemma Proper.parses {texts : List Bytes} (h : Proper texts) (path : Bytes)
    (hsize : texts.flatten.length ≤ maxContent) :
    ∃ assignments, parsePersistentAssignments known path texts.flatten = .ok assignments
      ∧ assignments.map (fun a => (a.name, a.value)) = texts.filterMap assigned := by
  obtain ⟨values, assignments, hfold, hpairs⟩ :=
    parse_sound known path _ h.sound_record (fun _ => none, [])
  refine ⟨assignments, ?_, hpairs.trans (congrArg _ h.stacked.textsOf)⟩
  rw [parsePersistentAssignments, refuse, if_neg (not_lt.mpr hsize), readRecords]
  dsimp only
  rw [hfold, refuse, if_neg h.stacked.closed]
  rfl

/-- What the editor edits. -/
lemma Proper.records {texts : List Bytes} (h : Proper texts) (path : Bytes) :
    parseEnvEditRecords known path texts.flatten
      = .ok (texts.map fun text => ⟨text, assignedName text⟩) := by
  obtain ⟨values, hfold⟩ := edit_sound known path _ h.sound_record (fun _ => none, [])
  have htexts := h.stacked.textsOf
  rw [textsOf] at htexts
  rw [parseEnvEditRecords, readRecords]
  dsimp only
  rw [hfold, refuse, if_neg h.stacked.closed]
  conv_rhs => rw [← htexts, List.map_map]
  rfl

/-- What the loader reads. -/
lemma Proper.loads {texts : List Bytes} (h : Proper texts) (source : Bytes) :
    ∃ assignments, applyEnvReaderObserved known source texts.flatten (fun _ => none)
      = .ok ⟨evaluate (fun _ => none) ((texts.filterMap assigned).map (Prod.map id unCR)),
        assignments⟩ := by
  have hlines := h.stacked.short.mpr h.short
  obtain ⟨hsame, halike⟩ :=
    records_aligned texts.flatten aligned_start (h.stacked.quiet.mpr h.quiet)
  have hkept : ∀ record ∈ (Config.records editStep {} (splitAfter texts.flatten)).1.filter
      (fun record => !isSkipped record.2), Sound record.2 ∧ ¬ isSkipped record.2 := by
    intro record hrecord
    obtain ⟨hmem, hskip⟩ := List.mem_filter.mp hrecord
    exact ⟨h.sound_record record hmem, by simpa using hskip⟩
  obtain ⟨assignments, hfold⟩ := load_sound known source hsame hkept
    { values := discardRetiredSettings fun _ => none }
  refine ⟨assignments, ?_⟩
  have hnone : (discardRetiredSettings fun _ => none) = fun _ => none := by
    funext name
    rw [discardRetiredSettings]
    split <;> rfl
  have hpairs : (((Config.records editStep {} (splitAfter texts.flatten)).1.filter
      fun record => !isSkipped record.2).map (·.2)).filterMap assigned = texts.filterMap assigned := by
    conv_rhs => rw [← h.stacked.textsOf, textsOf]
    rw [List.filterMap_map, List.filterMap_map, List.filterMap_filter]
    refine List.filterMap_congr fun record _ => ?_
    by_cases hskip : isSkipped record.2
    · simp [hskip, assigned_skipped hskip]
    · simp [hskip]
  rw [applyEnvReaderObserved, applyEnvReaderObservedRetired, scanLines_of_short hlines]
  dsimp only
  rw [hfold, hpairs, hnone, refuse, if_neg (not_not.mpr hlines), refuse,
    if_neg (fun hleft => h.stacked.closed (halike.left.mp hleft))]
  rfl

/-- A file of literal records that the loader accepts. -/
lemma exists_proper (source content : Bytes) {loaded : Loaded}
    (hload : applyEnvReaderObserved known source content (fun _ => none) = .ok loaded)
    (hliteral : LiteralFile content) (hquiet : quietComments none (splitAfter content)) :
    ∃ texts, content = texts.flatten ∧ Proper texts := by
  rw [applyEnvReaderObserved, applyEnvReaderObservedRetired] at hload
  obtain ⟨found, hfold, hload⟩ := of_bind_ok hload
  obtain ⟨hlines, hload⟩ := refuse_bind.mp hload
  have hclosed := (refuse_bind.mp hload).1
  rw [not_not] at hlines
  rw [scanLines_of_short hlines] at hfold hclosed
  obtain ⟨hsame, halike⟩ := records_aligned content aligned_start hquiet
  have hend : (textsFrom [] none (splitAfter content)).2 = ([], none) := by
    have hrecords := (records_texts (splitAfter content) {}).2
    have hopen := mt halike.left.mpr hclosed
    rw [not_or, not_not, not_not, hrecords.1, hrecords.2] at hopen
    exact Prod.ext hopen.2 hopen.1
  obtain ⟨texts, hstacked, rfl⟩ := exists_stacked content hend
  refine ⟨texts, rfl, hstacked, fun text htext => ?_, hstacked.quiet.mp hquiet,
    hstacked.short.mp hlines⟩
  have hmem : text ∈ textsOf texts.flatten := by rwa [hstacked.textsOf]
  by_cases hskip : isSkipped text
  · exact .inl hskip
  · obtain ⟨record, hrecord, rfl⟩ := List.mem_map.mp hmem
    refine sound_of_loaded known source hsame (fun r hr => ?_) hfold record
      (List.mem_filter.mpr ⟨hrecord, by simpa using hskip⟩)
    obtain ⟨hr, hkept⟩ := List.mem_filter.mp hr
    exact (hliteral r.2 (List.mem_map_of_mem hr)).resolve_left (by simpa using hkept)

end Files

end Subyard.Config
