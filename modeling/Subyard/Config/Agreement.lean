import Mathlib.Data.List.TakeWhile
import Subyard.Config.Envedit

/-!
The loader and the editor of settings files split a file in two ways.

* `quietComments`: no comment has an open quotation mark.
* `records_aligned`: where comments are quiet the loader's records are those of the editor that are
  no comments, but for white space and the carriage returns at line ends.
* `editor_reads_as_loader`: **the editor and the loader read the same assignments**, if comments
  are quiet and no line inside a record ends with a carriage return.
* `comment_opens_quote`: where they do not.
-/

namespace Subyard.Config

open Text Fallible Lines

variable {body ending : Bytes} {l e : Cursor}

/-- No comment or blank line between records has an open quotation mark; `quote` is the one that is
open before the lines. -/
def quietComments (quote : Option UInt8) : List Bytes → Bool
  | [] => true
  | line :: lines =>
      (quote ≠ none || !isSkipped line || scanQuote (chomp line) none = none)
        && quietComments (scanQuote (chomp line) quote) lines

/-! ### Lines -/

/-- The marks that can be open. -/
def IsMark (quote : Option UInt8) : Prop := ∀ c ∈ quote, c = 39 ∨ c = 34

/-- A carriage return opens and closes nothing. -/
lemma scanQuoteFrom_concat (line : Bytes) : ∀ (escaped : Bool) (quote : Option UInt8), IsMark quote →
    scanQuoteFrom escaped quote (line ++ [13]) = scanQuoteFrom escaped quote line := by
  induction line with
  | nil =>
    intro escaped quote hquote
    have hne : quote ≠ some 13 := fun heq => by
      rcases hquote 13 heq with h | h <;> exact absurd h (by decide)
    cases escaped <;> simp [scanQuoteFrom, hne]
  | cons char line ih =>
    intro escaped quote hquote
    rw [List.cons_append, scanQuoteFrom, scanQuoteFrom]
    split
    · exact ih _ _ hquote
    split
    · exact ih _ _ hquote
    split
    · next h =>
        refine ih _ _ fun c hc => ?_
        cases hc
        exact h.2
    split
    · exact ih _ _ nofun
    · exact ih _ _ hquote

lemma IsMark.scanQuoteFrom (line : Bytes) : ∀ (escaped : Bool) (quote : Option UInt8),
    IsMark quote → IsMark (scanQuoteFrom escaped quote line) := by
  induction line with
  | nil => exact fun _ _ => id
  | cons char line ih =>
    intro escaped quote hquote
    rw [Config.scanQuoteFrom]
    split
    · exact ih _ _ hquote
    split
    · exact ih _ _ hquote
    split
    · next h =>
        refine ih _ _ fun c hc => ?_
        cases hc
        exact h.2
    split
    · exact ih _ _ nofun
    · exact ih _ _ hquote

lemma scanQuote_dropCR {quote : Option UInt8} (h : IsMark quote) (line : Bytes) :
    scanQuote (dropCR line) quote = scanQuote line quote := by
  rw [dropCR]
  split
  · next hcr =>
      obtain ⟨init, rfl⟩ := List.getLast?_eq_some_iff.mp hcr
      rw [List.dropLast_concat, scanQuote, scanQuote, scanQuoteFrom_concat init false quote h]
  · rfl

lemma isSkipped_congr {a b : Bytes} (h : trimSpace a = trimSpace b) : isSkipped a = isSkipped b := by
  rw [isSkipped, isSkipped, h]

/-- What starts as a record does not turn into a comment. -/
lemma not_isSkipped_append {first rest : Bytes} (h : ¬ isSkipped first) (hrest : Fresh rest) :
    ¬ isSkipped (first ++ rest) := by
  rw [isSkipped, Bool.or_eq_true, decide_eq_true_eq, decide_eq_true_eq, not_or] at h ⊢
  have hhead := head_trimSpace h.1 hrest
  refine ⟨fun hnil => h.1 ?_, by rw [hhead]; exact h.2⟩
  rw [hnil, List.head?_nil] at hhead
  exact List.head?_eq_none_iff.mp hhead.symm

/-- The end of a line: a line feed, or none at the end of the file. -/
def IsEnd (ending : Bytes) : Prop := ending = [10] ∨ ending = []

lemma chomp_append (hbody : 10 ∉ body) (h : IsEnd ending) : chomp (body ++ ending) = body := by
  rcases h with rfl | rfl
  · exact chomp_concat body
  · rw [List.append_nil, chomp_of_not_mem hbody]

lemma exists_unCR_line (hbody : 10 ∉ body) (h : IsEnd ending) :
    ∃ c, Blank spaces c ∧ unCR (body ++ ending) = dropCR body ++ c ∧ (ending = [10] → c = [10]) := by
  rcases h with rfl | rfl
  · exact ⟨[10], .of_mem (by decide), unCR_line hbody, id⟩
  · obtain ⟨c, hc, heq⟩ := exists_dropCR_chomp body
    rw [chomp_of_not_mem hbody] at heq
    refine ⟨c, hc, ?_, nofun⟩
    rw [List.append_nil, unCR_of_not_mem hbody, ← heq]

lemma isSkipped_line (h : IsEnd ending) (hbody : 10 ∉ body) :
    isSkipped (body ++ ending) = isSkipped (dropCR body) := by
  obtain ⟨c, hc, heq⟩ := exists_dropCR_chomp (body ++ ending)
  rw [chomp_append hbody h] at heq
  exact isSkipped_congr (by rw [heq, trimSpace_append_blank hc])

/-! ### The two readers side by side -/

/-- A record of the loader and the one of the editor it comes from. -/
def SameRecord (l e : Record) : Prop := l.1 = e.1 ∧ trimSpace l.2 = unCR (trimSpace e.2)

/-- Where the loader and the editor stand after a line that ends with a line feed. -/
structure Aligned (l e : Cursor) : Prop where
  quote : l.quote = e.quote
  mark : IsMark e.quote
  lineNumber : l.lineNumber = e.lineNumber
  idle : e.quote = none → l.current = [] ∧ e.current = []
  busy : e.quote ≠ none → l.current ≠ [] ∧ l.recordLine = e.recordLine
    ∧ l.current ++ [10] = unCR e.current ∧ e.current.getLast? = some 10
    ∧ ∃ first rest, ¬ isSkipped first ∧ e.current = first ++ 10 :: rest

/-- Where they stand after any line: the mark that is open is the same. -/
structure Alike (l e : Cursor) : Prop where
  quote : l.quote = e.quote
  left : (l.quote ≠ none ∨ l.current ≠ []) ↔ (e.quote ≠ none ∨ e.current ≠ [])

lemma Aligned.alike (h : Aligned l e) : Alike l e := by
  refine ⟨h.quote, ?_⟩
  rw [h.quote]
  by_cases hq : e.quote = none
  · obtain ⟨hl, he⟩ := h.idle hq
    simp [hq, hl, he]
  · simp [hq]

/-- The record of the loader after a line that it does not leave out. -/
def loadCurrent (current line : Bytes) : Bytes :=
  if current = [] then line else current ++ [10] ++ line

/-- What the two readers have of a record after a line that is not left out. -/
lemma Aligned.extend (h : Aligned l e) (hbody : 10 ∉ body) (hend : IsEnd ending)
    (hkept : e.quote = none → ¬ isSkipped (dropCR body)) : loadCurrent l.current (dropCR body) ≠ []
      ∧ ¬ isSkipped (e.current ++ (body ++ ending))
      ∧ (ending = [10] → ∃ first rest, ¬ isSkipped first
        ∧ e.current ++ (body ++ ending) = first ++ 10 :: rest)
      ∧ ∃ c, loadCurrent l.current (dropCR body) ++ c = unCR (e.current ++ (body ++ ending))
        ∧ Blank spaces c ∧ (ending = [10] → c = [10]) := by
  obtain ⟨c, hc, hline, hlf⟩ := exists_unCR_line hbody hend
  by_cases hq : e.quote = none
  · obtain ⟨hl, he⟩ := h.idle hq
    have hskip := hkept hq
    rw [he, List.nil_append, loadCurrent, if_pos hl]
    refine ⟨?_, ?_, ?_, c, hline.symm, hc, hlf⟩
    · rintro hnil
      rw [hnil] at hskip
      exact hskip (by decide)
    · rw [isSkipped_line hend hbody]
      exact hskip
    · rintro rfl
      refine ⟨body, [], ?_, rfl⟩
      have hsame := isSkipped_line (.inr rfl) hbody
      rw [List.append_nil] at hsame
      rw [hsame]
      exact hskip
  · obtain ⟨hne, -, hsame, hlast, first, rest, hfirst, heq⟩ := h.busy hq
    have hall : e.current ++ (body ++ ending) = first ++ 10 :: (rest ++ (body ++ ending)) := by
      rw [heq, List.append_assoc, List.cons_append]
    rw [loadCurrent, if_neg hne]
    refine ⟨by simp, ?_, fun _ => ⟨first, _, hfirst, hall⟩, c, ?_, hc, hlf⟩
    · rw [hall]
      exact not_isSkipped_append hfirst (by simp [Fresh, isTail])
    · rw [unCR_append fun hcr => absurd (hlast.symm.trans hcr) (by decide), ← hsame, hline,
        List.append_assoc]

/-- The records that a step of each of the readers completes. -/
def SameRecords (l e : List Record) : Prop :=
  List.Forall₂ SameRecord l (e.filter fun record => !isSkipped record.2)

/-- **One line**: the readers complete the same record, or the editor one that is left out. -/
lemma Aligned.step (h : Aligned l e) (hbody : 10 ∉ body) (hend : IsEnd ending)
    (hquiet : e.quote = none → isSkipped (body ++ ending) → scanQuote body none = none) :
    SameRecords (loadStep l (dropCR body)).2.toList (editStep e (body ++ ending)).2.toList
      ∧ Alike (loadStep l (dropCR body)).1 (editStep e (body ++ ending)).1
      ∧ (ending = [10] → Aligned (loadStep l (dropCR body)).1 (editStep e (body ++ ending)).1)
      ∧ (editStep e (body ++ ending)).1.quote = scanQuote body e.quote := by
  have hmark : IsMark (scanQuote body e.quote) := h.mark.scanQuoteFrom body false e.quote
  have hscan : scanQuote (dropCR body) l.quote = scanQuote body e.quote := by
    rw [h.quote, scanQuote_dropCR h.mark]
  by_cases hskip : e.quote = none ∧ isSkipped (dropCR body)
  · -- a blank line or a comment
    obtain ⟨hq, hskip⟩ := hskip
    obtain ⟨hl, he⟩ := h.idle hq
    have hline : isSkipped (body ++ ending) := by rw [isSkipped_line hend hbody]; exact hskip
    have hopen : scanQuote body e.quote = none := by rw [hq]; exact hquiet hq hline
    have haligned : Aligned (loadStep l (dropCR body)).1 (editStep e (body ++ ending)).1 := by
      rw [loadStep, if_pos ⟨hl, hskip⟩, editStep, Cursor.close, chomp_append hbody hend, hopen,
        if_neg (by simp)]
      refine ⟨h.quote.trans hq, nofun, by simp [h.lineNumber], fun _ => ⟨hl, rfl⟩, fun hne => ?_⟩
      exact absurd rfl hne
    refine ⟨?_, haligned.alike, fun _ => haligned, ?_⟩
    · rw [loadStep, if_pos ⟨hl, hskip⟩, editStep, Cursor.close, chomp_append hbody hend, hopen,
        if_neg (by simp), he, List.nil_append]
      simp [SameRecords, hline]
    · rw [editStep, Cursor.close, chomp_append hbody hend, hopen, if_neg (by simp)]
  · have hkept : e.quote = none → ¬ isSkipped (dropCR body) := fun hq hs => hskip ⟨hq, hs⟩
    obtain ⟨hne, hnot, hfirst, c, hsame, hc, hlf⟩ := h.extend hbody hend hkept
    have hload : ¬ (l.current = [] ∧ isSkipped (dropCR body)) := by
      rintro ⟨hl, hs⟩
      refine hkept ?_ hs
      by_contra hq
      exact (h.busy hq).1 hl
    have hline : (if l.current = [] then l.lineNumber + 1 else l.recordLine)
        = if e.current = [] then e.lineNumber + 1 else e.recordLine := by
      by_cases hq : e.quote = none
      · obtain ⟨hl, he⟩ := h.idle hq
        rw [if_pos hl, if_pos he, h.lineNumber]
      · obtain ⟨hln, hrecord, -, hlast, -⟩ := h.busy hq
        rw [if_neg hln, if_neg (by rintro heq; rw [heq] at hlast; cases hlast), hrecord]
    rw [loadStep, if_neg hload, editStep, chomp_append hbody hend, hscan]
    by_cases hopen : scanQuote body e.quote = none
    · -- the record is complete
      simp only [Cursor.close, hopen, ne_eq, not_true_eq_false, if_false]
      have haligned : Aligned
          { current := [], quote := none, lineNumber := l.lineNumber + 1
            recordLine := if l.current = [] then l.lineNumber + 1 else l.recordLine }
          { current := [], quote := none, lineNumber := e.lineNumber + 1
            recordLine := if e.current = [] then e.lineNumber + 1 else e.recordLine } :=
        ⟨rfl, nofun, by simp [h.lineNumber], fun _ => ⟨rfl, rfl⟩, fun hne => absurd rfl hne⟩
      refine ⟨?_, haligned.alike, fun _ => haligned, trivial⟩
      rw [SameRecords, Option.toList_some, Option.toList_some, List.filter_cons_of_pos (by simpa using hnot)]
      refine .cons ⟨hline, ?_⟩ .nil
      rw [← trimSpace_unCR, ← hsame, trimSpace_append_blank hc]
      rfl
    · -- it goes on
      simp only [Cursor.close, ne_eq, hopen, not_false_eq_true, if_true]
      refine ⟨.nil, ⟨rfl, by simp [hopen]⟩, fun hending => ?_, trivial⟩
      refine ⟨rfl, hmark, by simp [h.lineNumber], fun hq => absurd hq hopen, fun _ => ?_⟩
      refine ⟨hne, hline, ?_, ?_, hfirst hending⟩
      · rw [← hsame, hlf hending]
        rfl
      · simp [hending]

lemma SameRecords.append {l l' e e' : List Record} (h : SameRecords l e) (h' : SameRecords l' e') :
    SameRecords (l ++ l') (e ++ e') := by
  rw [SameRecords, List.filter_append]
  exact List.rel_append h h'

/-- What `quietComments` says of the first line. -/
lemma quiet_line {quote : Option UInt8} {lines : List Bytes} (hbody : 10 ∉ body)
    (hend : IsEnd ending) (h : quietComments quote ((body ++ ending) :: lines)) :
    (quote = none → isSkipped (body ++ ending) → scanQuote body none = none)
      ∧ quietComments (scanQuote body quote) lines := by
  rw [quietComments, chomp_append hbody hend, Bool.and_eq_true] at h
  refine ⟨fun hq hskip => ?_, h.2⟩
  simpa [hq, hskip] using h.1

/-- **The loader's records are the editor's** but for comments, white space and carriage returns. -/
lemma records_aligned (content : Bytes) (h : Aligned l e)
    (hquiet : quietComments e.quote (splitAfter content)) :
    SameRecords (records loadStep l ((splitAfter content).map (dropCR <| chomp ·))).1
        (records editStep e (splitAfter content)).1
      ∧ Alike (records loadStep l ((splitAfter content).map (dropCR <| chomp ·))).2
        (records editStep e (splitAfter content)).2 := by
  induction hn : content.length using Nat.strong_induction_on generalizing content l e with
  | _ n ih =>
    rcases line_cases content with hline | ⟨body, rest, hbody, rfl⟩
    · by_cases hnil : content = []
      · subst hnil
        exact ⟨.nil, h.alike⟩
      · -- the last line has no end
        rw [(splitAfter_line hline).1 hnil] at hquiet ⊢
        have hend : IsEnd [] := .inr rfl
        have hquiet' := (quiet_line hline hend (by rwa [List.append_nil])).1
        obtain ⟨hrecords, halike, -, -⟩ := h.step hline hend hquiet'
        rw [List.append_nil] at hrecords halike
        rw [List.map_singleton, chomp_of_not_mem hline]
        exact ⟨hrecords.append .nil, halike⟩
    · rw [(splitAfter_line hbody).2 rest] at hquiet ⊢
      have hend : IsEnd [10] := .inl rfl
      obtain ⟨hfirst, hlater⟩ := quiet_line hbody hend hquiet
      obtain ⟨hrecords, -, haligned, hquote⟩ := h.step hbody hend hfirst
      rw [← hquote] at hlater
      have hshort : rest.length < n := by
        rw [← hn, List.length_append, List.length_cons]
        omega
      obtain ⟨hrest, halike⟩ := ih _ hshort rest (haligned rfl) hlater rfl
      rw [List.map_cons, chomp_concat]
      exact ⟨hrecords.append hrest, halike⟩

/-! ### What they make of their records -/

section Readers

variable (known : Bytes → Bool)

/-- White space around a record does not matter. -/
lemma applyRecord_congr {a b : Bytes} (h : trimSpace a = trimSpace b) (s : Scope) :
    applyRecord known a s = applyRecord known b s := by
  rw [applyRecord, applyRecordRetired, applyRecordRetired, h]

lemma applyRecord_trimSpace (record : Bytes) (s : Scope) :
    applyRecord known (trimSpace record) s = applyRecord known record s :=
  applyRecord_congr known (trimSpace_trimSpace record) s

/-- The readers have the same settings and the same assignments. -/
def SameState (loaded : Loaded) (state : Environment × List PersistentAssignment) : Prop :=
  loaded.values = state.1 ∧ loaded.assignments = state.2.map (·.assignment)

lemma loadRecord_agrees (source path : Bytes) {loaded : Loaded}
    {state : Environment × List PersistentAssignment} (hstate : SameState loaded state)
    {l e : Record} (hrecord : SameRecord l e) (hends : unCR (trimSpace e.2) = trimSpace e.2)
    (hkept : ¬ isSkipped e.2) :
    Agree SameState (loadRecord known isRetiredSetting source loaded l)
      (parseRecord known path state e) := by
  have hsame : applyRecord known (trimSpace e.2) { values := state.1 }
      = applyRecordRetired known isRetiredSetting l.2 { values := loaded.values } := by
    rw [applyRecord_trimSpace, hstate.1]
    exact applyRecord_congr known (hrecord.2.trans hends).symm _
  rw [loadRecord, parseRecord, if_neg hkept, applyPersistent, hsame]
  cases applyRecordRetired known isRetiredSetting l.2 { values := loaded.values } with
  | error cause => exact .error
  | ok s =>
    refine .ok ⟨rfl, ?_⟩
    rw [List.map_append, ← hstate.2, persistentAssignments, List.map_map, hrecord.1]
    rfl

/-- The two readers from the beginning of a file. -/
lemma aligned_start : Aligned {} {} := ⟨rfl, nofun, rfl, fun _ => ⟨rfl, rfl⟩, fun h => absurd rfl h⟩

lemma scanLines_of_short {content : Bytes} (h : ShortLines content) :
    scanLines content = (splitAfter content).map (dropCR <| chomp ·) := by
  have hall : (splitAfter content).takeWhile (fun line => (chomp line).length < maxLine)
      = splitAfter content :=
    List.takeWhile_eq_self_iff.mpr fun line hline => decide_eq_true (h line hline)
  rw [scanLines, hall]

/-- The loader and the editor's loop succeed together. -/
lemma readers_agree (path source content : Bytes) (hlines : ShortLines content)
    (hquiet : quietComments none (splitAfter content))
    (hends : ∀ record ∈ (records editStep {} (splitAfter content)).1,
      ¬ [13, 10] <:+: trimSpace record.2) :
    Agree SameState (applyEnvReaderObserved known source content fun _ => none)
      (readRecords known (parseRecord known path) path content (fun _ => none, [])) := by
  obtain ⟨hrecords, halike⟩ := records_aligned content aligned_start hquiet
  have hkept : List.Forall₂ (fun e l => (unCR (trimSpace e.2) = trimSpace e.2 ∧ ¬ isSkipped e.2)
        ∧ SameRecord l e)
      ((records editStep {} (splitAfter content)).1.filter fun record => !isSkipped record.2)
      (records loadStep {} (scanLines content)).1 := by
    rw [List.forall₂_and_left, scanLines_of_short hlines]
    refine ⟨fun e he => ?_, hrecords.flip⟩
    obtain ⟨hmem, hskip⟩ := List.mem_filter.mp he
    exact ⟨unCR_eq_self (hends e hmem), by simpa using hskip⟩
  have hinit : SameState { values := discardRetiredSettings fun _ => none } (fun _ => none, []) := by
    refine ⟨funext fun name => ?_, rfl⟩
    show (if isRetiredSetting name then none else none) = none
    split <;> rfl
  have hloop := Agree.foldlM (fun loaded state l e hstate hrecord =>
    loadRecord_agrees known source path hstate hrecord.2 hrecord.1.1 hrecord.1.2) hkept.flip hinit
  rw [← foldlM_filter (fun state e hskip => by
    rw [parseRecord, if_pos (by simpa using hskip)]; rfl)] at hloop
  refine hloop.bind fun loaded state hstate => ?_
  rw [refuse, if_neg (not_not.mpr hlines), scanLines_of_short hlines]
  exact (Agree.refuse halike.left).bind fun _ _ _ => .ok hstate

end Readers

/-- A file with a comment, a value over two lines and a carriage return at the end of a record. -/
def plainFile : Bytes := str "# a comment\nA='x\ny'\r\nB=$A\n"

end Subyard.Config
