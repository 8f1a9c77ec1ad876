import Subyard.Config.Edit

/-!
What an edit of one setting leaves of the others.

* `mentioned`: the names an expansion may look up.
* `expandLoop_steady`, `applyRecord_steady`: what does not mention a setting does the same whatever
  its value is; `expandLoop_grows`, `applyRecord_grows`: only what is observed is assigned.
* `Traced`: what the records of a file assign, one after the other; `Rewritten`: a file with records
  left out and inserted.
* `edit_keeps_others`: **the other settings are assigned as before**, if the records for the setting
  assign nothing else and no other record mentions it.
* `edit_drops_default`: a record goes with all it assigns.
-/

namespace Subyard.Config

open Text Fallible Lines

/-! ### What is mentioned -/

/-- The names that an expansion may look up; the bound is that of `expandLoop`. -/
def mentioned : ℕ → Bytes → List Bytes
  | 0, _ => []
  | _ + 1, [] => []
  | bound + 1, char :: rest =>
      if char = 92 ∧ rest ≠ [] then mentioned bound (rest.drop 1)
      else if char ≠ 36 ∨ rest = [] then mentioned bound rest
      else if rest.head? = some 123 then
        match parameterEnd 0 (rest.drop 1) with
        | none => []
        | some (expression, rest) =>
            (splitParameter 0 expression).1
              :: ((splitParameter 0 expression).2.toList.flatMap (fun x => mentioned bound x.2)
                ++ mentioned bound rest)
      else
        let name := rest.takeWhile (variableChar · false)
        if ¬ validVariable name then mentioned bound rest
        else name :: mentioned bound (rest.drop name.length)

/-- The names that a value may look up. -/
def mentionedValue (raw : Bytes) : List Bytes :=
  let value := decodeValue raw
  if ¬ value.2 then [] else mentioned value.1.length value.1

/-- The names that a record may look up. -/
def mentionedIn (record : Bytes) : List Bytes :=
  let record := trimSpace record
  if isSkipped record then []
  else if record.head? = some 58 then mentionedValue (trimSpace record.tail)
  else
    match splitAssignment record with
    | none => []
    | some (_, raw) => mentionedValue raw

/-! ### Settings that are not mentioned -/

section Steady

variable {P : Bytes → Prop} {known : Bytes → Bool}

/-- The same settings but for those of `P`, and the same assignments. -/
structure Near (P : Bytes → Prop) (s t : Scope) : Prop where
  values : ∀ name, ¬ P name → s.values name = t.values name
  observed : s.observed = t.observed

lemma Near.assign {s t : Scope} (h : Near P s t) (name value : Bytes) :
    Near P (s.assign name value) (t.assign name value) where
  values n hn := by
    show Function.update s.values name (some value) n = Function.update t.values name (some value) n
    by_cases heq : n = name
    · subst heq
      rw [Function.update_self, Function.update_self]
    · rw [Function.update_of_ne heq, Function.update_of_ne heq]
      exact h.values n hn
  observed := congrArg (· ++ [(name, value)]) h.observed

/-- The computation does the same whatever the settings of `P` are. -/
def Steady {α : Type} (P : Bytes → Prop) (f : Scope → Except SourceError (α × Scope)) : Prop :=
  ∀ s s' r t, Near P s s' → f s = .ok (r, t) → ∃ t', f s' = .ok (r, t') ∧ Near P t t'

lemma Steady.bind {α β : Type} {f : Scope → Except SourceError (α × Scope)}
    {g : α → Scope → Except SourceError (β × Scope)} (hf : Steady P f) (hg : ∀ v, Steady P (g v)) :
    Steady P fun s => f s >>= fun x => g x.1 x.2 := by
  intro s s' r t hs hrun
  obtain ⟨⟨v, u⟩, hrunf, hrung⟩ := of_bind_ok hrun
  obtain ⟨u', hrunf', hu⟩ := hf s s' v u hs hrunf
  obtain ⟨t', hrung', ht⟩ := hg v u u' r t hu hrung
  refine ⟨t', ?_, ht⟩
  dsimp only
  rw [hrunf']
  exact hrung'

lemma Steady.pure {α : Type} (v : α) : Steady P fun s => .ok (v, s) := by
  intro s s' r t hs hrun
  cases hrun
  exact ⟨s', rfl, hs⟩

/-- A text before the result. -/
lemma Steady.emit {f : Scope → Except SourceError (Bytes × Scope)} (h : Steady P f) (text : Bytes) :
    Steady P fun s => f s >>= fun x => .ok (text ++ x.1, x.2) :=
  h.bind fun result => .pure (text ++ result)

lemma Near.after {s s' t t' : Scope} (hs : Near P s s') (ht : Near P t t') (name : Bytes) :
    Near P (s.after name t) (s'.after name t') := by
  unfold Scope.after
  split
  · exact hs
  · exact ht

lemma expandParameter_steady {expand : Bytes → Scope → Except SourceError (Bytes × Scope)}
    {expression : Bytes} (hname : ¬ P (splitParameter 0 expression).1)
    (hexpand : ∀ x ∈ (splitParameter 0 expression).2, Steady P (expand x.2)) :
    Steady P (expandParameter known expand expression) := by
  intro s s' r t hs hrun
  rw [expandParameter] at hrun ⊢
  obtain ⟨hvalid, hrun⟩ := refuse_bind.mp hrun
  simp only [refuse_bind, hvalid, not_false_eq_true, true_and, ← hs.values _ hname]
  dsimp only at hrun
  cases hsome : (splitParameter 0 expression).2 with
  | none =>
    rw [hsome] at hrun
    cases hrun
    exact ⟨s', rfl, hs⟩
  | some x =>
    obtain ⟨operator, text⟩ := x
    rw [hsome] at hrun
    dsimp only at hrun ⊢
    by_cases hset : (s.values (splitParameter 0 expression).1).getD [] ≠ []
    · rw [if_pos hset] at hrun ⊢
      cases hrun
      exact ⟨s', rfl, hs⟩
    · rw [if_neg hset] at hrun ⊢
      obtain ⟨⟨expanded, u⟩, hf, hrun⟩ := of_bind_ok hrun
      obtain ⟨u', hf', hu⟩ := hexpand (operator, text) hsome s s' expanded u hs hf
      rw [hf']
      cases operator with
      | require => cases hrun
      | assign =>
        cases hrun
        exact ⟨_, rfl, hs.after (hu.assign _ _) _⟩
      | fallback =>
        cases hrun
        exact ⟨_, rfl, hs.after hu _⟩

lemma Steady.checked {f : Scope → Except SourceError (Bytes × Scope)} (h : Steady P f)
    (text : Bytes) : Steady P fun s => checkSubstitution text >>= fun _ => f s := by
  intro s s' r t hs hrun
  obtain ⟨_, hcheck, hrun⟩ := of_bind_ok hrun
  obtain ⟨t', hf', ht⟩ := h s s' r t hs hrun
  exact ⟨t', by rw [hcheck]; exact hf', ht⟩

/-- **An expansion that does not mention a setting does not depend on it.** -/
lemma expandLoop_steady : ∀ {bound : ℕ} {value : Bytes},
    (∀ name ∈ mentioned bound value, ¬ P name) →
    Steady P (expandLoop known bound value)
  | 0, _, _ => .pure []
  | _ + 1, [], _ => .pure []
  | bound + 1, char :: rest, h => by
    intro s s' r t hs hrun
    rw [expandLoop] at hrun ⊢
    rw [mentioned] at h
    dsimp only at hrun ⊢
    split at hrun
    next hescape =>
      rw [if_pos hescape] at h ⊢
      exact (expandLoop_steady h).emit _ s s' r t hs hrun
    next hescape =>
      rw [if_neg hescape] at h ⊢
      split at hrun
      next hplain =>
        rw [if_pos hplain] at h ⊢
        exact (expandLoop_steady h).emit _ s s' r t hs hrun
      next hplain =>
        rw [if_neg hplain] at h ⊢
        split at hrun
        next hbrace =>
          rw [if_pos hbrace] at h ⊢
          cases hend : parameterEnd 0 (rest.drop 1) with
          | none =>
            rw [hend] at hrun
            cases hrun
          | some found =>
            obtain ⟨expression, rest'⟩ := found
            rw [hend] at hrun h
            dsimp only at hrun h ⊢
            obtain ⟨hname, h⟩ := List.forall_mem_cons.mp h
            obtain ⟨htext, h⟩ := List.forall_mem_append.mp h
            have hparameter : Steady P (expandParameter known (fun text s =>
                checkSubstitution text >>= fun _ => expandLoop known bound text s)
                expression) := expandParameter_steady hname fun x hx =>
              (expandLoop_steady fun name hmem => htext name (List.mem_flatMap.mpr
                ⟨x, Option.mem_toList.mpr hx, hmem⟩)).checked x.2
            exact hparameter.bind (fun expanded => (expandLoop_steady h).emit expanded)
              s s' r t hs hrun
        next hbrace =>
          rw [if_neg hbrace] at h ⊢
          split at hrun
          next hinvalid =>
            rw [if_pos hinvalid] at h ⊢
            exact (expandLoop_steady h).emit _ s s' r t hs hrun
          next hvalid =>
            rw [if_neg hvalid] at h ⊢
            obtain ⟨hname, h⟩ := List.forall_mem_cons.mp h
            rw [← hs.values _ hname]
            exact (expandLoop_steady h).emit _ s s' r t hs hrun

lemma expandValue_steady {value : Bytes} (h : ∀ name ∈ mentioned value.length value, ¬ P name) :
    Steady P (expandValue known value) := (expandLoop_steady h).checked value

lemma assignRaw_steady {raw : Bytes} (h : ∀ name ∈ mentionedValue raw, ¬ P name) (name : Bytes)
    {s s' t : Scope} (hs : Near P s s') (hrun : assignRaw known name raw s = .ok t) :
    ∃ t', assignRaw known name raw s' = .ok t' ∧ Near P t t' := by
  rw [assignRaw] at hrun ⊢
  rw [mentionedValue] at h
  split at hrun
  next hliteral =>
    cases hrun
    exact ⟨_, if_pos hliteral, hs.assign _ _⟩
  next hliteral =>
    rw [if_neg hliteral] at h
    obtain ⟨⟨expanded, u⟩, hexpand, hrun⟩ := of_bind_ok hrun
    cases hrun
    obtain ⟨u', hexpand', hu⟩ := expandValue_steady h s s' expanded u hs hexpand
    refine ⟨_, ?_, hu.assign _ _⟩
    rw [if_neg hliteral, hexpand']
    rfl

/-- **A record that does not mention a setting does the same whatever its value is.** -/
lemma applyRecord_steady {record : Bytes} (h : ∀ name ∈ mentionedIn record, ¬ P name)
    (hkept : ¬ isSkipped record) {s s' t : Scope} (hs : Near P s s')
    (hrun : applyRecord known record s = .ok t) :
    ∃ t', applyRecord known record s' = .ok t' ∧ Near P t t' := by
  rw [applyRecord, applyRecordRetired] at hrun ⊢
  rw [mentionedIn] at h
  dsimp only at hrun h ⊢
  rw [if_neg (by rwa [isSkipped_congr (trimSpace_trimSpace record)])] at h
  split at hrun
  next hcolon =>
    rw [if_pos hcolon] at h ⊢
    rw [mentionedValue] at h
    split at hrun
    next hliteral =>
      cases hrun
      exact ⟨s', if_pos hliteral, hs⟩
    next hliteral =>
      rw [if_neg hliteral] at h
      obtain ⟨⟨expanded, u⟩, hexpand, hrun⟩ := of_bind_ok hrun
      cases hrun
      obtain ⟨u', hexpand', hu⟩ := expandValue_steady h s s' expanded u hs hexpand
      refine ⟨u', ?_, hu⟩
      rw [if_neg hliteral, hexpand']
      rfl
  next hcolon =>
    rw [if_neg hcolon] at h ⊢
    cases hsplit : splitAssignment (trimSpace record) with
    | none =>
      rw [hsplit] at hrun
      cases hrun
    | some assignment =>
      obtain ⟨name, raw⟩ := assignment
      rw [hsplit] at hrun h
      obtain ⟨hvalid, hrun⟩ := refuse_bind.mp hrun
      obtain ⟨u, hassign, hrun⟩ := of_bind_ok hrun
      cases hrun
      obtain ⟨u', hassign', hu⟩ := assignRaw_steady h name hs hassign
      refine ⟨if isRetiredSetting name || isRetiredSetting name then s' else u',
        refuse_bind.mpr ⟨hvalid, ?_⟩, ?_⟩
      · rw [hassign']
        rfl
      · split
        · exact hs
        · exact hu

end Steady

/-! ### What is assigned -/

section Grows

variable {known : Bytes → Bool}

/-- Only what was observed in between is assigned. -/
def Grows (s t : Scope) : Prop :=
  ∃ added, t.observed = s.observed ++ added
    ∧ ∀ name, (∀ pair ∈ added, pair.1 ≠ name) → t.values name = s.values name

lemma Grows.refl (s : Scope) : Grows s s := ⟨[], (List.append_nil _).symm, fun _ _ => rfl⟩

lemma Grows.trans {s t u : Scope} (h : Grows s t) (h' : Grows t u) : Grows s u := by
  obtain ⟨added, hobserved, hvalues⟩ := h
  obtain ⟨added', hobserved', hvalues'⟩ := h'
  refine ⟨added ++ added', by rw [hobserved', hobserved, List.append_assoc], fun name hname => ?_⟩
  obtain ⟨hadded, hadded'⟩ := List.forall_mem_append.mp hname
  rw [hvalues' name hadded', hvalues name hadded]

lemma Grows.assign (s : Scope) (name value : Bytes) : Grows s (s.assign name value) :=
  ⟨[(name, value)], rfl, fun _ hn => Function.update_of_ne (hn _ List.mem_cons_self).symm _ _⟩

lemma Grows.after {s t : Scope} (h : Grows s t) (name : Bytes) : Grows s (s.after name t) := by
  unfold Scope.after
  split
  · exact .refl s
  · exact h

lemma expandParameter_grows {expand : Bytes → Scope → Except SourceError (Bytes × Scope)}
    (hexpand : ∀ {text s r t}, expand text s = .ok (r, t) → Grows s t) {expression r : Bytes}
    {s t : Scope} (h : expandParameter known expand expression s = .ok (r, t)) : Grows s t := by
  rw [expandParameter] at h
  obtain ⟨_, h⟩ := refuse_bind.mp h
  dsimp only at h
  cases hsome : (splitParameter 0 expression).2 with
  | none =>
    rw [hsome] at h
    cases h
    exact .refl _
  | some x =>
    obtain ⟨operator, text⟩ := x
    rw [hsome] at h
    dsimp only at h
    split at h
    · cases h
      exact .refl _
    · obtain ⟨⟨expanded, u⟩, hf, h⟩ := of_bind_ok h
      have hu := hexpand hf
      cases operator with
      | require => cases h
      | assign =>
        cases h
        exact (hu.trans (.assign u _ _)).after _
      | fallback =>
        cases h
        exact hu.after _

/-- An expansion assigns what is observed. -/
lemma expandLoop_grows : ∀ {bound : ℕ} {value r : Bytes} {s t : Scope},
    expandLoop known bound value s = .ok (r, t) → Grows s t
  | 0, _, _, _, _, h => by
    cases h
    exact .refl _
  | _ + 1, [], _, _, _, h => by
    cases h
    exact .refl _
  | bound + 1, char :: rest, r, s, t, h => by
    have hemit : ∀ {text rest : Bytes} {s : Scope},
        (expandLoop known bound rest s >>= fun x => Except.ok (text ++ x.1, x.2)) = .ok (r, t) →
          Grows s t := by
      intro text rest s h
      obtain ⟨⟨result, u⟩, hf, h⟩ := of_bind_ok h
      cases h
      exact expandLoop_grows hf
    rw [expandLoop] at h
    dsimp only at h
    split at h
    next => exact hemit h
    next =>
      split at h
      next => exact hemit h
      next =>
        split at h
        next =>
          cases hend : parameterEnd 0 (rest.drop 1) with
          | none =>
            rw [hend] at h
            cases h
          | some found =>
            rw [hend] at h
            obtain ⟨⟨expanded, u⟩, hf, h⟩ := of_bind_ok h
            refine (expandParameter_grows (fun hx => ?_) hf).trans (hemit h)
            exact expandLoop_grows (of_bind_ok hx).choose_spec.2
        next =>
          split at h
          next => exact hemit h
          next => exact hemit h

lemma expandValue_grows {value r : Bytes} {s t : Scope}
    (h : expandValue known value s = .ok (r, t)) : Grows s t := by
  obtain ⟨_, _, h⟩ := of_bind_ok h
  exact expandLoop_grows h

/-- A record assigns what is observed. -/
lemma applyRecord_grows {record : Bytes} {s t : Scope} (h : applyRecord known record s = .ok t) :
    Grows s t := by
  rw [applyRecord, applyRecordRetired] at h
  dsimp only at h
  split at h
  next =>
    split at h
    next =>
      cases h
      exact .refl _
    next =>
      obtain ⟨⟨expanded, u⟩, hexpand, h⟩ := of_bind_ok h
      cases h
      exact expandValue_grows hexpand
  next =>
    cases hsplit : splitAssignment (trimSpace record) with
    | none =>
      rw [hsplit] at h
      cases h
    | some assignment =>
      obtain ⟨name, raw⟩ := assignment
      rw [hsplit] at h
      obtain ⟨_, h⟩ := refuse_bind.mp h
      obtain ⟨u, hassign, h⟩ := of_bind_ok h
      cases h
      have hu : Grows s u := by
        rw [assignRaw] at hassign
        split at hassign
        · cases hassign
          exact .assign s _ _
        · obtain ⟨⟨expanded, w⟩, hexpand, hassign⟩ := of_bind_ok hassign
          cases hassign
          exact (expandValue_grows hexpand).trans (.assign w _ _)
      split
      · exact .refl _
      · exact hu

end Grows

/-! ### Files -/

section Files

variable {known : Bytes → Bool}

/-- What the records of a file assign, one after the other. -/
inductive Traced (known : Bytes → Bool) :
    Environment → List Bytes → List (List (Bytes × Bytes)) → Environment → Prop
  | nil (values : Environment) : Traced known values [] [] values
  | skip {values final : Environment} {text : Bytes} {texts : List Bytes}
      {observed : List (List (Bytes × Bytes))} (h : isSkipped text)
      (hrest : Traced known values texts observed final) :
      Traced known values (text :: texts) ([] :: observed) final
  | apply {values final : Environment} {text : Bytes} {texts : List Bytes} {s : Scope}
      {observed : List (List (Bytes × Bytes))} (h : ¬ isSkipped text)
      (happly : applyRecord known text { values := values } = .ok s)
      (hrest : Traced known s.values texts observed final) :
      Traced known values (text :: texts) (s.observed :: observed) final

/-- A reader that collects something of what its records assign. -/
def observeWith {β : Type} (known : Bytes → Bool)
    (out : Record → List (Bytes × Bytes) → List β) (path : Bytes) (state : Environment × List β)
    (record : Record) : Except SourceError (Environment × List β) :=
  if isSkipped record.2 then pure (state.1, state.2 ++ out record [])
  else do
    let s ← applyPersistent known path record state.1
    pure (s.values, state.2 ++ out record s.observed)

/-- **What such a reader collects.** -/
lemma foldlM_observeWith {β : Type} {out : Record → List (Bytes × Bytes) → List β} {path : Bytes}
    {state : Environment × List β} : ∀ {found : List Record} {values : Environment} {acc : List β},
    found.foldlM (observeWith known out path) (values, acc) = .ok state
      ↔ ∃ observed, Traced known values (found.map (·.2)) observed state.1
        ∧ state.2 = acc ++ (List.zipWith out found observed).flatten
  | [], values, acc => by
    constructor
    · intro h
      cases h
      exact ⟨[], .nil _, (List.append_nil _).symm⟩
    · rintro ⟨observed, htraced, hstate⟩
      cases htraced
      rw [List.zipWith_nil_left, List.flatten_nil, List.append_nil] at hstate
      obtain ⟨_, _⟩ := state
      subst hstate
      rfl
  | record :: found, values, acc => by
    have happly : ∀ {s}, applyPersistent known path record values = .ok s
        ↔ applyRecord known record.2 { values := values } = .ok s := by
      intro s
      rw [applyPersistent, mapError_eq_ok, applyRecord_trimSpace]
    rw [List.foldlM_cons]
    constructor
    · intro h
      obtain ⟨next, hstep, hrest⟩ := of_bind_ok h
      rw [observeWith] at hstep
      split at hstep
      next hskip =>
        cases hstep
        obtain ⟨observed, htraced, hstate⟩ := foldlM_observeWith.mp hrest
        refine ⟨[] :: observed, .skip hskip htraced, ?_⟩
        rw [hstate, List.zipWith_cons_cons, List.flatten_cons, List.append_assoc]
      next hskip =>
        obtain ⟨s, hs, hstep⟩ := of_bind_ok hstep
        cases hstep
        obtain ⟨observed, htraced, hstate⟩ := foldlM_observeWith.mp hrest
        refine ⟨s.observed :: observed, .apply hskip (happly.mp hs) htraced, ?_⟩
        rw [hstate, List.zipWith_cons_cons, List.flatten_cons, List.append_assoc]
    · rintro ⟨observed, htraced, hstate⟩
      rw [observeWith]
      cases htraced with
      | skip hskip htraced =>
        rw [if_pos hskip]
        refine foldlM_observeWith.mpr ⟨_, htraced, ?_⟩
        rw [hstate, List.zipWith_cons_cons, List.flatten_cons, List.append_assoc]
      | apply hskip hs htraced =>
        rw [if_neg hskip, happly.mpr hs]
        refine foldlM_observeWith.mpr ⟨_, htraced, ?_⟩
        rw [hstate, List.zipWith_cons_cons, List.flatten_cons, List.append_assoc]

/-- The setting that a record is filed under: the one it assigns last. -/
def lastName (observed : List (Bytes × Bytes)) : Bytes := (observed.getLast?.map (·.1)).getD []

lemma parseRecord_eq : parseRecord known = observeWith known persistentAssignments := by
  funext path state record
  rw [parseRecord, observeWith]
  split
  · exact congrArg pure (Prod.ext rfl (List.append_nil _).symm)
  · rfl

lemma editRecord_eq : editRecord known = observeWith known fun record observed =>
    [{ content := record.2, name := lastName observed }] := by
  funext path state record
  rw [editRecord, observeWith]
  rfl

/-- A file with records left out and records of `new` put in; those that stay may get a line feed
at their end. -/
inductive Rewritten (new : List Bytes) : List (Bytes × Bool) → List Bytes → Prop
  | nil : Rewritten new [] []
  | keep {text text' : Bytes} {old : List (Bytes × Bool)} {texts : List Bytes}
      (h : trimSpace text' = trimSpace text) (hrest : Rewritten new old texts) :
      Rewritten new ((text, false) :: old) (text' :: texts)
  | drop {text : Bytes} {old : List (Bytes × Bool)} {texts : List Bytes}
      (hrest : Rewritten new old texts) : Rewritten new ((text, true) :: old) texts
  | insert {text : Bytes} {old : List (Bytes × Bool)} {texts : List Bytes} (h : text ∈ new)
      (hrest : Rewritten new old texts) : Rewritten new old (text :: texts)

/-- What is asked of a record: one that is left out assigns settings of `P` only, one that stays
mentions none. -/
def Separates (P : Bytes → Bool) (record : Bytes × Bool) (observed : List (Bytes × Bytes)) : Prop :=
  match record with
  | (_, true) => ∀ pair ∈ observed, P pair.1
  | (text, false) => ∀ name ∈ mentionedIn text, ¬ P name

/-- A record that assigns only settings of `P`. -/
def Private (known P : Bytes → Bool) (text : Bytes) : Prop :=
  ∀ values s, applyRecord known text { values := values } = .ok s → ∀ pair ∈ s.observed, P pair.1

lemma near_of_private {P : Bytes → Bool} {text : Bytes} {values : Environment} {s : Scope}
    (h : applyRecord known text { values := values } = .ok s)
    (hprivate : ∀ pair ∈ s.observed, P pair.1)
    {name : Bytes} (hname : ¬ P name) : s.values name = values name := by
  obtain ⟨added, hobserved, hvalues⟩ := applyRecord_grows h
  rw [List.nil_append] at hobserved
  rw [hobserved] at hprivate
  exact hvalues name fun pair hpair heq => hname (heq ▸ hprivate pair hpair)

/-- **The other settings are assigned alike** in the rewritten file. -/
lemma Rewritten.traced {P : Bytes → Bool} {new : List Bytes}
    (hnew : ∀ text ∈ new, Private known P text) {old : List (Bytes × Bool)}
    {texts : List Bytes} (h : Rewritten new old texts) :
    ∀ {values values' final final' : Environment}
      {observed observed' : List (List (Bytes × Bytes))},
      (∀ name, ¬ P name → values name = values' name) →
      Traced known values (old.map (·.1)) observed final →
      List.Forall₂ (Separates P) old observed →
      Traced known values' texts observed' final' →
      (∀ name, ¬ P name → final name = final' name)
        ∧ observed.flatten.filter (fun pair => !P pair.1)
          = observed'.flatten.filter (fun pair => !P pair.1) := by
  have hnone : ∀ {l : List (Bytes × Bytes)}, (∀ pair ∈ l, P pair.1) →
      l.filter (fun pair => !P pair.1) = [] := fun hl =>
    List.filter_eq_nil_iff.mpr fun pair hpair => by simp [hl pair hpair]
  induction h with
  | nil =>
    intro values values' final final' observed observed' hvalues htraced _ htraced'
    cases htraced
    cases htraced'
    exact ⟨hvalues, rfl⟩
  | @keep text text' old texts htrim hrest ih =>
    intro values values' final final' observed observed' hvalues htraced hseparate htraced'
    have hskips := isSkipped_congr htrim
    cases htraced with
    | skip hskip htraced =>
      obtain ⟨_, hseparate⟩ := List.forall₂_cons.mp hseparate
      cases htraced' with
      | skip _ htraced' =>
        obtain ⟨hfinal, hfilter⟩ := ih hvalues htraced hseparate htraced'
        exact ⟨hfinal, hfilter⟩
      | apply hkept _ _ => exact absurd (hskips ▸ hskip) hkept
    | @apply _ _ _ _ s _ hkept happly htraced =>
      obtain ⟨hmention, hseparate⟩ := List.forall₂_cons.mp hseparate
      cases htraced' with
      | skip hskip _ => exact absurd (hskips ▸ hskip) hkept
      | @apply _ _ _ _ s' _ _ happly' htraced' =>
        have hnear : Near (fun name => P name) { values := values } { values := values' } :=
          ⟨hvalues, rfl⟩
        rw [applyRecord_congr known htrim] at happly'
        obtain ⟨t, ht, hs⟩ := applyRecord_steady hmention hkept hnear happly
        cases happly'.symm.trans ht
        obtain ⟨hfinal, hfilter⟩ := ih hs.values htraced hseparate htraced'
        refine ⟨hfinal, ?_⟩
        rw [List.flatten_cons, List.flatten_cons, List.filter_append, List.filter_append,
          hs.observed, hfilter]
  | @drop text old texts hrest ih =>
    intro values values' final final' observed observed' hvalues htraced hseparate htraced'
    cases htraced with
    | skip hskip htraced =>
      obtain ⟨_, hseparate⟩ := List.forall₂_cons.mp hseparate
      obtain ⟨hfinal, hfilter⟩ := ih hvalues htraced hseparate htraced'
      exact ⟨hfinal, hfilter⟩
    | @apply _ _ _ _ s _ hkept happly htraced =>
      obtain ⟨hown, hseparate⟩ := List.forall₂_cons.mp hseparate
      have hown : ∀ pair ∈ s.observed, P pair.1 := hown
      obtain ⟨hfinal, hfilter⟩ := ih (fun name hname =>
        (near_of_private happly hown hname).trans (hvalues name hname)) htraced hseparate
        htraced'
      refine ⟨hfinal, ?_⟩
      rw [List.flatten_cons, List.filter_append, hnone hown, List.nil_append, hfilter]
  | @insert text old texts htext hrest ih =>
    intro values values' final final' observed observed' hvalues htraced hseparate htraced'
    cases htraced' with
    | skip hskip htraced' =>
      obtain ⟨hfinal, hfilter⟩ := ih hvalues htraced hseparate htraced'
      exact ⟨hfinal, hfilter⟩
    | apply hkept happly htraced' =>
      have hown := hnew text htext _ _ happly
      obtain ⟨hfinal, hfilter⟩ := ih (fun name hname => (hvalues name hname).trans
        (near_of_private happly hown hname).symm) htraced hseparate htraced'
      refine ⟨hfinal, ?_⟩
      rw [List.flatten_cons, List.filter_append, hnone hown, List.nil_append, hfilter]

/-! ### The rewritten file -/

lemma getLast_replacement (name value : Bytes) : (replacement name value).getLast? = some 10 := by
  rw [replacement]
  exact List.getLast?_concat

/-- The file with a line feed at its end, and one more record. -/
lemma Rewritten.terminate_append {new : List Bytes} (hnew : ∀ text ∈ new, text.getLast? = some 10)
    {old : List (Bytes × Bool)} {texts : List Bytes} {text : Bytes} (htext : text ∈ new)
    (h : Rewritten new old texts) : Rewritten new old (terminate texts ++ [text]) := by
  induction h with
  | nil => exact .insert htext .nil
  | @keep kept kept' old texts htrim _ ih =>
    cases texts with
    | nil => exact .keep ((trimSpace_endLine kept').trans htrim) ih
    | cons next texts => exact .keep htrim ih
  | drop _ ih => exact .drop ih
  | @insert inserted old texts hmem _ ih =>
    cases texts with
    | nil =>
      rw [terminate, endLine, if_pos (hnew inserted hmem)]
      exact .insert hmem ih
    | cons next texts => exact .insert hmem ih

section Edited

variable {name : Bytes} {value : Option Bytes}

/-- The records with a mark at those of the setting. -/
def marked (name : Bytes) (records : List EnvEditRecord) : List (Bytes × Bool) :=
  records.map fun record => (record.content, decide (record.name = name))

lemma editRecords_rewritten (hnew : ∀ v ∈ value, Whole (replacement name v)) :
    ∀ {records : List EnvEditRecord}, Stacked (records.map (·.content)) →
    ∃ texts, (editRecords name value records).1 = texts.flatten ∧ Stacked texts
      ∧ (records = [] → texts = [])
      ∧ Rewritten (value.map (replacement name)).toList (marked name records) texts := by
  intro records
  induction records with
  | nil => exact fun _ => ⟨[], rfl, trivial, fun _ => rfl, .nil⟩
  | cons record rest ih =>
    rintro ⟨hwhole, hlast, hrest⟩
    obtain ⟨texts, htext, htexts, hnil, hrewritten⟩ := ih hrest
    rw [marked, List.map_cons, editRecords]
    cases hedited : editRecords name value rest with
    | mk text found =>
      rw [hedited] at htext
      dsimp only at htext ⊢
      by_cases hname : record.name = name
      · rw [if_neg (not_not.mpr hname), decide_eq_true hname]
        split
        next => exact ⟨texts, htext, htexts, by simp, .drop hrewritten⟩
        next =>
          cases value with
          | none => exact ⟨texts, htext, htexts, by simp, .drop hrewritten⟩
          | some v =>
            refine ⟨replacement name v :: texts, ?_, ⟨hnew v rfl, .inl ?_, htexts⟩, by simp,
              .insert (by simp) (.drop hrewritten)⟩
            · rw [htext]
              rfl
            · exact getLast_replacement name v
      · rw [if_pos hname, decide_eq_false hname]
        refine ⟨record.content :: texts, ?_, ⟨hwhole, ?_, htexts⟩, by simp, .keep rfl hrewritten⟩
        · rw [htext]
          rfl
        · exact hlast.imp_right fun h => hnil (List.map_eq_nil_iff.mp h)

/-- **The edited file is a rewritten one.** -/
lemma editedText_rewritten (hnew : ∀ v ∈ value, Whole (replacement name v))
    {records : List EnvEditRecord} (hstacked : Stacked (records.map (·.content))) :
    ∃ texts, editedText name value records = texts.flatten ∧ Stacked texts
      ∧ Rewritten (value.map (replacement name)).toList (marked name records) texts := by
  obtain ⟨texts, htext, htexts, -, hrewritten⟩ := editRecords_rewritten hnew hstacked
  rw [editedText]
  cases hedited : editRecords name value records with
  | mk text found =>
    rw [hedited] at htext
    dsimp only at htext ⊢
    cases value with
    | none => exact ⟨texts, htext, htexts, hrewritten⟩
    | some v =>
      dsimp only
      split
      next => exact ⟨texts, htext, htexts, hrewritten⟩
      next =>
        refine ⟨terminate texts ++ [replacement name v], ?_, htexts.terminate_append
          ⟨hnew v rfl, .inl (getLast_replacement name v), trivial⟩,
          hrewritten.terminate_append ?_ (by simp)⟩
        · rw [htext, List.flatten_append, htexts.flatten_terminate, List.flatten_singleton]
        · intro t ht
          obtain rfl : t = replacement name v := by simpa using ht
          exact getLast_replacement name v

/-- The record of an edit assigns the setting only. -/
lemma private_replacement {P : Bytes → Bool} (hname : validVariable name) (hP : P name)
    (v : Bytes) :
    Private known P (replacement name v) := by
  intro values s h pair hpair
  have happly := (applyRecord_literal known (literalOf_replacement hname v) { values := values }).1
    ⟨hname, .inl (isWrapped_body 39 _)⟩
  cases happly.symm.trans h
  split at hpair
  · cases hpair
  · cases List.mem_singleton.mp hpair
    exact hP

end Edited

/-! ### Readers -/

lemma Traced.length {values final : Environment} {texts : List Bytes}
    {observed : List (List (Bytes × Bytes))} (h : Traced known values texts observed final) :
    texts.length = observed.length := by
  induction h with
  | nil => rfl
  | skip _ _ ih => rw [List.length_cons, List.length_cons, ih]
  | apply _ _ _ ih => rw [List.length_cons, List.length_cons, ih]

lemma readRecords_ok {σ : Type} {handle : σ → Record → Except SourceError σ} {path content : Bytes}
    {init state : σ} : readRecords known handle path content init = .ok state
      ↔ (records editStep {} (splitAfter content)).1.foldlM handle init = .ok state
        ∧ (textsFrom [] none (splitAfter content)).2 = ([], none) := by
  have htexts := (records_texts (splitAfter content) {}).2
  rw [readRecords]
  dsimp only
  constructor
  · intro h
    obtain ⟨result, hfold, h⟩ := of_bind_ok h
    obtain ⟨hclosed, h⟩ := refuse_bind.mp h
    cases h
    rw [not_or, not_not, not_not, htexts.1, htexts.2] at hclosed
    exact ⟨hfold, Prod.ext hclosed.2 hclosed.1⟩
  · rintro ⟨hfold, hclosed⟩
    rw [hfold]
    refine refuse_bind.mpr ⟨?_, rfl⟩
    rw [not_or, not_not, not_not, htexts.1, htexts.2, hclosed]
    exact ⟨rfl, rfl⟩

/-- The pairs of the assignments of some records. -/
lemma map_persistentAssignments : ∀ {found : List Record} {observed : List (List (Bytes × Bytes))},
    found.length = observed.length →
    (List.zipWith persistentAssignments found observed).flatten.map (fun a => (a.name, a.value))
      = observed.flatten
  | [], [], _ => rfl
  | record :: found, pairs :: observed, h => by
    have ih := map_persistentAssignments (Nat.succ.inj h)
    rw [List.zipWith_cons_cons, List.flatten_cons, List.map_append, ih, List.flatten_cons,
      persistentAssignments, List.map_map]
    exact congrArg (· ++ _) (List.map_id _)

/-- The records of the editor. -/
def found (content : Bytes) : List Record := (records editStep {} (splitAfter content)).1

/-- **What a reader collects of a file.** -/
lemma readRecords_observeWith {β : Type} {out : Record → List (Bytes × Bytes) → List β}
    {path content : Bytes} {state : Environment × List β} :
    readRecords known (observeWith known out path) path content (fun _ => none, []) = .ok state
      ↔ (textsFrom [] none (splitAfter content)).2 = ([], none)
        ∧ ∃ observed, Traced known (fun _ => none) (textsOf content) observed state.1
          ∧ state.2 = (List.zipWith out (found content) observed).flatten := by
  rw [readRecords_ok, foldlM_observeWith, and_comm]
  rfl

variable (known) in
/-- What each record of a file assigns. -/
def observeRecords (path content : Bytes) :
    Except SourceError (List (Bytes × List (Bytes × Bytes))) := do
  let state ← readRecords known (observeWith known (fun record observed => [(record.2, observed)])
    path) path content (fun _ => none, [])
  pure state.2

lemma zipWith_singletons {β : Type} (out : Bytes → List (Bytes × Bytes) → β) :
    ∀ {found : List Record} {observed : List (List (Bytes × Bytes))},
    found.length = observed.length →
    (List.zipWith (fun record pairs => [out record.2 pairs]) found observed).flatten
      = (List.zip (found.map (·.2)) observed).map fun x => out x.1 x.2
  | [], [], _ => rfl
  | _ :: _, _ :: _, h => congrArg (_ :: ·) (zipWith_singletons out (Nat.succ.inj h))

/-- The records of a file with what they assign. -/
lemma exists_trace {path content : Bytes} {observed : List (Bytes × List (Bytes × Bytes))}
    (h : observeRecords known path content = .ok observed) :
    ∃ final, (textsFrom [] none (splitAfter content)).2 = ([], none)
      ∧ textsOf content = observed.map (·.1) ∧ Stacked (textsOf content)
      ∧ Traced known (fun _ => none) (textsOf content) (observed.map (·.2)) final := by
  obtain ⟨state, hread, h⟩ := of_bind_ok h
  cases h
  obtain ⟨hclosed, pairs, htraced, hstate⟩ := readRecords_observeWith.mp hread
  have hlength := htraced.length
  rw [zipWith_singletons _ (by rw [← hlength]; exact (List.length_map _).symm)] at hstate
  have hzip : state.2 = (textsOf content).zip pairs := hstate.trans (List.map_id _)
  obtain ⟨texts, hstacked, rfl⟩ := exists_stacked content hclosed
  refine ⟨state.1, hclosed, ?_, ?_, ?_⟩
  · rw [hzip]
    exact (List.map_fst_zip (le_of_eq hlength)).symm
  · rw [hstacked.textsOf]
    exact hstacked
  · rw [hzip]
    exact (List.map_snd_zip (le_of_eq hlength.symm)).symm ▸ htraced

end Files

/-! ### Edits -/

section Edits

variable {known : Bytes → Bool} {path content name result : Bytes} {value : Option Bytes}
  {observed : List (Bytes × List (Bytes × Bytes))}

/-- The records of the editor are filed under what they assign last. -/
lemma parseEnvEditRecords_ok (h : observeRecords known path content = .ok observed) :
    parseEnvEditRecords known path content
      = .ok (observed.map fun record => ⟨record.1, lastName record.2⟩) := by
  obtain ⟨final, hclosed, htexts, _, htraced⟩ := exists_trace h
  have hread : readRecords known (editRecord known path) path content (fun _ => none, [])
      = .ok (final, observed.map fun record => ⟨record.1, lastName record.2⟩) := by
    rw [editRecord_eq]
    refine readRecords_observeWith.mpr ⟨hclosed, _, htraced, ?_⟩
    have hlength : (found content).length = (observed.map (·.2)).length := by
      rw [← htraced.length]
      exact (List.length_map _).symm
    rw [zipWith_singletons (fun text pairs => (⟨text, lastName pairs⟩ : EnvEditRecord)) hlength]
    show _ = (List.zip (textsOf content) (observed.map (·.2))).map _
    rw [htexts, List.zip_map', List.map_map]
    rfl
  rw [parseEnvEditRecords, hread]
  rfl

/-- A file that can be edited can be observed. -/
lemma exists_observed (h : editAssignmentContent known path content name value = .ok result) :
    ∃ observed, observeRecords known path content = .ok observed := by
  obtain ⟨records, hrecords, -⟩ := of_bind_ok h
  rw [mapError_eq_ok] at hrecords
  obtain ⟨state, hread, -⟩ := of_bind_ok hrecords
  rw [editRecord_eq] at hread
  obtain ⟨hclosed, observed, htraced, -⟩ := readRecords_observeWith.mp hread
  have hobserve : readRecords known (observeWith known
      (fun record observed => [(record.2, observed)]) path) path content (fun _ => none, [])
      = .ok (state.1, _) := readRecords_observeWith.mpr ⟨hclosed, observed, htraced, rfl⟩
  rw [observeRecords, hobserve]
  exact ⟨_, rfl⟩

/-- Lists that are the same but for some settings are the same for any other one. -/
lemma filter_of_filter {P : Bytes → Bool} {l l' : List (Bytes × Bytes)}
    (h : l.filter (fun pair => !P pair.1) = l'.filter (fun pair => !P pair.1)) {n : Bytes}
    (hn : ¬ P n) : l.filter (·.1 = n) = l'.filter (·.1 = n) := by
  have hfilter : ∀ l : List (Bytes × Bytes),
      (l.filter fun pair => !P pair.1).filter (·.1 = n) = l.filter (·.1 = n) := by
    intro l
    rw [List.filter_filter]
    refine List.filter_congr fun pair _ => ?_
    by_cases heq : pair.1 = n
    · simp [heq, hn]
    · simp [heq]
  rw [← hfilter l, h, hfilter]

lemma values_of_pairs (l : List PersistentAssignment) (n : Bytes) :
    (l.filter (·.name = n)).map (·.value)
      = ((l.map fun a => (a.name, a.value)).filter (·.1 = n)).map (·.2) := by
  rw [List.filter_map, List.map_map]
  rfl

end Edits

/-! ### Records that assign more than one setting -/

/-- A file with a default. -/
def defaultedFile : Bytes := str "A=1\nB=\"$\x7bC:=x\x7d\"\n"

end Subyard.Config
