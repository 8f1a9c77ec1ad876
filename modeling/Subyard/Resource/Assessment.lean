import Subyard.Library.Fallible
import Subyard.Library.JsonKeys
import Subyard.Library.Reorder
import Subyard.Operation.Plan

/-!
The reading of a resource handler's plan, `decodePrepareAssessment`.

The decoder of the standard library matches a key with a field without regard to case, and then
U+017F is an S; `strings.ToLower`, by which duplicate keys are looked for, leaves U+017F alone.

* `toLower`, `rejectRecursiveDuplicates`, `rejectDuplicateFields`: the search for duplicates.
* `documentTags`, `stepTags`: the fields that are read.
* `toLower_eq`: without U+017F the two foldings agree on the names that a field can have.
* `fields_single_source`: **then every field has one source**, and the order of keys is irrelevant.
* `long_s_hides_duplicate`: with it a field may be given twice.
-/

namespace Subyard.Resource

open Text Fallible Operation

/-! ### Duplicate keys -/

section

-- The lower case of the other characters outside the seven-bit range.
variable (lowerRune : Bytes → Bytes)

def lowerOctet (b : UInt8) : UInt8 := if isUpper b then b + 32 else b

/-- `unicode.ToLower`. -/
def lowerCharacter (character : Bytes) : Bytes :=
  match character with
  | [b] => [lowerOctet b]
  | [0xC5, 0xBF] => [0xC5, 0xBF]
  | [0xE2, 0x84, 0xAA] => [107]
  | _ => lowerRune character

/-- `strings.ToLower`, with `n` octets of the current character still to come. -/
def toLowerFrom : ℕ → Bytes → Bytes
  | _, [] => []
  | n + 1, _ :: rest => toLowerFrom n rest
  | 0, b :: rest =>
      match runeLength (b :: rest) with
      | none => replacement ++ toLowerFrom 0 rest
      | some n => lowerCharacter lowerRune ((b :: rest).take n) ++ toLowerFrom (n - 1) rest

def toLower (name : Bytes) : Bytes := toLowerFrom lowerRune 0 name

/-- `resourcePlanInvalid`. -/
def resourcePlanInvalid (message : String) (name : Bytes) : Bytes :=
  str "resource_plan_invalid: " ++ str message ++ name

mutual

/-- The function `read` of `rejectRecursiveDuplicates`. -/
def rejectRecursiveDuplicates : Json → Except Bytes Unit
  | .arr items => rejectItems items
  | .obj members => rejectMembers [] members
  | _ => .ok ()

def rejectItems : List Json → Except Bytes Unit
  | [] => .ok ()
  | item :: items => do
      rejectRecursiveDuplicates item
      rejectItems items

def rejectMembers (seen : List Bytes) : List (Bytes × Json) → Except Bytes Unit
  | [] => .ok ()
  | (name, value) :: members => do
      refuse (toLower lowerRune name ∈ seen)
        (resourcePlanInvalid "decode assessment: duplicate field " (Json.quote name))
      rejectRecursiveDuplicates value
      rejectMembers (toLower lowerRune name :: seen) members

end

def knownFields : List Bytes :=
  [str "schema", str "action", str "changed", str "consequences", str "steps", str "binding"]

/-- The loop of `rejectDuplicateFields`. -/
def rejectFields (seen : List Bytes) : List (Bytes × Json) → Except Bytes Unit
  | [] => .ok ()
  | (name, _) :: members => do
      refuse (toLower lowerRune name ∈ seen)
        (resourcePlanInvalid "prepare assessment has duplicate field " (Json.quote name))
      refuse (name ∉ knownFields)
        (resourcePlanInvalid "prepare assessment has unknown field " (Json.quote name))
      rejectFields (toLower lowerRune name :: seen) members

def rejectDuplicateFields : Json → Except Bytes Unit
  | .obj members => rejectFields lowerRune [] members
  | _ => .error (resourcePlanInvalid "prepare assessment must be a JSON object" [])

end

/-! ### Fields -/

def decisionText : StepDecision → Bytes
  | .apply => str "apply"
  | .skip => str "skip"
  | .conditional => str "conditional"
  | .other text => text

def decisionOf (text : Bytes) : StepDecision :=
  if text = str "apply" then .apply
  else if text = str "skip" then .skip
  else if text = str "conditional" then .conditional
  else .other text

def decisionFormat : Json.Format StepDecision where
  encode decision := .str (decisionText decision)
  decode old v := (Json.decodeStr (decisionText old) v).map decisionOf

/-- A list that is not told from an absent one. -/
def textsFormat : Json.Format (List Bytes) where
  encode texts := .arr (texts.map .str)
  decode old v := ((Json.Format.slice [] .text).decode (some old) v).map (·.getD [])

def flagFormat : Json.Format (Option Bool) := .pointer false ⟨.bool, Json.decodeBool⟩

def stepTags : List (Json.Tag OperationStep) :=
  [.of "id" (·.id) (fun s x => { s with id := x }) .text,
   .of "target" (·.target) (fun s x => { s with target := x }) .text,
   .of "observed" (·.observed) (fun s x => { s with observed := x }) .text,
   .of "desired" (·.desired) (fun s x => { s with desired := x }) .text,
   .of "decision" (·.decision) (fun s x => { s with decision := x }) decisionFormat,
   .omitEmpty "preconditions" (·.preconditions) (fun s x => { s with preconditions := x })
     (·.isEmpty) textsFormat,
   .omitEmpty "dependsOn" (·.dependsOn) (fun s x => { s with dependsOn := x })
     (·.isEmpty) textsFormat,
   .of "verify" (·.verify) (fun s x => { s with verify := x }) .text,
   .omitEmpty "consequence" (·.consequence) (fun s x => { s with consequence := x })
     (·.isEmpty) .text]

structure PrepareAssessmentDocument where
  schema : Bytes := []
  action : Bytes := []
  changed : Option Bool := none
  consequences : Option (List Bytes) := none
  steps : Option (List OperationStep) := none
  binding : Bytes := []
deriving DecidableEq

def documentTags : List (Json.Tag PrepareAssessmentDocument) :=
  [.of "schema" (·.schema) (fun d x => { d with schema := x }) .text,
   .of "action" (·.action) (fun d x => { d with action := x }) .text,
   .of "changed" (·.changed) (fun d x => { d with changed := x }) flagFormat,
   .of "consequences" (·.consequences) (fun d x => { d with consequences := x })
     (.slice [] .text),
   .omitEmpty "steps" (·.steps) (fun d x => { d with steps := x }) (·.isNone)
     (.slice ⟨[], [], [], [], .other [], [], [], [], []⟩ (.record stepTags)),
   .omitEmpty "binding" (·.binding) (fun d x => { d with binding := x }) (·.isEmpty) .text]

def prepareAssessmentSchema : Bytes := str "yard.resource-action-assessment.v1"

def prepareAssessmentSchemaV2 : Bytes := str "yard.resource-action-assessment.v2"

/-- The part of `decodePrepareAssessment` after the text is read.  The texts of errors of the
decoder are left out. -/
def decodeValue (lowerRune : Bytes → Bytes) (v : Json) (keys : List Bytes) :
    Except Bytes PrepareAssessmentDocument := do
  rejectRecursiveDuplicates lowerRune v
  rejectDuplicateFields lowerRune v
  match (Json.Format.record documentTags).decode {} v with
  | none => .error (resourcePlanInvalid "decode prepare assessment" [])
  | some document => do
      refuse (document.schema = prepareAssessmentSchema ∧ str "steps" ∈ keys)
        (resourcePlanInvalid "v1 does not support field \"steps\"" [])
      refuse (document.schema = prepareAssessmentSchema ∧ str "binding" ∈ keys)
        (resourcePlanInvalid "v1 does not support field \"binding\"" [])
      refuse (document.schema = prepareAssessmentSchemaV2 ∧ str "binding" ∈ keys
          ∧ document.binding = [])
        (resourcePlanInvalid "provided binding must be a lowercase SHA-256 digest" [])
      pure document

/-- The keys of the object that is the whole value. -/
def outerKeys : Json → List Bytes
  | .obj members => members.map Prod.fst
  | _ => []

def decodePrepareAssessment (lowerRune : Bytes → Bytes) (output : Bytes) :
    Except Bytes PrepareAssessmentDocument :=
  match Json.parse output with
  | none => .error (resourcePlanInvalid "decode assessment" [])
  | some v => decodeValue lowerRune v (outerKeys v)

/-! ### What is accepted -/

variable {lowerRune : Bytes → Bytes}

/-- The keys of an object differ, and not only in case. -/
def Distinct (lowerRune : Bytes → Bytes) (members : List (Bytes × Json)) : Prop :=
  (members.map fun x => toLower lowerRune x.1).Nodup

/-- A key that was seen does not come again. -/
lemma unseen_cons {members : List (Bytes × Json)} {name : Bytes} (value : Json)
    {seen : List Bytes} :
    (∀ x ∈ members, toLower lowerRune x.1 ∉ toLower lowerRune name :: seen)
        ∧ Distinct lowerRune members
      ↔ (∀ x ∈ members, toLower lowerRune x.1 ∉ seen)
        ∧ Distinct lowerRune ((name, value) :: members) := by
  simp only [Distinct, List.map_cons, List.nodup_cons, List.mem_map, List.mem_cons, not_or,
    not_exists, not_and]
  constructor
  · rintro ⟨h, hnodup⟩
    exact ⟨fun x hx => (h x hx).2, fun x hx => (h x hx).1, hnodup⟩
  · rintro ⟨hseen, hne, hnodup⟩
    exact ⟨fun x hx => ⟨hne x hx, hseen x hx⟩, hnodup⟩

lemma rejectItems_ok : ∀ {items : List Json}, rejectItems lowerRune items = .ok () ↔
    ∀ item ∈ items, rejectRecursiveDuplicates lowerRune item = .ok ()
  | [] => by simp [rejectItems]
  | item :: items => by rw [rejectItems, check_bind, rejectItems_ok, List.forall_mem_cons]

lemma rejectMembers_ok : ∀ {members : List (Bytes × Json)} {seen : List Bytes},
    rejectMembers lowerRune seen members = .ok () ↔
      ((∀ x ∈ members, toLower lowerRune x.1 ∉ seen) ∧ Distinct lowerRune members)
        ∧ ∀ x ∈ members, rejectRecursiveDuplicates lowerRune x.2 = .ok ()
  | [], _ => by simp [rejectMembers, Distinct]
  | (name, value) :: members, seen => by
    rw [rejectMembers, refuse_bind, check_bind, rejectMembers_ok, unseen_cons value,
      List.forall_mem_cons, List.forall_mem_cons]
    tauto

lemma distinct_of_reject {v : Json} (h : rejectRecursiveDuplicates lowerRune v = .ok ())
    {members : List (Bytes × Json)} (hobject : Json.HasObject members v) :
    Distinct lowerRune members := by
  induction hobject with
  | here =>
    rw [rejectRecursiveDuplicates, rejectMembers_ok] at h
    exact h.1.2
  | member hmem _ ih =>
    rw [rejectRecursiveDuplicates, rejectMembers_ok] at h
    exact ih (h.2 _ hmem)
  | item hmem _ ih =>
    rw [rejectRecursiveDuplicates, rejectItems_ok] at h
    exact ih (h _ hmem)

lemma reject_of_distinct : ∀ (v : Json),
    (∀ members, Json.HasObject members v → Distinct lowerRune members) →
    rejectRecursiveDuplicates lowerRune v = .ok ()
  | .arr items, h => by
    rw [rejectRecursiveDuplicates, rejectItems_ok]
    exact fun item hitem => reject_of_distinct item fun _ hm => h _ (.item hitem hm)
  | .obj members, h => by
    rw [rejectRecursiveDuplicates, rejectMembers_ok]
    exact ⟨⟨fun _ _ => List.not_mem_nil, h _ .here⟩,
      fun x hx => reject_of_distinct x.2 fun _ hm => h _ (.member hx hm)⟩
  | .null, _ | .bool _, _ | .num _, _ | .real _, _ | .str _, _ => rfl
termination_by v => sizeOf v
decreasing_by
  · have := List.sizeOf_lt_of_mem hitem
    simp
    omega
  · have hlt := List.sizeOf_lt_of_mem hx
    have hpair : sizeOf x.2 < sizeOf x := by
      cases x
      simp
    simp
    omega

lemma rejectFields_ok : ∀ {members : List (Bytes × Json)} {seen : List Bytes},
    rejectFields lowerRune seen members = .ok () ↔
      ((∀ x ∈ members, toLower lowerRune x.1 ∉ seen) ∧ Distinct lowerRune members)
        ∧ ∀ x ∈ members, x.1 ∈ knownFields
  | [], _ => by simp [rejectFields, Distinct]
  | (name, value) :: members, seen => by
    rw [rejectFields, refuse_bind, refuse_bind, rejectFields_ok, not_not,
      unseen_cons value, List.forall_mem_cons, List.forall_mem_cons]
    tauto

/-! ### Names of fields -/

/-- U+017F. -/
def longS : Bytes := [0xC5, 0xBF]

lemma lowerOctet_upper (b : UInt8) (h : (if isLower b then b - 32 else b) < 0x80) :
    b < 0x80 ∧ lowerOctet (if isLower b then b - 32 else b) = lowerOctet b := by
  revert h b
  exact forall_octet (by decide +kernel)

/-- Without U+017F the two foldings agree on names of seven-bit characters. -/
lemma toLower_eq {name : Bytes} (hascii : Ascii (Json.foldName name)) (h : ¬ longS <:+: name) :
    toLower lowerRune name = (Json.foldName name).map lowerOctet := by
  rw [toLower]
  induction name using Json.foldName.induct with
  | case1 rest ih => exact absurd (List.prefix_append longS rest).isInfix h
  | case2 rest ih =>
    have hrest := ih (fun b hb => hascii b (List.mem_cons_of_mem _ hb))
      fun hin => h (List.infix_cons (List.infix_cons (List.infix_cons hin)))
    show toLowerFrom lowerRune 0 (0xE2 :: 0x84 :: 0xAA :: rest) = 107 :: _
    rw [← hrest]
    rfl
  | case3 b rest h₁ h₂ ih =>
    rw [Json.foldName] at hascii ⊢
    · obtain ⟨hlt, hlower⟩ := lowerOctet_upper b (hascii _ List.mem_cons_self)
      have hrest := ih (fun c hc => hascii c (List.mem_cons_of_mem _ hc))
        fun hin => h (List.infix_cons hin)
      rw [List.map_cons, hlower, ← hrest, toLowerFrom, runeLength_of_lt hlt]
      rfl
    all_goals assumption
  | case4 => rfl

lemma ascii_foldName {name : Bytes} (h : Ascii name) : Ascii (Json.foldName name) := by
  induction name using Json.foldName.induct with
  | case1 rest ih => exact absurd (h 0xC5 List.mem_cons_self) (by decide)
  | case2 rest ih => exact absurd (h 0xE2 List.mem_cons_self) (by decide)
  | case3 b rest h₁ h₂ ih =>
    have hupper : ∀ b : UInt8, b < 0x80 → (if isLower b then b - 32 else b) < 0x80 :=
      forall_octet (by decide +kernel)
    rw [Json.foldName]
    · intro c hc
      rcases List.mem_cons.mp hc with rfl | hc
      · exact hupper b (h b List.mem_cons_self)
      · exact ih (fun c hc => h c (List.mem_cons_of_mem _ hc)) c hc
    all_goals assumption
  | case4 => exact h

/-- A key of an object of the value. -/
lemma hasKey_of_object {v : Json} {members : List (Bytes × Json)} (h : Json.HasObject members v)
    {x : Bytes × Json} (hx : x ∈ members) {p : Bytes → Prop} (hp : p x.1) : Json.HasKey p v := by
  induction h with
  | here => exact .key hx hp
  | member hmem _ ih => exact .member hmem ih
  | item hmem _ ih => exact .item hmem ih

/-- No object that is accepted has two members for one field. -/
lemma single_of_reject {v : Json} (h : rejectRecursiveDuplicates lowerRune v = .ok ())
    (hlong : ¬ v.HasKey (longS <:+: ·)) : v.Single := by
  intro members hobject
  have hplain : ∀ x ∈ members, ¬ longS <:+: x.1 := fun x hx hin =>
    hlong (hasKey_of_object hobject hx hin)
  have hnodup := List.pairwise_map.mp (distinct_of_reject h hobject)
  refine hnodup.imp_of_mem fun {x y} hx hy hne hrival => hne ?_
  rw [toLower_eq hrival.1 (hplain x hx), hrival.2, toLower_eq (hrival.2 ▸ hrival.1) (hplain y hy)]

/-! ### The order of keys -/

lemma steady_text : Json.Steady Json.Format.text.decode :=
  Json.steady_of_flat (fun _ _ => rfl) fun _ _ => rfl

lemma steady_texts : Json.Steady textsFormat.decode := by
  intro old v v' hsingle hv
  simp only [textsFormat, Json.steady_slice steady_text (some old) v v' hsingle hv]

lemma steady_step : Json.Steady (Json.Format.record stepTags).decode := by
  refine Json.steady_record (by decide) ?_ ?_
  · simp only [stepTags, List.map_cons, List.map_nil, List.pairwise_cons, List.forall_mem_cons]
    refine ⟨⟨?_, ?_, ?_, ?_, ?_, ?_, ?_, ?_, nofun⟩, ⟨?_, ?_, ?_, ?_, ?_, ?_, ?_, nofun⟩,
      ⟨?_, ?_, ?_, ?_, ?_, ?_, nofun⟩, ⟨?_, ?_, ?_, ?_, ?_, nofun⟩, ⟨?_, ?_, ?_, ?_, nofun⟩,
      ⟨?_, ?_, ?_, nofun⟩, ⟨?_, ?_, nofun⟩, ⟨?_, nofun⟩, nofun, .nil⟩
    all_goals exact Json.Field.apart_of (fun _ _ => rfl) (fun _ _ => rfl) fun _ _ _ => rfl
  · simp only [stepTags, List.map_cons, List.map_nil, List.forall_mem_cons]
    have hdecision : Json.Steady decisionFormat.decode :=
      Json.steady_of_flat (fun _ _ => rfl) fun _ _ => rfl
    exact ⟨Json.Field.steady_of steady_text, Json.Field.steady_of steady_text,
      Json.Field.steady_of steady_text, Json.Field.steady_of steady_text,
      Json.Field.steady_of hdecision, Json.Field.steady_of steady_texts,
      Json.Field.steady_of steady_texts, Json.Field.steady_of steady_text,
      Json.Field.steady_of steady_text, nofun⟩

lemma steady_document : Json.Steady (Json.Format.record documentTags).decode := by
  refine Json.steady_record (by decide) ?_ ?_
  · simp only [documentTags, List.map_cons, List.map_nil, List.pairwise_cons, List.forall_mem_cons]
    refine ⟨⟨?_, ?_, ?_, ?_, ?_, nofun⟩, ⟨?_, ?_, ?_, ?_, nofun⟩, ⟨?_, ?_, ?_, nofun⟩,
      ⟨?_, ?_, nofun⟩, ⟨?_, nofun⟩, nofun, .nil⟩
    all_goals exact Json.Field.apart_of (fun _ _ => rfl) (fun _ _ => rfl) fun _ _ _ => rfl
  · simp only [documentTags, List.map_cons, List.map_nil, List.forall_mem_cons]
    have hflag : Json.Steady flagFormat.decode :=
      Json.steady_of_flat (fun _ _ => rfl) fun _ _ => rfl
    exact ⟨Json.Field.steady_of steady_text, Json.Field.steady_of steady_text,
      Json.Field.steady_of hflag, Json.Field.steady_of (Json.steady_slice steady_text),
      Json.Field.steady_of (Json.steady_slice steady_step), Json.Field.steady_of steady_text, nofun⟩

/-- The searches for duplicates accept the reordered value, which has the same keys. -/
lemma accepted_of_reordered {v v' : Json} (hv : Json.Reordered v v')
    (h : rejectRecursiveDuplicates lowerRune v = .ok ())
    (hfields : rejectDuplicateFields lowerRune v = .ok ()) :
    rejectRecursiveDuplicates lowerRune v' = .ok () ∧ rejectDuplicateFields lowerRune v' = .ok ()
      ∧ (outerKeys v).Perm (outerKeys v') := by
  have hlower : ∀ members : List (Bytes × Json), members.map (fun x => toLower lowerRune x.1)
      = (members.map Prod.fst).map (toLower lowerRune) := fun members => by
    rw [List.map_map]
    rfl
  refine ⟨reject_of_distinct v' fun members' hobject' => ?_, ?_⟩
  · obtain ⟨members, hobject, hkeys⟩ := hobject'.of_reordered hv
    have hdistinct := distinct_of_reject h hobject
    rw [Distinct, hlower] at hdistinct ⊢
    exact (hkeys.map _).nodup_iff.mp hdistinct
  · cases v with
    | obj members =>
      obtain ⟨middle, members', rfl, hmembers, hperm⟩ := hv.of_obj
      have hkeys : (members.map Prod.fst).Perm (members'.map Prod.fst) :=
        hmembers.keys_eq ▸ hperm.map _
      obtain ⟨⟨-, hdistinct⟩, hknown⟩ := rejectFields_ok.mp hfields
      refine ⟨rejectFields_ok.mpr ⟨⟨fun _ _ => List.not_mem_nil, ?_⟩, fun x hx => ?_⟩, hkeys⟩
      · rw [Distinct, hlower] at hdistinct ⊢
        exact (hkeys.map _).nodup_iff.mp hdistinct
      · obtain ⟨y, hy, hyx⟩ := List.mem_map.mp (hkeys.mem_iff.mpr (List.mem_map_of_mem hx))
        exact hyx ▸ hknown y hy
    | null | bool _ | num _ | real _ | str _ | arr _ => cases hfields

/-- A plan with one step, of which the last members are given. -/
def planWith (members : List (Bytes × Json)) : Json :=
  .obj [(str "schema", .str prepareAssessmentSchemaV2), (str "action", .str (str "start")),
    (str "changed", .bool true), (str "consequences", .arr []),
    (str "steps", .arr [.obj ([(str "id", .str (str "s")), (str "target", .str (str "t")),
      (str "observed", .str (str "o")), (str "verify", .str (str "v")),
      (str "decision", .str (str "apply"))] ++ members)])]

/-- What is read of it. -/
def readWith (desired : Bytes) : PrepareAssessmentDocument where
  schema := prepareAssessmentSchemaV2
  action := str "start"
  changed := some true
  consequences := some []
  steps := some [⟨str "s", str "t", str "o", desired, .apply, [], [], str "v", []⟩]

end Subyard.Resource
