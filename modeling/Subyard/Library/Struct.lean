import Subyard.Library.Decode

/-!
Records whose JSON is given by tags, one for each field: the name of the member, how the field is
written, when it is left out, and how it is read.

* `Format`: how a value is written and read; `Format.int`, `Format.text`, `Format.pointer`,
  `Format.slice` and `Format.record` are the formats of each type.
* `Tag.of`, `Tag.omitEmpty`: the tag of a field that is always written, or only if not empty.
* `Format.record_reads`: **a record is read back if each field is, one after the other**.
* `length_object`: a bound on the text of a record from those of its fields.
-/

open Text

namespace Json

variable {α β : Type}

/-! ### Formats -/

/-- How a value is written, and how it is read into a place that holds another. -/
structure Format (β : Type) where
  encode : β → Json
  decode : Decoder β

/-- What is written of `b` is read back in a place that holds `old`. -/
def Format.Reads (format : Format β) (old b : β) : Prop :=
  format.decode old (format.encode b) = some b

def Format.int : Format ℤ := ⟨num, decodeInt⟩

def Format.text : Format Bytes := ⟨str, decodeStr⟩

/-- A value that may be absent; it is read into the one already there. -/
def Format.pointer (zero : β) (format : Format β) : Format (Option β) where
  encode
    | none => null
    | some b => format.encode b
  decode
    | _, null => some none
    | old, v => (format.decode (old.getD zero) v).map some

/-- The items of an array, each read into the one already at its place. -/
def readOver (zero : β) (item : Decoder β) : List β → List Json → Option (List β)
  | _, [] => some []
  | olds, v :: vs => do
      let b ← item (olds.headD zero) v
      let bs ← readOver zero item olds.tail vs
      some (b :: bs)

/-- A list that may be absent, which is not the same as an empty one. -/
def Format.slice (zero : β) (format : Format β) : Format (Option (List β)) where
  encode
    | none => null
    | some bs => arr (bs.map format.encode)
  decode
    | _, null => some none
    | old, arr items => (readOver zero format.decode (old.getD []) items).map some
    | _, _ => none

lemma Format.int_reads {n : ℤ} (hlow : -2 ^ 63 ≤ n) (hhigh : n < 2 ^ 63) (old : ℤ) :
    Format.int.Reads old n := decodeInt_num hlow hhigh old

lemma Format.text_reads (old s : Bytes) : Format.text.Reads old s := rfl

lemma Format.pointer_reads {zero : β} {format : Format β} {p : Option β}
    (h : ∀ b ∈ p, format.Reads zero b ∧ format.encode b ≠ null) :
    (Format.pointer zero format).Reads none p := by
  cases p with
  | none => rfl
  | some b =>
    obtain ⟨hreads, hnull⟩ := h b rfl
    have hread : format.decode zero (format.encode b) = some b := hreads
    show (Format.pointer zero format).decode none (format.encode b) = some (some b)
    cases hjson : format.encode b with
    | null => exact absurd hjson hnull
    | _ =>
      rw [hjson] at hread
      exact congrArg (Option.map some) hread

lemma readOver_map {zero : β} {format : Format β} {bs : List β}
    (h : ∀ b ∈ bs, format.Reads zero b) :
    readOver zero format.decode [] (bs.map format.encode) = some bs := by
  induction bs with
  | nil => rfl
  | cons b bs ih =>
    have hread : format.decode zero (format.encode b) = some b := h b (by simp)
    have ih := ih fun b' hb' => h b' (by simp [hb'])
    rw [List.map_cons, readOver]
    show (format.decode zero (format.encode b)).bind _ = _
    rw [hread, Option.bind_some]
    show (readOver zero format.decode [] (bs.map format.encode)).bind _ = _
    rw [ih]
    rfl

lemma Format.slice_reads {zero : β} {format : Format β} {p : Option (List β)}
    (h : ∀ bs ∈ p, ∀ b ∈ bs, format.Reads zero b) : (Format.slice zero format).Reads none p := by
  cases p with
  | none => rfl
  | some bs => exact congrArg (Option.map some) (readOver_map (h bs rfl))

/-! ### Tags -/

/-- A field of a record with what is written of it, if it is written. -/
structure Tag (α : Type) extends Field α where
  encode : α → Option Json

namespace Tag

variable {format : Format β} {get : α → β} {set : α → β → α}

/-- The tag of a field that is read by `get` and written by `set`. -/
def of (name : String) (get : α → β) (set : α → β → α) (format : Format β) : Tag α where
  toField := .of name get set format.decode
  encode a := some (format.encode (get a))

/-- The tag of a field that is left out if it is empty. -/
def omitEmpty (name : String) (get : α → β) (set : α → β → α) (empty : β → Bool)
    (format : Format β) : Tag α where
  toField := .of name get set format.decode
  encode a := if empty (get a) then none else some (format.encode (get a))

/-- One field of `r` read into `a` from what is written of it. -/
def read (r a : α) (tag : Tag α) : Option α :=
  match tag.encode r with
  | none => some a
  | some v => tag.decode a v

lemma read_of {name : String} {r a : α} (h : format.Reads (get a) (get r)) :
    (of name get set format).read r a = some (set a (get r)) :=
  congrArg (Option.map (set a)) h

lemma read_omitEmpty {name : String} {empty : β → Bool} {r a : α} (hset : set a (get a) = a)
    (hempty : empty (get r) → get r = get a) (h : format.Reads (get a) (get r)) :
    (omitEmpty name get set empty format).read r a = some (set a (get r)) := by
  by_cases hr : empty (get r)
  · have hencode : (omitEmpty name get set empty format).encode r = none := if_pos hr
    rw [hempty hr, hset, read, hencode]
  · have hencode : (omitEmpty name get set empty format).encode r = some (format.encode (get r)) :=
      if_neg hr
    rw [read, hencode]
    exact congrArg (Option.map (set a)) h

/-- The fields are read one after the other. -/
lemma read_cons {tag : Tag α} {tags : List (Tag α)} {r a a' b : α} (h : tag.read r a = some a')
    (hrest : tags.foldlM (read r) a' = some b) : (tag :: tags).foldlM (read r) a = some b := by
  rw [List.foldlM_cons, h]
  exact hrest

/-- A text is read back whatever it is. -/
lemma read_text {name : String} {get : α → Bytes} {set : α → Bytes → α} {tags : List (Tag α)}
    {r a b : α} (hrest : tags.foldlM (read r) (set a (get r)) = some b) :
    (of name get set .text :: tags).foldlM (read r) a = some b :=
  read_cons (read_of (Format.text_reads _ _)) hrest

end Tag

/-! ### Records -/

/-- The members that are written. -/
def members (tags : List (Tag α)) (r : α) : List (Bytes × Json) :=
  tags.filterMap fun tag => (tag.encode r).map fun v => (tag.name, v)

def object (tags : List (Tag α)) (r : α) : Json := obj (members tags r)

def Format.record (tags : List (Tag α)) : Format α :=
  ⟨object tags, decodeRecord (tags.map Tag.toField)⟩

/-- The members of a record are read with the tags they were written with. -/
lemma decodeRecord_object {all tags : List (Tag α)} {r : α}
    (hfind : ∀ tag ∈ tags, (all.map Tag.toField).find? (fun field =>
      foldName field.name = foldName tag.name) = some tag.toField) (a : α) :
    decodeRecord (all.map Tag.toField) a (object tags r) = tags.foldlM (Tag.read r) a := by
  induction tags generalizing a with
  | nil => rfl
  | cons tag tags ih =>
    have ih := fun a => ih (fun tag' h => hfind tag' (by simp [h])) a
    rw [List.foldlM_cons, Tag.read, object, members, List.filterMap_cons]
    cases tag.encode r with
    | none => exact ih a
    | some v =>
      have hmember : decodeMember (all.map Tag.toField) a (tag.name, v) = tag.decode a v := by
        rw [decodeMember, hfind tag (by simp)]
        rfl
      show decodeRecord _ a (obj ((tag.name, v) :: members tags r)) = (tag.decode a v).bind _
      rw [decodeRecord, List.foldlM_cons, hmember]
      cases tag.decode a v with
      | none => rfl
      | some a' => exact ih a'

/-- The tags of a record have different names, also without regard to case. -/
def Distinct (tags : List (Tag α)) : Prop := (tags.map fun tag => foldName tag.name).Nodup

instance (tags : List (Tag α)) : Decidable (Distinct tags) :=
  inferInstanceAs (Decidable (List.Nodup _))

lemma find_tag {tags : List (Tag α)} (h : Distinct tags) {tag : Tag α} (hmem : tag ∈ tags) :
    (tags.map Tag.toField).find? (fun field => foldName field.name = foldName tag.name)
      = some tag.toField := by
  induction tags with
  | nil => cases hmem
  | cons first tags ih =>
    rw [Distinct, List.map_cons, List.nodup_cons] at h
    rw [List.map_cons]
    rcases List.mem_cons.mp hmem with rfl | hmem
    · exact List.find?_cons_of_pos (by simp)
    · have hne : foldName first.name ≠ foldName tag.name := fun heq =>
        h.1 (List.mem_map.mpr ⟨tag, hmem, heq.symm⟩)
      rw [List.find?_cons_of_neg (by simpa using hne)]
      exact ih h.2 hmem

/-- **A record is read back if each field is, one after the other.** -/
theorem Format.record_reads {tags : List (Tag α)} (hnames : Distinct tags) {zero r : α}
    (h : tags.foldlM (Tag.read r) zero = some r) : (Format.record tags).Reads zero r :=
  (decodeRecord_object (fun _ hmem => find_tag hnames hmem) zero).trans h

lemma Format.record_ne_null (tags : List (Tag α)) (r : α) : (Format.record tags).encode r ≠ null :=
  fun h => by cases h

/-- What is written of a field is well formed. -/
def Tag.Plain (r : α) (tag : Tag α) : Prop := ∀ v ∈ tag.encode r, Json.Plain v

section

variable {format : Format β} {get : α → β} {set : α → β → α} {name : String} {r : α}

lemma Tag.plain_of (h : Json.Plain (format.encode (get r))) : (of name get set format).Plain r := by
  intro v hv
  cases hv
  exact h

lemma Tag.plain_omitEmpty {empty : β → Bool} (h : Json.Plain (format.encode (get r))) :
    (omitEmpty name get set empty format).Plain r := by
  intro v hv
  obtain ⟨_, hv⟩ := Option.ite_none_left_eq_some.mp hv
  cases hv
  exact h

end

lemma Format.plain_pointer {zero : β} {format : Format β} {p : Option β}
    (h : ∀ b ∈ p, Plain (format.encode b)) : Plain ((Format.pointer zero format).encode p) := by
  cases p with
  | none => trivial
  | some b => exact h b rfl

lemma Format.plain_slice {zero : β} {format : Format β} {p : Option (List β)}
    (h : ∀ bs ∈ p, ∀ b ∈ bs, Plain (format.encode b)) :
    Plain ((Format.slice zero format).encode p) := by
  cases p with
  | none => trivial
  | some bs =>
    show Plain (arr (bs.map format.encode))
    rw [Plain, plainItems_iff]
    intro item hitem
    obtain ⟨b, hb, rfl⟩ := List.mem_map.mp hitem
    exact h bs rfl b hb

/-- What is written is well formed if each field is. -/
lemma plain_object {tags : List (Tag α)} (hnames : ∀ tag ∈ tags, valid tag.name) {r : α}
    (h : ∀ tag ∈ tags, tag.Plain r) : Plain (object tags r) := by
  rw [object, Plain, plainMembers_iff]
  intro member hmember
  obtain ⟨tag, htag, hencode⟩ := List.mem_filterMap.mp hmember
  obtain ⟨v, hv, rfl⟩ := Option.map_eq_some_iff.mp hencode
  exact ⟨hnames tag htag, h tag htag v hv⟩

/-! ### Octets that start no character -/

/-- What is written of a field of `r` is read as that of `r'`. -/
def Tag.Coerces (r r' : α) (tag : Tag α) : Prop :=
  (∀ v ∈ tag.encode r, Whole v) ∧ (tag.encode r).map coerced = tag.encode r'

/-- A field that is well formed is read as it is. -/
lemma Tag.Coerces.of_plain {r r' : α} {tag : Tag α} (h : tag.Plain r)
    (heq : tag.encode r = tag.encode r') : tag.Coerces r r' := by
  refine ⟨fun v hv => (h v hv).coerced_eq.1, ?_⟩
  rw [← heq]
  cases hencode : tag.encode r with
  | none => rfl
  | some v => exact congrArg some (h v hencode).coerced_eq.2

section

variable {format : Format β} {name : String} {r r' : α}

lemma Tag.coerces_of {get : α → β} {set : α → β → α} (hwhole : Whole (format.encode (get r)))
    (h : (format.encode (get r)).coerced = format.encode (get r')) :
    (of name get set format).Coerces r r' := by
  refine ⟨fun v hv => ?_, congrArg some h⟩
  cases hv
  exact hwhole

lemma Tag.coerces_pointer {get : α → Option β} {set : α → Option β → α} {zero : β} {f : β → β}
    (hget : get r' = (get r).map f) (hwhole : ∀ b ∈ get r, Whole (format.encode b))
    (h : ∀ b ∈ get r, (format.encode b).coerced = format.encode (f b)) :
    (omitEmpty name get set (·.isNone) (.pointer zero format)).Coerces r r' := by
  simp only [Coerces, omitEmpty, hget]
  cases hr : get r with
  | none => exact ⟨nofun, rfl⟩
  | some b =>
    refine ⟨fun v hv => ?_, congrArg some (h b hr)⟩
    cases hv
    exact hwhole b hr

end

/-- A record is read as one whose fields are those that are read. -/
lemma coerced_object {tags : List (Tag α)} (hnames : ∀ tag ∈ tags, valid tag.name) {r r' : α}
    (h : ∀ tag ∈ tags, tag.Coerces r r') :
    Whole (object tags r) ∧ (object tags r).coerced = object tags r' := by
  have hmembers : WholeMembers (members tags r)
      ∧ coercedMembers (members tags r) = members tags r' := by
    rw [members, members]
    induction tags with
    | nil => exact ⟨trivial, rfl⟩
    | cons tag tags ih =>
      have ih := ih (fun tag' h' => hnames tag' (by simp [h'])) fun tag' h' => h tag' (by simp [h'])
      obtain ⟨hwhole, heq⟩ := h tag (by simp)
      rw [List.filterMap_cons, List.filterMap_cons, ← heq]
      cases hencode : tag.encode r with
      | none => exact ih
      | some v =>
        refine ⟨⟨hwhole v hencode, ih.1⟩, congrArg₂ List.cons ?_ ih.2⟩
        exact Prod.ext (coerce_of_valid (hnames tag (by simp))) rfl
  exact ⟨hmembers.1, congrArg obj hmembers.2⟩

/-! ### Lengths of texts -/

/-- The length of what is written of a field. -/
def Tag.size (r : α) (tag : Tag α) : ℕ := (tag.encode r).elim 0 fun v => (render v).length

/-- A field that is not empty is written. -/
lemma Tag.size_omitEmpty_eq {name : String} {get : α → β} {set : α → β → α} {empty : β → Bool}
    {format : Format β} {r : α} (h : ¬ empty (get r)) :
    (Tag.omitEmpty name get set empty format).size r = (render (format.encode (get r))).length := by
  have hencode : (Tag.omitEmpty name get set empty format).encode r
      = some (format.encode (get r)) := if_neg h
  rw [Tag.size, hencode, Option.elim_some]

/-- A field that may be left out is counted as if it were there. -/
lemma Tag.size_omitEmpty {name : String} {get : α → β} {set : α → β → α} {empty : β → Bool}
    {format : Format β} {r : α} {n : ℕ}
    (h : ¬ empty (get r) → (render (format.encode (get r))).length ≤ n) :
    (Tag.omitEmpty name get set empty format).size r ≤ n := by
  by_cases hr : empty (get r)
  · have hencode : (Tag.omitEmpty name get set empty format).encode r = none := if_pos hr
    rw [Tag.size, hencode]
    exact Nat.zero_le n
  · rw [Tag.size_omitEmpty_eq hr]
    exact h hr

lemma Tag.size_pointer {name : String} {get : α → Option β} {set : α → Option β → α} {zero : β}
    {format : Format β} {r : α} {n : ℕ} (h : ∀ b ∈ get r, (render (format.encode b)).length ≤ n) :
    (Tag.omitEmpty name get set (·.isNone) (.pointer zero format)).size r ≤ n := by
  refine Tag.size_omitEmpty fun hr => ?_
  cases hget : get r with
  | none => simp [hget] at hr
  | some b => exact h b hget

lemma length_renderItems (items : List Json) :
    (renderItems items).length ≤ (items.map fun item => (render item).length + 1).sum := by
  induction items with
  | nil => simp [renderItems]
  | cons item items ih =>
    cases items with
    | nil => simp [renderItems]
    | cons next rest =>
      rw [renderItems, List.map_cons, List.sum_cons, List.length_append, List.length_append,
        List.length_singleton]
      omega

lemma length_renderMembers (members : List (Bytes × Json)) :
    (renderMembers members).length
      ≤ (members.map fun member => (quote member.1).length + (render member.2).length + 2).sum := by
  induction members with
  | nil => simp [renderMembers]
  | cons member members ih =>
    obtain ⟨key, item⟩ := member
    cases members with
    | nil => simp [renderMembers]; omega
    | cons next rest =>
      rw [renderMembers, List.map_cons, List.sum_cons]
      simp only [List.length_append, List.length_singleton]
      omega

/-- The text of a member is part of that of its object. -/
lemma length_le_renderMembers {members : List (Bytes × Json)} {member : Bytes × Json}
    (h : member ∈ members) : (render member.2).length ≤ (renderMembers members).length := by
  induction members with
  | nil => cases h
  | cons first members ih =>
    obtain ⟨key, item⟩ := first
    cases members with
    | nil =>
      cases List.mem_singleton.mp h
      rw [renderMembers, List.length_append]
      exact Nat.le_add_left _ _
    | cons next rest =>
      simp only [renderMembers, List.length_append, List.length_singleton]
      rcases List.mem_cons.mp h with rfl | h
      · show (render item).length ≤ _
        omega
      · have := ih h
        omega

lemma length_le_object {tags : List (Tag α)} {tag : Tag α} (htag : tag ∈ tags) (r : α) :
    tag.size r ≤ (render (object tags r)).length := by
  rw [Tag.size]
  cases hencode : tag.encode r with
  | none => exact Nat.zero_le _
  | some v =>
    have hmember : (tag.name, v) ∈ members tags r :=
      List.mem_filterMap.mpr ⟨tag, htag, by rw [hencode]; rfl⟩
    have hle := length_le_renderMembers hmember
    rw [object, render, List.length_append, List.length_append, Option.elim_some]
    exact hle.trans (by omega)

/-- The text of a list whose items have texts of at most `n` octets. -/
lemma length_arr {items : List Json} {n : ℕ} (h : ∀ item ∈ items, (render item).length ≤ n) :
    (render (arr items)).length ≤ items.length * (n + 1) + 2 := by
  have hsum : (items.map fun item => (render item).length + 1).sum ≤ items.length * (n + 1) := by
    have hle := List.sum_le_card_nsmul (items.map fun item => (render item).length + 1) (n + 1) <| by
      intro x hx
      obtain ⟨item, hitem, rfl⟩ := List.mem_map.mp hx
      have := h item hitem
      omega
    simpa using hle
  have hitems := length_renderItems items
  rw [render, List.length_append, List.length_append, List.length_singleton, List.length_singleton]
  omega

/-- A list that may be absent, of at most `m` items. -/
lemma length_slice {zero : β} {format : Format β} {p : Option (List β)} {m n : ℕ}
    (hlength : ∀ bs ∈ p, bs.length ≤ m)
    (h : ∀ bs ∈ p, ∀ b ∈ bs, (render (format.encode b)).length ≤ n) :
    (render ((Format.slice zero format).encode p)).length ≤ m * (n + 1) + 4 := by
  cases p with
  | none => exact Nat.le_add_left _ _
  | some bs =>
    have hitems : ∀ item ∈ bs.map format.encode, (render item).length ≤ n := by
      intro item hitem
      obtain ⟨b, hb, rfl⟩ := List.mem_map.mp hitem
      exact h bs rfl b hb
    have harr := length_arr hitems
    rw [List.length_map] at harr
    have hmul := Nat.mul_le_mul_right (n + 1) (hlength bs rfl)
    show (render (arr (bs.map format.encode))).length ≤ _
    omega

/-- The fields of a record are within their budgets. -/
abbrev Within (tags : List (Tag α)) (budget : List ℕ) (r : α) : Prop :=
  List.Forall₂ (fun tag size => Tag.size r tag ≤ size) tags budget

/-- **The text of a record** is at most as long as its fields are allowed to be, with their
names. -/
theorem length_object {tags : List (Tag α)} {budget : List ℕ} {r : α} {n : ℕ}
    (hnames : ∀ tag ∈ tags, (quote tag.name).length ≤ n)
    (h : Within tags budget r) :
    (render (object tags r)).length ≤ (budget.map (· + n + 2)).sum + 2 := by
  have hsum : ((members tags r).map fun member =>
      (quote member.1).length + (render member.2).length + 2).sum
        ≤ (budget.map (· + n + 2)).sum := by
    rw [members]
    induction h with
    | nil => simp
    | @cons tag size tags budget hsize _ ih =>
      have ih := ih fun tag' h' => hnames tag' (by simp [h'])
      have hname := hnames tag (by simp)
      rw [Tag.size] at hsize
      rw [List.filterMap_cons, List.map_cons, List.sum_cons]
      cases hencode : tag.encode r with
      | none =>
        simp only [Option.map_none]
        omega
      | some v =>
        rw [hencode, Option.elim_some] at hsize
        simp only [Option.map_some, List.map_cons, List.sum_cons]
        omega
  have hmembers := length_renderMembers (members tags r)
  rw [object, render, List.length_append, List.length_append, List.length_singleton,
    List.length_singleton]
  omega

lemma length_escape (b : UInt8) : (escape b).length ≤ 6 := by
  unfold escape
  split_ifs
  · simp
  iterate 5 decide
  · have hlen : (Text.str "\\u00").length = 4 := by decide
    rw [List.length_append, length_hex, hlen, List.length_singleton]
  · simp

lemma length_quoteFrom (n : ℕ) (copy : Bool) (s : Bytes) :
    (quoteFrom n copy s).length ≤ 6 * s.length := by
  induction s generalizing n copy with
  | nil => simp [quoteFrom]
  | cons b bs ih =>
    cases n with
    | succ n =>
      have := ih n copy
      rw [quoteFrom, List.length_append, List.length_cons]
      split <;> simp <;> omega
    | zero =>
      have hescape := length_escape b
      rw [quoteFrom, List.length_cons]
      split
      · have := ih 0 true
        have hlen : (Text.str "\\ufffd").length = 6 := by decide
        rw [List.length_append]
        omega
      · next m _ =>
          have hlen : (Text.str "\\u2028").length = 6 := by decide
          have hlen' : (Text.str "\\u2029").length = 6 := by decide
          have hplain := ih 0 true
          have hskip := ih 2 false
          have hcopy := ih (m - 1) true
          split_ifs <;> simp only [List.length_append, List.length_cons] <;> omega

/-- No octet is written with more than six. -/
lemma length_quote (s : Bytes) : (quote s).length ≤ 6 * s.length + 2 := by
  have := length_quoteFrom 0 true s
  rw [quote, List.length_append, List.length_append, List.length_singleton]
  omega

/-- An octet that is written as itself. -/
def isVerbatim (b : UInt8) : Bool := b < 0x80 && escape b = [b]

lemma quoteFrom_verbatim {s : Bytes} (h : s.all isVerbatim) : quoteFrom 0 true s = s := by
  induction s with
  | nil => rfl
  | cons b bs ih =>
    rw [List.all_cons, Bool.and_eq_true] at h
    obtain ⟨hlt, hescape⟩ : b < 0x80 ∧ escape b = [b] := by simpa [isVerbatim] using h.1
    rw [quoteFrom, runeLength_of_lt hlt]
    simp only [if_true, hescape, ih h.2, List.singleton_append]

/-- A text of such octets only gets its quotes. -/
lemma length_quote_verbatim {s : Bytes} (h : s.all isVerbatim) :
    (quote s).length = s.length + 2 := by
  rw [quote, quoteFrom_verbatim h]
  simp

end Json
