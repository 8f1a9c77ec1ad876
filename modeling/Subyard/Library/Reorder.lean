import Mathlib.Data.List.Perm.Basic
import Subyard.Library.Struct

/-!
JSON values up to the order of the members of their objects, and decoders that do not depend on it.

* `HasObject members v`: the object with these members stands somewhere in `v`.
* `Reordered`: the members of objects stand in another order, at any depth.
* `Single`: no object of the value has two members for one field, whatever the fields are.
* `Field.Apart`: two fields may be read in either order; `Steady`: a decoder that reads a value and
  its reorderings alike.
* `steady_record`: **a record whose fields are apart and steady is read in any order**.
-/

open Text

namespace Json

variable {α β : Type}

/-! ### Objects in a value -/

/-- The object with these members stands somewhere in the value. -/
inductive HasObject (members : List (Bytes × Json)) : Json → Prop
  | here : HasObject members (obj members)
  | member {outer : List (Bytes × Json)} {x : Bytes × Json} (hmem : x ∈ outer)
      (h : HasObject members x.2) : HasObject members (obj outer)
  | item {items : List Json} {v : Json} (hmem : v ∈ items) (h : HasObject members v) :
      HasObject members (arr items)

mutual

/-- The members of objects may stand in another order. -/
inductive Reordered : Json → Json → Prop
  | refl (v : Json) : Reordered v v
  | arr {items items' : List Json} (h : ReorderedItems items items') :
      Reordered (arr items) (arr items')
  | obj {members middle members' : List (Bytes × Json)} (h : ReorderedMembers members middle)
      (hperm : middle.Perm members') : Reordered (obj members) (obj members')

inductive ReorderedItems : List Json → List Json → Prop
  | nil : ReorderedItems [] []
  | cons {v v' : Json} {items items' : List Json} (h : Reordered v v')
      (hrest : ReorderedItems items items') : ReorderedItems (v :: items) (v' :: items')

inductive ReorderedMembers : List (Bytes × Json) → List (Bytes × Json) → Prop
  | nil : ReorderedMembers [] []
  | cons {key : Bytes} {v v' : Json} {members members' : List (Bytes × Json)} (h : Reordered v v')
      (hrest : ReorderedMembers members members') :
      ReorderedMembers ((key, v) :: members) ((key, v') :: members')

end

lemma ReorderedItems.refl : ∀ items, ReorderedItems items items
  | [] => .nil
  | v :: items => .cons (.refl v) (refl items)

lemma ReorderedMembers.refl : ∀ members, ReorderedMembers members members
  | [] => .nil
  | (_, v) :: members => .cons (.refl v) (refl members)

lemma ReorderedItems.exists_of_mem {v' : Json} : ∀ {items items' : List Json},
    ReorderedItems items items' → v' ∈ items' → ∃ v ∈ items, Reordered v v'
  | _, _, .nil, h => absurd h List.not_mem_nil
  | _, _, .cons hv hrest, h => by
    rcases List.mem_cons.mp h with rfl | h
    · exact ⟨_, List.mem_cons_self, hv⟩
    · obtain ⟨v, hmem, hv⟩ := hrest.exists_of_mem h
      exact ⟨v, List.mem_cons_of_mem _ hmem, hv⟩

lemma ReorderedMembers.exists_of_mem {x' : Bytes × Json} : ∀ {members members'},
    ReorderedMembers members members' → x' ∈ members' →
      ∃ x ∈ members, x.1 = x'.1 ∧ Reordered x.2 x'.2
  | _, _, .nil, h => absurd h List.not_mem_nil
  | _, _, .cons hv hrest, h => by
    rcases List.mem_cons.mp h with rfl | h
    · exact ⟨_, List.mem_cons_self, rfl, hv⟩
    · obtain ⟨x, hmem, hx⟩ := hrest.exists_of_mem h
      exact ⟨x, List.mem_cons_of_mem _ hmem, hx⟩

lemma ReorderedMembers.keys_eq : ∀ {members members'}, ReorderedMembers members members' →
    members.map Prod.fst = members'.map Prod.fst
  | _, _, .nil => rfl
  | _, _, .cons _ hrest => congrArg (_ :: ·) hrest.keys_eq

/-- An object that is reordered. -/
lemma Reordered.of_obj {members : List (Bytes × Json)} {v : Json}
    (h : Reordered (.obj members) v) : ∃ middle members', v = .obj members'
      ∧ ReorderedMembers members middle ∧ middle.Perm members' := by
  cases h with
  | refl _ => exact ⟨members, members, rfl, .refl _, .refl _⟩
  | obj h hperm => exact ⟨_, _, rfl, h, hperm⟩

lemma Reordered.of_arr {items : List Json} {v : Json} (h : Reordered (.arr items) v) :
    ∃ items', v = .arr items' ∧ ReorderedItems items items' := by
  cases h with
  | refl _ => exact ⟨items, rfl, .refl _⟩
  | arr h => exact ⟨_, rfl, h⟩

/-- The objects of a value that is reordered have the keys of those it had. -/
lemma HasObject.of_reordered {members' : List (Bytes × Json)} {v v' : Json}
    (h : HasObject members' v') (hv : Reordered v v') :
    ∃ members, HasObject members v ∧ (members.map Prod.fst).Perm (members'.map Prod.fst) := by
  induction h generalizing v with
  | here =>
    cases hv with
    | refl _ => exact ⟨_, .here, .refl _⟩
    | obj h hperm => exact ⟨_, .here, h.keys_eq ▸ hperm.map _⟩
  | @member outer x hmem _ ih =>
    cases hv with
    | refl _ =>
      obtain ⟨members, hwithin, hkeys⟩ := ih (.refl _)
      exact ⟨members, .member hmem hwithin, hkeys⟩
    | obj h hperm =>
      obtain ⟨y, hy, -, hyx⟩ := h.exists_of_mem (hperm.mem_iff.mpr hmem)
      obtain ⟨members, hwithin, hkeys⟩ := ih hyx
      exact ⟨members, .member hy hwithin, hkeys⟩
  | item hmem _ ih =>
    cases hv with
    | refl _ =>
      obtain ⟨members, hwithin, hkeys⟩ := ih (.refl _)
      exact ⟨members, .item hmem hwithin, hkeys⟩
    | arr h =>
      obtain ⟨w, hw, hwv⟩ := h.exists_of_mem hmem
      obtain ⟨members, hwithin, hkeys⟩ := ih hwv
      exact ⟨members, .item hw hwithin, hkeys⟩

/-! ### Members for one field -/

/-- Two members are for one field of some record with names of seven-bit characters. -/
def Rival (x y : Bytes × Json) : Prop := Ascii (foldName x.1) ∧ foldName x.1 = foldName y.1

/-- No object has two members for one field. -/
def Single (v : Json) : Prop :=
  ∀ members, HasObject members v → members.Pairwise fun x y => ¬ Rival x y

lemma Single.member {members : List (Bytes × Json)} (h : Single (obj members)) {x : Bytes × Json}
    (hx : x ∈ members) : Single x.2 := fun _ hwithin => h _ (.member hx hwithin)

lemma Single.item {items : List Json} (h : Single (arr items)) {v : Json} (hv : v ∈ items) :
    Single v := fun _ hwithin => h _ (.item hv hwithin)

/-! ### Decoders -/

/-- The decoder reads a value and its reorderings alike. -/
def Steady (decode : Decoder α) : Prop :=
  ∀ a v v', Single v → Reordered v v' → decode a v = decode a v'

/-- The fields may be read in either order. -/
def Field.Apart (f g : Field α) : Prop :=
  ∀ a v w, (f.decode a v).bind (g.decode · w) = (g.decode a w).bind (f.decode · v)

instance : Std.Symm (@Field.Apart α) := ⟨fun _ _ h a v w => (h a w v).symm⟩

/-- Fields that are set independently. -/
lemma Field.apart_of {β' : Type} {name name' : String} {get : α → β} {set : α → β → α}
    {decode : Decoder β} {get' : α → β'} {set' : α → β' → α} {decode' : Decoder β'}
    (hget : ∀ a b, get (set' a b) = get a) (hget' : ∀ a b, get' (set a b) = get' a)
    (hset : ∀ a b b', set' (set a b) b' = set (set' a b') b) :
    (Field.of name get set decode).Apart (Field.of name' get' set' decode') := by
  intro a v w
  simp only [Field.of]
  cases hv : decode (get a) v with
  | none => cases hw : decode' (get' a) w <;> simp [hget, hv]
  | some b => cases hw : decode' (get' a) w <;> simp [hget, hget', hset, hv, hw]

lemma Field.steady_of {name : String} {get : α → β} {set : α → β → α} {decode : Decoder β}
    (h : Steady decode) : Steady (Field.of name get set decode).decode := by
  intro a v v' hsingle hv
  exact congrArg (Option.map (set a)) (h (get a) v v' hsingle hv)

/-- A fold does not depend on the order of steps that commute. -/
lemma foldlM_perm {γ : Type} {f : α → γ → Option α} {l l' : List γ} (h : l.Perm l')
    (hf : l.Pairwise fun x y => ∀ a, (f a x).bind (f · y) = (f a y).bind (f · x)) (a : α) :
    l.foldlM f a = l'.foldlM f a := by
  induction h generalizing a with
  | nil => rfl
  | cons x _ ih =>
    rw [List.foldlM_cons, List.foldlM_cons]
    exact congrArg _ (funext fun a' => ih (List.pairwise_cons.mp hf).2 a')
  | swap x y l =>
    have hyx := (List.pairwise_cons.mp hf).1 x List.mem_cons_self a
    simp only [List.foldlM_cons, Option.bind_eq_bind, ← Option.bind_assoc, hyx]
  | trans h _ ih ih' =>
    rw [ih hf, ih' (h.pairwise hf fun hxy a => (hxy a).symm)]

/-- Members are read in either order if they are not for one field. -/
lemma decodeMember_comm {fields : List (Field α)} (hnames : ∀ f ∈ fields, Ascii (foldName f.name))
    (hapart : fields.Pairwise Field.Apart) {x y : Bytes × Json} (h : ¬ Rival x y) (a : α) :
    (decodeMember fields a x).bind (decodeMember fields · y)
      = (decodeMember fields a y).bind (decodeMember fields · x) := by
  simp only [decodeMember]
  cases hf : fields.find? fun field => foldName field.name = foldName x.1 with
  | none => simp
  | some f =>
    cases hg : fields.find? fun field => foldName field.name = foldName y.1 with
    | none => simp
    | some g =>
      have hfx : foldName f.name = foldName x.1 := by simpa using List.find?_some hf
      have hgy : foldName g.name = foldName y.1 := by simpa using List.find?_some hg
      have hfmem := List.mem_of_find?_eq_some hf
      have hne : f ≠ g := by
        rintro rfl
        exact h ⟨hfx ▸ hnames f hfmem, hfx.symm.trans hgy⟩
      exact hapart.forall hfmem (List.mem_of_find?_eq_some hg) hne a x.2 y.2

lemma foldlM_reordered {fields : List (Field α)} (hsteady : ∀ f ∈ fields, Steady f.decode) :
    ∀ {members middle : List (Bytes × Json)}, ReorderedMembers members middle →
      (∀ x ∈ members, Single x.2) → ∀ a,
      members.foldlM (decodeMember fields) a = middle.foldlM (decodeMember fields) a := by
  intro members
  induction members with
  | nil =>
    rintro _ ⟨⟩ _ a
    rfl
  | cons _ _ ih =>
    rintro _ (_ | @⟨key, v, v', _, _, hv, hrest⟩) hsingle a
    have hmember : decodeMember fields a (key, v) = decodeMember fields a (key, v') := by
      simp only [decodeMember]
      cases hf : fields.find? fun field => foldName field.name = foldName key with
      | none => rfl
      | some f =>
        exact hsteady f (List.mem_of_find?_eq_some hf) a v v' (hsingle _ List.mem_cons_self) hv
    rw [List.foldlM_cons, List.foldlM_cons, hmember]
    exact congrArg _ (funext (ih hrest fun x hx => hsingle x (List.mem_cons_of_mem _ hx)))

/-- **A record is read in any order.** -/
theorem steady_record {fields : List (Field α)} (hnames : ∀ f ∈ fields, Ascii (foldName f.name))
    (hapart : fields.Pairwise Field.Apart) (hsteady : ∀ f ∈ fields, Steady f.decode) :
    Steady (decodeRecord fields) := by
  intro a v v' hsingle hv
  cases v with
  | obj members =>
    obtain ⟨middle, members', rfl, hmembers, hperm⟩ := hv.of_obj
    have hpairwise : middle.Pairwise fun x y => ¬ Rival x y := by
      have hkeys := hsingle members .here
      have hmap : (members.map Prod.fst).Pairwise fun k k' =>
          ¬ (Ascii (foldName k) ∧ foldName k = foldName k') := List.pairwise_map.mpr hkeys
      rw [hmembers.keys_eq] at hmap
      exact List.pairwise_map.mp hmap
    show members.foldlM _ a = members'.foldlM _ a
    rw [foldlM_reordered hsteady hmembers (fun x hx => hsingle.member hx)]
    exact foldlM_perm hperm (hpairwise.imp fun h => decodeMember_comm hnames hapart h) a
  | null | bool _ | num _ | real _ | str _ | arr _ => cases hv <;> rfl

lemma steady_readOver {zero : α} {decode : Decoder α} (h : Steady decode) :
    ∀ {items items' : List Json} (olds : List α), ReorderedItems items items' →
      (∀ v ∈ items, Single v) → readOver zero decode olds items = readOver zero decode olds items' := by
  intro items
  induction items with
  | nil =>
    rintro _ olds ⟨⟩ _
    rfl
  | cons _ _ ih =>
    rintro _ olds (_ | ⟨hv, hrest⟩) hsingle
    rw [readOver, readOver, h _ _ _ (hsingle _ List.mem_cons_self) hv,
      ih olds.tail hrest fun v hv => hsingle v (List.mem_cons_of_mem _ hv)]

lemma steady_slice {zero : α} {format : Format α} (h : Steady format.decode) :
    Steady (Format.slice zero format).decode := by
  intro a v v' hsingle hv
  cases v with
  | arr items =>
    obtain ⟨items', rfl, hitems⟩ := hv.of_arr
    exact congrArg (Option.map some) (steady_readOver h _ hitems fun v hv => hsingle.item hv)
  | obj members =>
    obtain ⟨_, _, rfl, -⟩ := hv.of_obj
    rfl
  | null | bool _ | num _ | real _ | str _ => cases hv; rfl

/-- A decoder of values that hold no others. -/
lemma steady_of_flat {decode : Decoder α} (harr : ∀ a items, decode a (arr items) = none)
    (hobj : ∀ a members, decode a (obj members) = none) : Steady decode := by
  intro a v v' _ hv
  cases hv with
  | refl _ => rfl
  | arr _ => rw [harr, harr]
  | obj _ _ => rw [hobj, hobj]

end Json
