import Mathlib.Data.Finmap
import Mathlib.Data.List.Sort
import Mathlib.Tactic
import Subyard.Library.Fallible

/-!
Finite maps whose entries can be visited in the order of the keys.

The maps are the `Finmap`s of the library at a constant type of values.

* `sorted`: the entries in the order of the keys, whatever order they were inserted in.
* `getD`: the value at a key, or a default.
* `build`, `buildM`, `select`: the loop that writes an entry for each entry of a map, the one in
  which an entry may be refused, and the one in which it may be left out.
-/

/-- A finite map. -/
abbrev Dict (K V : Type) := Finmap fun _ : K => V

namespace Dict

variable {K V W : Type}

/-! ### The order of the keys -/

section Order

variable [LE K] [DecidableLE K]

/-- The order of entries by their keys. -/
abbrev byKey (x y : K × V) : Prop := x.1 ≤ y.1

/-- The entries of an association list in the order of the keys. -/
def sortEntries (entries : List (Sigma fun _ : K => V)) : List (K × V) :=
  (entries.map fun entry => (entry.1, entry.2)).insertionSort byKey

lemma sortEntries_perm (entries : List (Sigma fun _ : K => V)) :
    (sortEntries entries).Perm (entries.map fun entry => (entry.1, entry.2)) :=
  List.perm_insertionSort _ _

variable [Std.Total fun a b : K => a ≤ b] [Std.Antisymm fun a b : K => a ≤ b]
  [IsTrans K fun a b => a ≤ b]

instance : Std.Total fun x y : K × V => byKey x y :=
  ⟨fun x y => Std.Total.total (r := fun a b : K => a ≤ b) x.1 y.1⟩

instance : IsTrans (K × V) fun x y => byKey x y :=
  ⟨fun x y z hxy hyz => IsTrans.trans (r := fun a b : K => a ≤ b) x.1 y.1 z.1 hxy hyz⟩

/-- Distinct keys have one order only. -/
lemma sortEntries_congr {entries entries' : List (Sigma fun _ : K => V)}
    (hnodup : entries.NodupKeys) (h : entries.Perm entries') :
    sortEntries entries = sortEntries entries' := by
  refine List.Perm.eq_of_pairwise ?_ (List.pairwise_insertionSort byKey _)
    (List.pairwise_insertionSort byKey _)
    (((sortEntries_perm _).trans (h.map _)).trans (sortEntries_perm _).symm)
  intro x y hx hy hxy hyx
  obtain ⟨⟨k, v⟩, hv, rfl⟩ := List.mem_map.mp ((sortEntries_perm _).mem_iff.mp hx)
  obtain ⟨⟨k', v'⟩, hv', rfl⟩ := List.mem_map.mp ((sortEntries_perm _).mem_iff.mp hy)
  obtain rfl : k = k' := Std.Antisymm.antisymm k k' hxy hyx
  rw [hnodup.eq_of_mk_mem hv (h.mem_iff.mpr hv')]

/-- The entries in the order of the keys. -/
def sorted (m : Dict K V) : List (K × V) :=
  m.liftOn (fun a => sortEntries a.entries) fun a _ h => sortEntries_congr a.nodupKeys h

lemma sorted_toFinmap (a : AList fun _ : K => V) :
    sorted a.toFinmap = sortEntries a.entries := Finmap.liftOn_toFinmap ..

lemma mem_sorted [DecidableEq K] {m : Dict K V} {k : K} {v : V} :
    (k, v) ∈ m.sorted ↔ m.lookup k = some v := by
  induction m using Finmap.induction_on with
  | _ a =>
    rw [sorted_toFinmap, (sortEntries_perm _).mem_iff, Finmap.lookup_toFinmap,
      ← Option.mem_def, AList.mem_lookup_iff]
    constructor
    · intro h
      obtain ⟨⟨k', v'⟩, hmem, heq⟩ := List.mem_map.mp h
      cases heq
      exact hmem
    · exact fun h => List.mem_map.mpr ⟨⟨k, v⟩, h, rfl⟩

lemma sorted_pairwise (m : Dict K V) : m.sorted.Pairwise byKey := by
  induction m using Finmap.induction_on with
  | _ a =>
    rw [sorted_toFinmap]
    exact List.pairwise_insertionSort byKey _

lemma sorted_nodup (m : Dict K V) : (m.sorted.map Prod.fst).Nodup := by
  induction m using Finmap.induction_on with
  | _ a =>
    rw [sorted_toFinmap, ((sortEntries_perm _).map _).nodup_iff, List.map_map]
    exact a.nodupKeys

end Order

/-! ### Lookup -/

/-- A map with as many keys as another and no others has the same keys. -/
lemma keys_eq_of_card {m : Dict K V} {m' : Dict K W} (hsub : ∀ k ∈ m.keys, k ∈ m'.keys)
    (hcard : m.keys.card = m'.keys.card) : m.keys = m'.keys :=
  Finset.eq_of_subset_of_card_le hsub hcard.ge

section Lookup

variable [DecidableEq K]

/-- The value at a key, or a default. -/
def getD (m : Dict K V) (k : K) (zero : V) : V := (m.lookup k).getD zero

lemma getD_of_lookup {m : Dict K V} {k : K} {v zero : V} (h : m.lookup k = some v) :
    m.getD k zero = v := by rw [getD, h]; rfl

@[simp] lemma getD_insert_self (m : Dict K V) (k : K) (v zero : V) :
    Dict.getD (Finmap.insert k v m) k zero = v := by
  rw [getD, Finmap.lookup_insert]; rfl

lemma getD_insert_of_ne (m : Dict K V) {k k' : K} (v zero : V) (h : k' ≠ k) :
    Dict.getD (Finmap.insert k v m) k' zero = m.getD k' zero := by
  rw [getD, Finmap.lookup_insert_of_ne _ h, getD]

lemma isSome_lookup_iff {m : Dict K V} {k : K} : (m.lookup k).isSome ↔ k ∈ m.keys := by
  rw [Finmap.lookup_isSome, Finmap.mem_keys]

lemma exists_lookup {m : Dict K V} {k : K} (h : k ∈ m.keys) : ∃ v, m.lookup k = some v :=
  Option.isSome_iff_exists.mp (isSome_lookup_iff.mpr h)

lemma lookup_eq_none_iff {m : Dict K V} {k : K} : m.lookup k = none ↔ k ∉ m.keys := by
  rw [← isSome_lookup_iff, Option.not_isSome_iff_eq_none]

/-- A map with all entries of another and no more is the same. -/
lemma eq_of_card {m m' : Dict K V} (hsub : ∀ k v, m.lookup k = some v → m'.lookup k = some v)
    (hcard : m.keys.card = m'.keys.card) : m = m' := by
  have hkeys : m.keys = m'.keys := by
    refine keys_eq_of_card (fun k hk => ?_) hcard
    obtain ⟨v, hv⟩ := exists_lookup hk
    rw [← isSome_lookup_iff, hsub k v hv]
    rfl
  refine Finmap.ext_lookup fun k => ?_
  cases hk : m.lookup k with
  | some v => exact (hsub k v hk).symm
  | none => exact (lookup_eq_none_iff.mpr (hkeys ▸ lookup_eq_none_iff.mp hk)).symm

lemma not_isNone_lookup_iff {m : Dict K V} {k : K} : ¬ (m.lookup k).isNone ↔ k ∈ m.keys := by
  rw [← isSome_lookup_iff]
  cases m.lookup k <;> simp

lemma mem_keys_of_lookup {m : Dict K V} {k : K} {v : V} (h : m.lookup k = some v) : k ∈ m.keys :=
  isSome_lookup_iff.mp (by rw [h]; rfl)

/-- What stands at a key may be written there. -/
lemma insert_lookup_self {m : Dict K V} {k : K} {v : V} (h : m.lookup k = some v) :
    Finmap.insert k v m = m := by
  refine Finmap.ext_lookup fun k' => ?_
  by_cases hk : k' = k
  · subst hk
    rw [Finmap.lookup_insert, h]
  · rw [Finmap.lookup_insert_of_ne _ hk]

lemma keys_insert_of_mem {m : Dict K V} {k : K} (v : V) (h : k ∈ m.keys) :
    Finmap.keys (Finmap.insert k v m) = m.keys := by
  ext k'
  rw [Finmap.mem_keys, Finmap.mem_insert, Finmap.mem_keys]
  refine ⟨fun h' => h'.elim (fun heq => heq ▸ Finmap.mem_keys.mp h) fun h' => h', .inr⟩

/-! ### Insertion of a list of entries -/

/-- The entries of a list with distinct keys are found after their insertion, and other keys keep
what they had. -/
lemma lookup_foldl_insert : ∀ (l : List (K × V)) (m : Dict K V), (l.map Prod.fst).Nodup → ∀ k,
    (∀ v, (k, v) ∈ l → (l.foldl (fun m x => Finmap.insert x.1 x.2 m) m).lookup k = some v)
      ∧ (k ∉ l.map Prod.fst →
        (l.foldl (fun m x => Finmap.insert x.1 x.2 m) m).lookup k = m.lookup k)
  | [], m, _, k => ⟨fun v h => (by cases h), fun _ => rfl⟩
  | x :: l, m, hnodup, k => by
    obtain ⟨hx, hl⟩ := List.nodup_cons.mp hnodup
    obtain ⟨hmem, hnot⟩ := lookup_foldl_insert l (Finmap.insert x.1 x.2 m) hl k
    refine ⟨fun v hv => ?_, fun hk => ?_⟩
    · rcases List.mem_cons.mp hv with rfl | hv
      · rw [List.foldl_cons, hnot hx, Finmap.lookup_insert]
      · exact hmem v hv
    · rw [List.map_cons, List.mem_cons, not_or] at hk
      rw [List.foldl_cons, hnot hk.2, Finmap.lookup_insert_of_ne _ hk.1]

variable [LE K] [DecidableLE K] [Std.Total fun a b : K => a ≤ b]
  [Std.Antisymm fun a b : K => a ≤ b] [IsTrans K fun a b => a ≤ b]

/-- The loop over a map that writes one entry for each of its entries. -/
def build (f : K → V → W) (m : Dict K V) (base : Dict K W) : Dict K W :=
  m.sorted.foldl (fun acc x => Finmap.insert x.1 (f x.1 x.2) acc) base

/-- The loop in which an entry may be refused. -/
def buildM {ε : Type} (f : K → V → Except ε W) (m : Dict K V) (base : Dict K W) :
    Except ε (Dict K W) :=
  m.sorted.foldlM (fun acc x => (f x.1 x.2).map fun w => Finmap.insert x.1 w acc) base

lemma lookup_build (f : K → V → W) (m : Dict K V) (base : Dict K W) (k : K) :
    (build f m base).lookup k = ((m.lookup k).map (f k)).or (base.lookup k) := by
  have hfst : (m.sorted.map fun x => (x.1, f x.1 x.2)).map Prod.fst = m.sorted.map Prod.fst := by
    simp
  have hfold : build f m base = (m.sorted.map fun x => (x.1, f x.1 x.2)).foldl
      (fun acc x => Finmap.insert x.1 x.2 acc) base := by
    rw [List.foldl_map, build]
  obtain ⟨hmem, hnot⟩ := lookup_foldl_insert (m.sorted.map fun x => (x.1, f x.1 x.2)) base
    (hfst ▸ sorted_nodup m) k
  rw [hfold]
  cases hk : m.lookup k with
  | some v => exact hmem (f k v) (List.mem_map.mpr ⟨(k, v), mem_sorted.mpr hk, rfl⟩)
  | none =>
    refine hnot fun h => ?_
    obtain ⟨⟨k', v⟩, hv, rfl⟩ := List.mem_map.mp (hfst ▸ h)
    rw [mem_sorted.mp hv] at hk
    cases hk

/-- The loop over a map that copies its entries builds it again. -/
lemma build_self (m : Dict K V) : build (fun _ v => v) m ∅ = m := by
  refine Finmap.ext_lookup fun k => ?_
  rw [lookup_build, Finmap.lookup_empty, Option.or_none, Option.map_id']

lemma keys_build (f : K → V → W) (m : Dict K V) : (build f m ∅).keys = m.keys := by
  ext k
  rw [← isSome_lookup_iff, ← isSome_lookup_iff, lookup_build, Finmap.lookup_empty, Option.or_none,
    Option.isSome_map]

/-- The loop that writes an entry for those of the entries that it keeps. -/
def select (f : K → V → Option W) (m : Dict K V) : Dict K W :=
  (m.sorted.filterMap fun x => (f x.1 x.2).map fun w => (x.1, w)).foldl
    (fun acc x => Finmap.insert x.1 x.2 acc) ∅

section Except

variable {ε : Type} {m : Dict K V} {f : K → V → Except ε W} {base m' : Dict K W} {k : K} {v : V}

/-- A check of every entry succeeds when each check does. -/
lemma forM_sorted {f : K × V → Except ε Unit} :
    m.sorted.forM f = .ok () ↔ ∀ k v, m.lookup k = some v → f (k, v) = .ok () := by
  rw [Fallible.forM_eq_ok]
  exact ⟨fun h k v hv => h (k, v) (mem_sorted.mpr hv), fun h x hx => h x.1 x.2 (mem_sorted.mp hx)⟩

/-- The loop in which no entry is refused. -/
lemma buildM_of_ok {g : K → V → W} (h : ∀ k v, m.lookup k = some v → f k v = .ok (g k v)) :
    buildM f m base = .ok (build g m base) := by
  have hfold : ∀ (l : List (K × V)) (acc : Dict K W), (∀ x ∈ l, f x.1 x.2 = .ok (g x.1 x.2)) →
      l.foldlM (fun acc x => (f x.1 x.2).map fun w => Finmap.insert x.1 w acc) acc
        = .ok (l.foldl (fun acc x => Finmap.insert x.1 (g x.1 x.2) acc) acc) := by
    intro l
    induction l with
    | nil => exact fun acc _ => rfl
    | cons x l ih =>
      intro acc hl
      rw [List.foldlM_cons, hl x (by simp)]
      exact ih _ fun y hy => hl y (by simp [hy])
  exact hfold _ _ fun x hx => h x.1 x.2 (mem_sorted.mp hx)

/-- In a loop that succeeds every entry was computed. -/
lemma ok_of_buildM (h : buildM f m base = .ok m') (hv : m.lookup k = some v) :
    ∃ w, f k v = .ok w := by
  have hfold : ∀ (l : List (K × V)) (acc : Dict K W),
      l.foldlM (fun acc x => (f x.1 x.2).map fun w => Finmap.insert x.1 w acc) acc = .ok m' →
      ∀ x ∈ l, ∃ w, f x.1 x.2 = .ok w := by
    intro l
    induction l with
    | nil => exact fun acc _ x hx => (by cases hx)
    | cons y l ih =>
      intro acc hok x hx
      rw [List.foldlM_cons] at hok
      obtain ⟨acc', hy, hl⟩ := Fallible.of_bind_ok hok
      rcases List.mem_cons.mp hx with rfl | hx
      · cases hw : f x.1 x.2 with
        | ok w => exact ⟨w, rfl⟩
        | error e =>
          rw [hw] at hy
          cases hy
      · exact ih acc' hl x hx
  exact hfold _ _ h (k, v) (mem_sorted.mpr hv)

/-- A loop that succeeds is one that refuses nothing. -/
lemma eq_build_of_buildM (w : W) (h : buildM f m base = .ok m') :
    m' = build (fun k v => (f k v).toOption.getD w) m base := by
  have hok : ∀ k v, m.lookup k = some v → f k v = .ok ((f k v).toOption.getD w) := by
    intro k v hv
    obtain ⟨w', hw'⟩ := ok_of_buildM h hv
    rw [hw']
    rfl
  exact Except.ok.inj (h.symm.trans (buildM_of_ok hok))

/-- The entries a loop that succeeds has built. -/
lemma lookup_of_buildM (h : buildM f m ∅ = .ok m') {w : W} (hw : m'.lookup k = some w) :
    ∃ v, m.lookup k = some v ∧ f k v = .ok w := by
  rw [eq_build_of_buildM w h, lookup_build, Finmap.lookup_empty, Option.or_none,
    Option.map_eq_some_iff] at hw
  obtain ⟨v, hv, hvalue⟩ := hw
  obtain ⟨w', hw'⟩ := ok_of_buildM h hv
  rw [hw'] at hvalue
  obtain rfl : w' = w := hvalue
  exact ⟨v, hv, hw'⟩

/-- It has built one entry for each. -/
lemma lookup_buildM (h : buildM f m ∅ = .ok m') (hv : m.lookup k = some v) :
    ∃ w, m'.lookup k = some w ∧ f k v = .ok w := by
  obtain ⟨w, hw⟩ := ok_of_buildM h hv
  refine ⟨w, ?_, hw⟩
  rw [eq_build_of_buildM w h, lookup_build, hv, Option.map_some, hw]
  rfl

lemma keys_buildM (h : buildM f m ∅ = .ok m') : m'.keys = m.keys := by
  ext k
  constructor
  · intro hk
    obtain ⟨w, hw⟩ := exists_lookup hk
    obtain ⟨v, hv, _⟩ := lookup_of_buildM h hw
    exact mem_keys_of_lookup hv
  · intro hk
    obtain ⟨v, hv⟩ := exists_lookup hk
    obtain ⟨w, hw, _⟩ := lookup_buildM h hv
    exact mem_keys_of_lookup hw

/-- A loop succeeds when no entry is refused. -/
lemma exists_buildM (base : Dict K W) (h : ∀ k v, m.lookup k = some v → ∃ w, f k v = .ok w) :
    ∃ m', buildM f m base = .ok m' := by
  have hfold : ∀ (l : List (K × V)) (acc : Dict K W), (∀ x ∈ l, ∃ w, f x.1 x.2 = .ok w) →
      ∃ m', l.foldlM (fun acc x => (f x.1 x.2).map fun w => Finmap.insert x.1 w acc) acc
        = .ok m' := by
    intro l
    induction l with
    | nil => exact fun acc _ => ⟨acc, rfl⟩
    | cons x l ih =>
      intro acc hl
      obtain ⟨w, hw⟩ := hl x (by simp)
      rw [List.foldlM_cons, hw]
      exact ih _ fun y hy => hl y (by simp [hy])
  exact hfold _ _ fun x hx => h x.1 x.2 (mem_sorted.mp hx)

end Except

end Lookup

end Dict
