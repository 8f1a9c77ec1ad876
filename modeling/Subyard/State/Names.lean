import Subyard.Library.Fresh
import Subyard.State.Projects

/-!
The plan that makes the names of legacy projects unique.

* `planProjectNameMigration`: the function of the store.  Its search for a free suffix has no
  bound in the source; here it ends with the given one, and `none` stands for a search that is
  still going, or for the slice that is out of range after `10 ^ 48` suffixes.
* `keepersOf_spec`, `hasForeignProjectID_iff`, `protectedOf_iff`: what the plan looks up.
* `Named`: what it assigns; `plan_found`: **the plan ends with such names**.
-/

namespace Subyard.State

open Text Fallible

/-! ### Free names -/

/-- The name with a suffix, cut to fifty bytes. -/
def suffixedName (base : Bytes) (suffix : ℕ) : Option Bytes :=
  let tail := 45 :: decimal suffix
  if tail.length > 50 then none else some (base.take (50 - tail.length) ++ tail)

def nextAvailableProjectName (fuel : ℕ) (base : Bytes) (available : Bytes → Bool) : Option Bytes :=
  Fresh.search (suffixedName base) available fuel 2

/-! ### The plan -/

/-- A map of the source. -/
abbrev Index.Map (V : Type) := Bytes → Option V

/-- An assignment in a map. -/
def Index.set {V : Type} (m : Bytes → V) (key : Bytes) (value : V) : Bytes → V :=
  fun k => if k = key then value else m k

lemma Index.set_self {V : Type} (m : Bytes → V) (key : Bytes) (value : V) :
    Index.set m key value key = value := if_pos rfl

lemma Index.set_of_ne {V : Type} {m : Bytes → V} {key k : Bytes} {value : V} (h : k ≠ key) :
    Index.set m key value k = m k := if_neg h

/-- A loop that enters some of its elements into a map, if a condition on the map holds. -/
def Index.enter {α V : Type} (p : Index.Map V → α → Bool) (key : α → Bytes) (value : α → V)
    (l : List α) (m : Index.Map V) : Index.Map V :=
  l.foldl (fun m x => if p m x then Index.set m (key x) (some (value x)) else m) m

/-- The name a record is to have: its own, or its id cut to fifty bytes. -/
def ProjectRecord.base (record : ProjectRecord) : Bytes :=
  if safeProjectName record.name then record.name else record.projectID.take 50

def ProjectRecord.baseKey (record : ProjectRecord) : Bytes := projectNameKey record.base

def ProjectRecord.idKey (record : ProjectRecord) : Bytes := projectNameKey record.projectID

/-- The first record with a name is its keeper. -/
def firstKeepers (records : List ProjectRecord) : Index.Map ℕ :=
  Index.enter (fun keepers x => (keepers x.1.baseKey).isNone) (·.1.baseKey) (·.2) records.zipIdx
    fun _ => none

/-- Canonical records take names over. -/
def keepersOf (records : List ProjectRecord) : Index.Map ℕ :=
  Index.enter (fun _ x => x.1.identityVersion = 2) (·.1.baseKey) (·.2) records.zipIdx
    (firstKeepers records)

/-- The ids with a key. -/
def idOwnersOf (records : List ProjectRecord) : Bytes → List Bytes :=
  records.foldl (fun owners record =>
    Index.set owners record.idKey (owners record.idKey ++ [record.projectID])) fun _ => []

def hasForeignProjectID (owners : List Bytes) (projectID : Bytes) : Bool :=
  owners.any (· ≠ projectID)

/-- The names that are kept for their keepers: not those that are another record's id.  A keeper
is met once, at its own index. -/
def protectedOf (records : List ProjectRecord) : Index.Map Bytes :=
  Index.enter (fun _ x => keepersOf records x.1.baseKey = some x.2
      && !hasForeignProjectID (idOwnersOf records x.1.baseKey) x.1.projectID)
    (·.1.baseKey) (·.1.projectID) records.zipIdx fun _ => none

/-- What the plan looks up of the sorted records. -/
structure Index where
  keepers : Index.Map ℕ
  idOwners : Bytes → List Bytes
  guarded : Index.Map Bytes
  bases : List Bytes

def Index.of (records : List ProjectRecord) : Index where
  keepers := keepersOf records
  idOwners := idOwnersOf records
  guarded := protectedOf records
  bases := records.map ProjectRecord.base

/-- `projectNameUnavailable`. -/
def Index.unavailable (index : Index) (assigned : Index.Map Bytes) (projectID name : Bytes) : Bool :=
  let key := projectNameKey name
  hasForeignProjectID (index.idOwners key) projectID
    || (index.guarded key).any (· ≠ projectID)
    || (assigned key).any (· ≠ projectID)

/-- The name of the record at a position. -/
def Index.nameFor (index : Index) (fuel : ℕ) (assigned : Index.Map Bytes) (record : ProjectRecord)
    (position : ℕ) : Option Bytes :=
  let keeper := (index.keepers record.baseKey).getD 0
  let base := index.bases.getD keeper []
  if (index.keepers (projectNameKey base)).getD 0 ≠ position
      ∨ index.unavailable assigned record.projectID base then
    nextAvailableProjectName fuel base fun candidate =>
      !index.unavailable assigned record.projectID candidate
  else some base

/-- The loop that gives the names. -/
def Index.nameAll (index : Index) (fuel : ℕ) : Index.Map Bytes → List (ProjectRecord × ℕ) →
    Option (List (ProjectRecord × Bytes))
  | _, [] => some []
  | assigned, (record, position) :: rest => do
      let name ← index.nameFor fuel assigned record position
      let named ← index.nameAll fuel
        (Index.set assigned (projectNameKey name) (some record.projectID)) rest
      pure ((record, name) :: named)

structure MigrationTarget where
  projectID : Bytes
  name : Bytes
  sourceKey : Bytes
deriving DecidableEq, Repr

/-- The source key a record is to have. -/
def ProjectRecord.recordedKey (record : ProjectRecord) : Bytes :=
  if record.sourceKey = [] ∧ record.hostPath ≠ [] then State.sourceKey record.hostPath
  else record.sourceKey

/-- The target of a record that is not as it is to be. -/
def migrationTarget (record : ProjectRecord) (name : Bytes) : Option MigrationTarget :=
  if record.name ≠ name ∨ record.sourceKey ≠ record.recordedKey then
    some ⟨record.projectID, name, record.recordedKey⟩
  else none

def planProjectNameMigration (fuel : ℕ) (records : List ProjectRecord) :
    Option (List MigrationTarget) := do
  let sorted := importOrder records
  let named ← (Index.of sorted).nameAll fuel (fun _ => none) sorted.zipIdx
  pure (named.filterMap fun (record, name) => migrationTarget record name)

/-! ### Keys and safe names -/

@[simp] lemma projectNameKey_append (a b : Bytes) :
    projectNameKey (a ++ b) = projectNameKey a ++ projectNameKey b := List.map_append

/-- Digits and the dash have no case. -/
lemma projectNameKey_tail (n : ℕ) : projectNameKey (45 :: decimal n) = 45 :: decimal n := by
  have hdigit : ∀ b : UInt8, isDigit b → (if isUpper b then b + 32 else b) = b :=
    forall_octet (by decide +kernel)
  have hdecimal : projectNameKey (decimal n) = decimal n :=
    (List.map_congr_left fun b hb =>
      hdigit b (List.all_eq_true.mp (decimal_spec n).2 b hb)).trans (List.map_id _)
  rw [projectNameKey, List.map_cons]
  exact congrArg (45 :: ·) hdecimal

/-- What follows the last dash. -/
lemma eq_of_append_dash {a b ds es : Bytes} (hds : (45 : UInt8) ∉ ds) (hes : (45 : UInt8) ∉ es)
    (h : a ++ 45 :: ds = b ++ 45 :: es) : ds = es := by
  rcases List.append_eq_append_iff.mp h with ⟨c, _, hc⟩ | ⟨c, _, hc⟩
  all_goals
    cases c with
    | nil => simp_all
    | cons x c =>
      simp only [List.cons_append, List.cons.injEq] at hc
      simp [hc.2] at hds hes

lemma dash_notMem_decimal (n : ℕ) : (45 : UInt8) ∉ decimal n := fun hmem => by
  have := List.all_eq_true.mp (decimal_spec n).2 45 hmem
  exact absurd this (by decide)

/-- Names with different suffixes have different keys. -/
lemma suffixedName_injective {base c d : Bytes} {m n : ℕ} (hc : suffixedName base m = some c)
    (hd : suffixedName base n = some d) (hkey : projectNameKey c = projectNameKey d) : m = n := by
  simp only [suffixedName, Option.ite_none_left_eq_some, Option.some.injEq] at hc hd
  rw [← hc.2, ← hd.2, projectNameKey_append, projectNameKey_append, projectNameKey_tail,
    projectNameKey_tail] at hkey
  exact decimal_injective (eq_of_append_dash (dash_notMem_decimal m) (dash_notMem_decimal n) hkey)

lemma length_tail_le {n : ℕ} (h : n < 10 ^ 48) : (45 :: decimal n).length ≤ 49 := by
  have := length_decimal_le (show 48 ≠ 0 by decide) h
  rw [List.length_cons]
  omega

lemma isSome_suffixedName (base : Bytes) {n : ℕ} (h : n < 10 ^ 48) :
    (suffixedName base n).isSome := by
  have := length_tail_le h
  rw [suffixedName, if_neg (by omega)]
  rfl

/-- The characters of a safe name. -/
def isIDChar (b : UInt8) : Bool :=
  (97 ≤ b && b ≤ 122) || (65 ≤ b && b ≤ 90) || (48 ≤ b && b ≤ 57) || b = 46 || b = 95 || b = 45

lemma domainSafeID_iff {value : Bytes} : domainSafeID value ↔ value ≠ [] ∧ value ≠ str "."
    ∧ value ≠ str ".." ∧ value.head? ≠ some 45 ∧ value.all isIDChar := by
  simp only [domainSafeID, Bool.and_eq_true, decide_eq_true_eq, and_assoc]
  rfl

/-- The start of a safe id, with characters that are allowed after it, is safe. -/
lemma domainSafeID_take {value tail : Bytes} {n : ℕ} (h : domainSafeID value) (hn : n ≠ 0)
    (htail : tail.all isIDChar) (hdots : tail ≠ [] ∧ (45 : UInt8) ∈ tail ∨ 2 < (value.take n).length) :
    domainSafeID (value.take n ++ tail) := by
  obtain ⟨hne, _, _, hhead, hall⟩ := domainSafeID_iff.mp h
  obtain ⟨b, rest, rfl⟩ := List.exists_cons_of_ne_nil hne
  obtain ⟨n, rfl⟩ := Nat.exists_eq_succ_of_ne_zero hn
  have hlong : ∀ dots : Bytes, (45 : UInt8) ∉ dots → dots.length ≤ 2 →
      (b :: rest).take (n + 1) ++ tail ≠ dots := by
    intro dots hdash hlength heq
    rcases hdots with ⟨_, hmem⟩ | hlt
    · exact hdash (heq ▸ List.mem_append_right _ hmem)
    · rw [← heq, List.length_append] at hlength
      exact absurd hlt (by rw [Nat.succ_eq_add_one]; omega)
  refine domainSafeID_iff.mpr ⟨by simp, hlong _ (by decide) (by decide), hlong _ (by decide)
    (by decide), by simpa using hhead, ?_⟩
  rw [List.all_append, Bool.and_eq_true]
  exact ⟨List.all_eq_true.mpr fun x hx => List.all_eq_true.mp hall x (List.mem_of_mem_take hx),
    htail⟩

lemma isIDChar_tail (n : ℕ) : (45 :: decimal n).all isIDChar := by
  have hdigit : ∀ b : UInt8, isDigit b → isIDChar b := forall_octet (by decide +kernel)
  rw [List.all_cons, Bool.and_eq_true]
  refine ⟨by decide, List.all_eq_true.mpr fun b hb => hdigit b ?_⟩
  exact List.all_eq_true.mp (decimal_spec n).2 b hb

/-- A safe name with a suffix is safe. -/
lemma safeProjectName_suffixedName {base c : Bytes} {n : ℕ} (hbase : safeProjectName base)
    (hn : n < 10 ^ 48) (hc : suffixedName base n = some c) : safeProjectName c := by
  have htail := length_tail_le hn
  simp only [suffixedName, Option.ite_none_left_eq_some, Option.some.injEq] at hc
  rw [safeProjectName, Bool.and_eq_true] at hbase ⊢
  rw [← hc.2]
  constructor
  · rw [decide_eq_true_eq, List.length_append, List.length_take]
    omega
  · exact domainSafeID_take hbase.2 (by omega) (isIDChar_tail n)
      (.inl ⟨List.cons_ne_nil _ _, List.mem_cons_self⟩)

/-- The name a record is to have is safe. -/
lemma safeProjectName_base {record : ProjectRecord} (h : domainSafeID record.projectID) :
    safeProjectName record.base := by
  rw [ProjectRecord.base]
  split
  next hsafe => exact hsafe
  next =>
    rw [safeProjectName, Bool.and_eq_true, decide_eq_true_eq]
    refine ⟨List.length_take_le _ _, ?_⟩
    by_cases hlong : 2 < (record.projectID.take 50).length
    · have := domainSafeID_take h (by decide) (show ([] : Bytes).all isIDChar from rfl) (.inr hlong)
      rwa [List.append_nil] at this
    · rw [List.length_take] at hlong
      rwa [List.take_of_length_le (by omega)]

/-! ### What is looked up -/

section Lookup

variable {records : List ProjectRecord} {k : Bytes} {V α : Type} {p : Index.Map V → α → Bool}
  {key : α → Bytes} {value : α → V} {l : List α}

/-- What a loop leaves under a key is one of the values it entered. -/
lemma Index.enter_some {v : V} : ∀ {m : Index.Map V}, Index.enter p key value l m k = some v →
      m k = some v ∨ ∃ x ∈ l, (∃ m', p m' x) ∧ key x = k ∧ value x = v := by
  induction l with
  | nil => exact .inl
  | cons x l ih =>
    intro m h
    rcases ih h with h | ⟨y, hy, hkey⟩
    · dsimp only at h
      by_cases hk : k = key x ∧ p m x
      · obtain ⟨rfl, hp⟩ := hk
        rw [if_pos hp, Index.set_self] at h
        exact .inr ⟨x, List.mem_cons_self, ⟨m, hp⟩, rfl, Option.some.inj h⟩
      · refine .inl ?_
        split at h
        next hp => rwa [Index.set_of_ne fun hkey => hk ⟨hkey, hp⟩] at h
        next => exact h
    · exact .inr ⟨y, List.mem_cons_of_mem _ hy, hkey⟩

/-- It keeps the keys there are. -/
lemma Index.enter_isSome : ∀ {m : Index.Map V}, (m k).isSome →
      (Index.enter p key value l m k).isSome := by
  induction l with
  | nil => exact id
  | cons x l ih =>
    intro m h
    refine ih ?_
    dsimp only
    split
    next =>
      by_cases hk : k = key x
      · rw [hk, Index.set_self]
        rfl
      · rwa [Index.set_of_ne hk]
    next => exact h

/-- The key of an element is there, if it is entered where there is none. -/
lemma Index.enter_of_mem {x : α} {m : Index.Map V} (hx : x ∈ l)
    (hp : ∀ m : Index.Map V, m (key x) = none → p m x) :
    (Index.enter p key value l m (key x)).isSome := by
  obtain ⟨before, after, rfl⟩ := List.append_of_mem hx
  rw [Index.enter, List.foldl_append, List.foldl_cons]
  refine Index.enter_isSome ?_
  split
  next => rw [Index.set_self]; rfl
  next hnot => exact Option.isSome_iff_ne_none.mpr fun hnone => hnot (hp _ hnone)

/-- A keeper of a name has that name. -/
lemma keepersOf_spec {i : ℕ} (h : keepersOf records k = some i) :
    ∃ record, records[i]? = some record ∧ record.baseKey = k := by
  have hentered : ∃ x ∈ records.zipIdx, x.1.baseKey = k ∧ x.2 = i := by
    rcases Index.enter_some h with h | ⟨x, hx, _, hkey⟩
    · obtain ⟨x, hx, _, hkey⟩ := (Index.enter_some h).resolve_left nofun
      exact ⟨x, hx, hkey⟩
    · exact ⟨x, hx, hkey⟩
  obtain ⟨⟨record, j⟩, hx, hkey, rfl⟩ := hentered
  exact ⟨record, List.mem_zipIdx_iff_getElem?.mp hx, hkey⟩

/-- A loop that only enters what is there already. -/
lemma Index.enter_const {v : V} : ∀ {m : Index.Map V}, m k = some v →
      (∀ x ∈ l, (∃ m', p m' x) → key x = k → value x = v) →
      Index.enter p key value l m k = some v := by
  induction l with
  | nil => exact fun h _ => h
  | cons x l ih =>
    intro m h hx
    refine ih ?_ fun y hy => hx y (List.mem_cons_of_mem _ hy)
    dsimp only
    split
    next hp =>
      by_cases hk : k = key x
      · rw [hk, Index.set_self, hx x List.mem_cons_self ⟨m, hp⟩ hk.symm]
      · rwa [Index.set_of_ne hk]
    next => exact h

/-- The first keeper of a name is the first record with it. -/
lemma firstKeepers_eq (k : Bytes) :
    firstKeepers records k = records.findIdx? (·.baseKey = k) := by
  have hloop : ∀ (l : List ProjectRecord) (n : ℕ) (m : Index.Map ℕ),
      Index.enter (fun keepers (x : ProjectRecord × ℕ) => (keepers x.1.baseKey).isNone)
        (·.1.baseKey) (·.2) (l.zipIdx n) m k
      = (m k).or ((l.findIdx? (·.baseKey = k)).map (· + n)) := by
    intro l
    induction l with
    | nil => intro n m; cases h : m k <;> simp [Index.enter, h]
    | cons r l ih =>
      intro n m
      rw [List.zipIdx_cons, Index.enter, List.foldl_cons]
      refine (ih (n + 1) _).trans ?_
      dsimp only
      rw [List.findIdx?_cons]
      by_cases hk : r.baseKey = k
      · cases hm : m k <;> simp [hk, hm, Index.set_self]
      · have hne : k ≠ r.baseKey := Ne.symm hk
        cases m r.baseKey <;> cases hk' : m k
          <;> simp [hk, hk', Index.set_of_ne hne, Function.comp_def, Nat.add_assoc,
            Nat.add_comm 1 n]
  rw [firstKeepers, hloop, Option.none_or]
  simp

/-- The first record with a name is its keeper, if no canonical one after it has the name. -/
lemma keepersOf_first {i : ℕ} (hfirst : records.findIdx? (·.baseKey = k) = some i)
    (hcanonical : ∀ j record, records[j]? = some record → record.identityVersion = 2 →
      record.baseKey = k → j = i) : keepersOf records k = some i := by
  refine Index.enter_const ((firstKeepers_eq k).trans hfirst) ?_
  rintro ⟨record, j⟩ hx ⟨_, hversion⟩ hkey
  exact hcanonical j record (List.mem_zipIdx_iff_getElem?.mp hx) (of_decide_eq_true hversion) hkey

/-- Every name has a keeper. -/
lemma isSome_keepersOf {record : ProjectRecord} (h : record ∈ records) :
    (keepersOf records record.baseKey).isSome := by
  obtain ⟨i, hi⟩ := List.mem_iff_getElem?.mp h
  have hmem : (record, i) ∈ records.zipIdx := List.mem_zipIdx_iff_getElem?.mpr hi
  exact Index.enter_isSome (Index.enter_of_mem hmem fun m hm => by rw [hm]; rfl)

/-- The ids with a key, in order. -/
lemma idOwnersOf_eq (k : Bytes) :
    idOwnersOf records k = (records.filter (·.idKey = k)).map (·.projectID) := by
  have hfold : ∀ (l : List ProjectRecord) (owners : Bytes → List Bytes),
      l.foldl (fun (owners : Bytes → List Bytes) record => Index.set owners record.idKey
        (owners record.idKey ++ [record.projectID])) owners k
      = owners k ++ (l.filter (·.idKey = k)).map (·.projectID) := by
    intro l
    induction l with
    | nil => simp
    | cons record l ih =>
      intro owners
      rw [List.foldl_cons, ih]
      by_cases hk : record.idKey = k
      · rw [hk, Index.set_self, List.filter_cons_of_pos (by simpa using hk)]
        simp
      · rw [Index.set_of_ne (Ne.symm hk), List.filter_cons_of_neg (by simpa using hk)]
  rw [idOwnersOf, hfold, List.nil_append]

/-- A key is foreign if it is that of another id. -/
lemma hasForeignProjectID_iff {id : Bytes} : hasForeignProjectID (idOwnersOf records k) id
      ↔ ∃ record ∈ records, record.idKey = k ∧ record.projectID ≠ id := by
  simp [hasForeignProjectID, idOwnersOf_eq]

/-- A name is kept for its keeper, if it is not another id. -/
lemma protectedOf_iff {id : Bytes} : protectedOf records k = some id
    ↔ ∃ i record, keepersOf records k = some i ∧ records[i]? = some record
      ∧ record.projectID = id ∧ ¬ hasForeignProjectID (idOwnersOf records k) id := by
  have hentered : ∀ id', protectedOf records k = some id' → ∃ i record,
      keepersOf records k = some i ∧ records[i]? = some record ∧ record.projectID = id'
        ∧ ¬ hasForeignProjectID (idOwnersOf records k) id' := by
    intro id' h
    obtain ⟨⟨record, i⟩, hx, ⟨_, hp⟩, rfl, rfl⟩ := (Index.enter_some h).resolve_left nofun
    simp only [Bool.and_eq_true, decide_eq_true_eq, Bool.not_eq_true'] at hp
    exact ⟨i, record, hp.1, List.mem_zipIdx_iff_getElem?.mp hx, rfl, by simp [hp.2]⟩
  refine ⟨hentered id, ?_⟩
  rintro ⟨i, record, hkeeper, hi, rfl, hown⟩
  obtain ⟨record', hi', rfl⟩ := keepersOf_spec hkeeper
  obtain rfl : record' = record := Option.some.inj (hi'.symm.trans hi)
  have hmem : (record', i) ∈ records.zipIdx := List.mem_zipIdx_iff_getElem?.mpr hi
  have hsome : (protectedOf records record'.baseKey).isSome :=
    Index.enter_of_mem hmem fun _ _ => by simp [hkeeper, hown]
  obtain ⟨id', hid'⟩ := Option.isSome_iff_exists.mp hsome
  obtain ⟨j, other, hj, hother, rfl, _⟩ := hentered id' hid'
  obtain rfl : j = i := Option.some.inj (hj.symm.trans hkeeper)
  obtain rfl : other = record' := Option.some.inj (hother.symm.trans hi)
  exact hid'

/-- A name is available to an id if no other id holds its key, as id, keeper or assigned name. -/
lemma unavailable_iff {assigned : Index.Map Bytes} {id name : Bytes} :
    ¬ (Index.of records).unavailable assigned id name
      ↔ (∀ record ∈ records, record.idKey = projectNameKey name → record.projectID = id)
        ∧ (∀ id', protectedOf records (projectNameKey name) = some id' → id' = id)
        ∧ ∀ id', assigned (projectNameKey name) = some id' → id' = id := by
  have hany : ∀ o : Option Bytes, o.any (· ≠ id) = false ↔ ∀ id', o = some id' → id' = id := by
    intro o
    cases o <;> simp
  simp only [Index.unavailable, Index.of, Bool.or_eq_true, not_or, Bool.not_eq_true, hany, and_assoc]
  refine and_congr_left fun _ => ?_
  rw [← Bool.not_eq_true, hasForeignProjectID_iff]
  push Not
  rfl

end Lookup

/-! ### What is assigned -/

/-- The map of the names given so far. -/
structure Assigned (assigned : Index.Map Bytes) (done : List (ProjectRecord × Bytes)) : Prop where
  of_mem : ∀ x ∈ done, assigned (projectNameKey x.2) = some x.1.projectID
  mem_of : ∀ k id, assigned k = some id →
    ∃ x ∈ done, projectNameKey x.2 = k ∧ x.1.projectID = id

/-- **The names that are given**: safe, no other record's id or kept name, distinct for different
ids, and the own one for a keeper whose name is not another id. -/
structure Named (records : List ProjectRecord) (done : List (ProjectRecord × Bytes)) : Prop where
  safe : ∀ x ∈ done, safeProjectName x.2
  own : ∀ x ∈ done, ∀ record ∈ records, record.idKey = projectNameKey x.2 →
    record.projectID = x.1.projectID
  guarded : ∀ x ∈ done, ∀ id, protectedOf records (projectNameKey x.2) = some id →
    id = x.1.projectID
  distinct : ∀ x ∈ done, ∀ y ∈ done, projectNameKey x.2 = projectNameKey y.2 →
    x.1.projectID = y.1.projectID
  kept : ∀ i x, done[i]? = some x → keepersOf records x.1.baseKey = some i →
    ¬ hasForeignProjectID (idOwnersOf records x.1.baseKey) x.1.projectID → x.2 = x.1.base

section Assign

variable {records : List ProjectRecord} {fuel : ℕ} {assigned : Index.Map Bytes}
  {record : ProjectRecord} {position : ℕ} {name : Bytes}

lemma assigned_nil : Assigned (fun _ => none) [] := ⟨nofun, nofun⟩

lemma named_nil : Named records [] := ⟨nofun, nofun, nofun, nofun, nofun⟩

/-- A name is looked for from the one its keeper has. -/
lemma nameFor_eq (fuel : ℕ) (assigned : Index.Map Bytes) (position : ℕ) (h : record ∈ records) :
    ∃ j keeper, keepersOf records record.baseKey = some j
    ∧ records[j]? = some keeper ∧ keeper.baseKey = record.baseKey
    ∧ (Index.of records).nameFor fuel assigned record position
      = if j ≠ position ∨ (Index.of records).unavailable assigned record.projectID keeper.base then
          nextAvailableProjectName fuel keeper.base fun candidate =>
            !(Index.of records).unavailable assigned record.projectID candidate
        else some keeper.base := by
  obtain ⟨j, hj⟩ := Option.isSome_iff_exists.mp (isSome_keepersOf h)
  obtain ⟨keeper, hkeeper, hkey⟩ := keepersOf_spec hj
  have hbase : (Index.of records).bases.getD j [] = keeper.base := by
    simp [Index.of, hkeeper]
  have hagain : (Index.of records).keepers (projectNameKey keeper.base) = some j := by
    rw [← hj, ← hkey]
    rfl
  refine ⟨j, keeper, hj, hkeeper, hkey, ?_⟩
  rw [Index.nameFor, show (Index.of records).keepers record.baseKey = some j from hj]
  simp only [Option.getD_some, hbase, hagain]

/-- A name that is given is safe and available. -/
lemma nameFor_ok (hsafe : ∀ record ∈ records, domainSafeID record.projectID)
    (hfuel : fuel + 2 ≤ 10 ^ 48) (h : record ∈ records)
    (hname : (Index.of records).nameFor fuel assigned record position = some name) :
    safeProjectName name ∧ ¬ (Index.of records).unavailable assigned record.projectID name := by
  obtain ⟨j, keeper, _, hkeeper, _, heq⟩ := nameFor_eq fuel assigned position h
  have hbase := safeProjectName_base (hsafe keeper (List.mem_of_getElem? hkeeper))
  rw [heq] at hname
  split at hname
  next =>
    obtain ⟨havailable, i, hi, hc⟩ := Fresh.search_spec hname
    exact ⟨safeProjectName_suffixedName hbase (by omega) hc, by simpa using havailable⟩
  next hfree =>
    cases hname
    exact ⟨hbase, (not_or.mp hfree).2⟩

/-- A keeper gets its own name if that is available. -/
lemma nameFor_keeper (hrecord : records[position]? = some record)
    (hkeeper : keepersOf records record.baseKey = some position)
    (hfree : ¬ (Index.of records).unavailable assigned record.projectID record.base) :
    (Index.of records).nameFor fuel assigned record position = some record.base := by
  obtain ⟨j, keeper, hj, hk, _, heq⟩ :=
    nameFor_eq fuel assigned position (List.mem_of_getElem? hrecord)
  obtain rfl : j = position := Option.some.inj (hj.symm.trans hkeeper)
  obtain rfl : keeper = record := Option.some.inj (hk.symm.trans hrecord)
  rw [heq, if_neg (not_or.mpr ⟨not_not.mpr rfl, hfree⟩)]

/-- A name is found in time. -/
lemma nameFor_found {done : List (ProjectRecord × Bytes)} (position : ℕ) (h : record ∈ records)
    (hassigned : Assigned assigned done) (hfuel : 2 * records.length + done.length < fuel)
    (hbound : fuel + 2 ≤ 10 ^ 48) :
    ∃ name, (Index.of records).nameFor fuel assigned record position = some name := by
  obtain ⟨j, keeper, _, _, _, heq⟩ := nameFor_eq fuel assigned position h
  rw [heq]
  split
  next =>
    -- the keys that are taken are those of ids, of kept names and of names given before
    let taken : Finset Bytes := (records.map (·.idKey)).toFinset
      ∪ (records.map (·.baseKey)).toFinset ∪ (done.map (projectNameKey ·.2)).toFinset
    have hcard : taken.card ≤ 2 * records.length + done.length := by
      have h1 := List.toFinset_card_le (records.map (·.idKey))
      have h2 := List.toFinset_card_le (records.map (·.baseKey))
      have h3 := List.toFinset_card_le (done.map (projectNameKey ·.2))
      have h4 : taken.card ≤ _ := Finset.card_union_le ((records.map (·.idKey)).toFinset
        ∪ (records.map (·.baseKey)).toFinset) (done.map (projectNameKey ·.2)).toFinset
      have h5 := Finset.card_union_le (records.map (·.idKey)).toFinset
        (records.map (·.baseKey)).toFinset
      simp only [List.length_map] at h1 h2 h3
      omega
    refine Fresh.search_found projectNameKey taken (fun i hi => ?_)
      (fun i _ j _ c d hc hd hkey => ?_) (fun c hc => ?_) (hcard.trans_lt hfuel)
    · exact isSome_suffixedName _ (by omega)
    · exact Nat.add_left_cancel (suffixedName_injective hc hd hkey)
    · by_contra hfree
      simp only [taken, Finset.mem_union, List.mem_toFinset, List.mem_map, not_or, not_exists,
        not_and] at hfree
      obtain ⟨⟨hid, hkept⟩, hgiven⟩ := hfree
      refine hc ?_
      rw [Bool.not_eq_true', ← Bool.not_eq_true, unavailable_iff]
      refine ⟨fun r hr hkey => absurd hkey (hid r hr), fun id hguard => ?_, fun id hkey => ?_⟩
      · obtain ⟨i, r, hkeeper, hr, _⟩ := protectedOf_iff.mp hguard
        obtain ⟨r', hr', hkey⟩ := keepersOf_spec hkeeper
        exact absurd hkey (hkept r' (List.mem_of_getElem? hr'))
      · obtain ⟨x, hx, hkey, _⟩ := hassigned.mem_of _ _ hkey
        exact absurd hkey (hgiven x hx)
  next => exact ⟨_, rfl⟩

/-- The map after one more name. -/
lemma Assigned.give {done : List (ProjectRecord × Bytes)} (h : Assigned assigned done)
    (hfree : ∀ id, assigned (projectNameKey name) = some id → id = record.projectID) :
    Assigned (Index.set assigned (projectNameKey name) (some record.projectID))
      (done ++ [(record, name)]) := by
  constructor
  · intro x hx
    rcases List.mem_append.mp hx with hx | hx
    · by_cases hkey : projectNameKey x.2 = projectNameKey name
      · have hsame := h.of_mem x hx
        rw [hkey] at hsame
        rw [hkey, Index.set_self, hfree _ hsame]
      · rw [Index.set_of_ne hkey]
        exact h.of_mem x hx
    · rw [List.mem_singleton.mp hx, Index.set_self]
  · intro k id hk
    by_cases hkey : k = projectNameKey name
    · rw [hkey, Index.set_self] at hk
      exact ⟨(record, name), by simp, hkey.symm, Option.some.inj hk⟩
    · rw [Index.set_of_ne hkey] at hk
      obtain ⟨x, hx, hspec⟩ := h.mem_of k id hk
      exact ⟨x, List.mem_append_left _ hx, hspec⟩

/-- One more name. -/
lemma Named.give {done : List (ProjectRecord × Bytes)}
    (hsafe : ∀ record ∈ records, domainSafeID record.projectID) (hfuel : fuel + 2 ≤ 10 ^ 48)
    (hassigned : Assigned assigned done) (h : Named records done)
    (hrecord : records[done.length]? = some record)
    (hname : (Index.of records).nameFor fuel assigned record done.length = some name) :
    Named records (done ++ [(record, name)])
      ∧ Assigned (Index.set assigned (projectNameKey name) (some record.projectID))
        (done ++ [(record, name)]) := by
  obtain ⟨hsafeName, hfree⟩ := nameFor_ok hsafe hfuel (List.mem_of_getElem? hrecord) hname
  obtain ⟨hown, hguarded, hgiven⟩ := unavailable_iff.mp hfree
  have hother : ∀ x ∈ done, projectNameKey x.2 = projectNameKey name →
      x.1.projectID = record.projectID := fun x hx hkey =>
    hgiven _ (by rw [← hkey]; exact hassigned.of_mem x hx)
  refine ⟨⟨?_, ?_, ?_, ?_, ?_⟩, hassigned.give hgiven⟩
  · intro x hx
    rcases List.mem_append.mp hx with hx | hx
    · exact h.safe x hx
    · rw [List.mem_singleton.mp hx]
      exact hsafeName
  · intro x hx
    rcases List.mem_append.mp hx with hx | hx
    · exact h.own x hx
    · rw [List.mem_singleton.mp hx]
      exact hown
  · intro x hx
    rcases List.mem_append.mp hx with hx | hx
    · exact h.guarded x hx
    · rw [List.mem_singleton.mp hx]
      exact hguarded
  · intro x hx y hy hkey
    rcases List.mem_append.mp hx with hx | hx <;> rcases List.mem_append.mp hy with hy | hy
    · exact h.distinct x hx y hy hkey
    · rw [List.mem_singleton.mp hy] at hkey ⊢
      exact hother x hx hkey
    · rw [List.mem_singleton.mp hx] at hkey ⊢
      exact (hother y hy hkey.symm).symm
    · rw [List.mem_singleton.mp hx, List.mem_singleton.mp hy]
  · intro i x hi hkeeper hforeign
    rcases lt_or_ge i done.length with hlt | hge
    · rw [List.getElem?_append_left hlt] at hi
      exact h.kept i x hi hkeeper hforeign
    · rw [List.getElem?_append_right hge, List.getElem?_singleton] at hi
      obtain ⟨hzero, hx⟩ := Option.ite_none_right_eq_some.mp hi
      obtain rfl : i = done.length := by omega
      obtain rfl := Option.some.inj hx
      -- the name is kept for its keeper, so none of the names given before is it
      have hguard : protectedOf records record.baseKey = some record.projectID :=
        protectedOf_iff.mpr ⟨_, record, hkeeper, hrecord, rfl, hforeign⟩
      have hbase : ¬ (Index.of records).unavailable assigned record.projectID record.base := by
        refine unavailable_iff.mpr ⟨fun r hr hkey => ?_, fun id hid => ?_, fun id hid => ?_⟩
        · by_contra hne
          exact hforeign (hasForeignProjectID_iff.mpr ⟨r, hr, hkey, hne⟩)
        · exact Option.some.inj (hid.symm.trans hguard)
        · obtain ⟨y, hy, hkey, rfl⟩ := hassigned.mem_of _ _ hid
          exact (h.guarded y hy _ (by rw [hkey]; exact hguard)).symm
      rw [nameFor_keeper hrecord hkeeper hbase] at hname
      exact (Option.some.inj hname).symm

lemma nameAll_cons {index : Index} {rest : List (ProjectRecord × ℕ)}
    {named : List (ProjectRecord × Bytes)}
    (hname : index.nameFor fuel assigned record position = some name)
    (hrest : index.nameAll fuel
      (Index.set assigned (projectNameKey name) (some record.projectID)) rest = some named) :
    index.nameAll fuel assigned ((record, position) :: rest) = some ((record, name) :: named) := by
  rw [Index.nameAll, hname]
  show (Index.nameAll _ _ _ _ >>= _) = _
  rw [hrest]
  rfl

/-- What the loop gives. -/
lemma nameAll_ok (hsafe : ∀ record ∈ records, domainSafeID record.projectID)
    (hfuel : fuel + 2 ≤ 10 ^ 48) : ∀ (l : List ProjectRecord) {done named : List (ProjectRecord × Bytes)}
      {assigned : Index.Map Bytes}, records = done.map Prod.fst ++ l → Assigned assigned done →
      Named records done →
      (Index.of records).nameAll fuel assigned (l.zipIdx done.length) = some named →
      Named records (done ++ named) ∧ named.map Prod.fst = l
  | [], done, named, assigned, _, _, h, hnamed => by
    cases hnamed
    rw [List.append_nil]
    exact ⟨h, rfl⟩
  | record :: l, done, named, assigned, hrecords, hassigned, h, hnamed => by
    rw [List.zipIdx_cons, Index.nameAll] at hnamed
    obtain ⟨name, hname, hnamed⟩ := Option.bind_eq_some_iff.mp hnamed
    obtain ⟨rest, hrest, hnamed⟩ := Option.bind_eq_some_iff.mp hnamed
    obtain rfl := Option.some.inj hnamed
    have hrecord : records[done.length]? = some record := by simp [hrecords]
    obtain ⟨hnext, hmap⟩ := h.give hsafe hfuel hassigned hrecord hname
    have hlength : (done ++ [(record, name)]).length = done.length + 1 := by simp
    rw [← hlength] at hrest
    obtain ⟨hlast, hfst⟩ := nameAll_ok hsafe hfuel l (by simp [hrecords]) hmap hnext hrest
    rw [List.append_cons]
    exact ⟨hlast, by rw [List.map_cons, hfst]⟩

/-- The loop ends. -/
lemma nameAll_found (hsafe : ∀ record ∈ records, domainSafeID record.projectID)
    (hfuel : 3 * records.length < fuel) (hbound : fuel + 2 ≤ 10 ^ 48) :
    ∀ (l : List ProjectRecord) {done : List (ProjectRecord × Bytes)} {assigned : Index.Map Bytes},
      records = done.map Prod.fst ++ l → Assigned assigned done → Named records done →
      ∃ named, (Index.of records).nameAll fuel assigned (l.zipIdx done.length) = some named
  | [], _, _, _, _, _ => ⟨[], rfl⟩
  | record :: l, done, assigned, hrecords, hassigned, h => by
    have hrecord : records[done.length]? = some record := by simp [hrecords]
    have hcount : done.length ≤ records.length := by simp [hrecords]
    obtain ⟨name, hname⟩ := nameFor_found done.length
      (List.mem_of_getElem? hrecord) hassigned (by omega) hbound
    obtain ⟨hnext, hmap⟩ := h.give hsafe hbound hassigned hrecord hname
    obtain ⟨rest, hrest⟩ := nameAll_found hsafe hfuel hbound l (by simp [hrecords]) hmap hnext
    have hlength : (done ++ [(record, name)]).length = done.length + 1 := by simp
    rw [hlength] at hrest
    exact ⟨(record, name) :: rest, nameAll_cons hname hrest⟩

/-- More steps give the same. -/
lemma nameAll_mono {index : Index} {fuel' : ℕ} (hle : fuel ≤ fuel') :
    ∀ {l : List (ProjectRecord × ℕ)} {assigned : Index.Map Bytes}
      {named : List (ProjectRecord × Bytes)}, index.nameAll fuel assigned l = some named →
      index.nameAll fuel' assigned l = some named
  | [], _, _, h => h
  | (record, position) :: l, assigned, named, h => by
    obtain ⟨name, hname, h⟩ := Option.bind_eq_some_iff.mp h
    obtain ⟨rest, hrest, h⟩ := Option.bind_eq_some_iff.mp h
    have hname' : index.nameFor fuel' assigned record position = some name := by
      rw [Index.nameFor] at hname ⊢
      split at hname
      next hcond =>
        rw [if_pos hcond]
        exact Fresh.search_mono hle hname
      next hcond => rwa [if_neg hcond]
    rw [nameAll_cons hname' (nameAll_mono hle hrest)]
    exact h

/-- More steps give the same plan. -/
lemma plan_mono {fuel' : ℕ} (hle : fuel ≤ fuel') {targets : List MigrationTarget}
    (h : planProjectNameMigration fuel records = some targets) :
    planProjectNameMigration fuel' records = some targets := by
  obtain ⟨named, hnamed, h⟩ := Option.bind_eq_some_iff.mp h
  rw [planProjectNameMigration]
  show (Index.nameAll _ _ _ _ >>= _) = _
  rw [nameAll_mono hle hnamed]
  exact h

/-- **The plan ends** with the names of all records, whatever the bound beyond three times their
number. -/
lemma plan_found (hsafe : ∀ record ∈ records, domainSafeID record.projectID)
    (hcount : 3 * records.length + 3 ≤ 10 ^ 48) :
    ∃ named, Named (importOrder records) named ∧ named.map Prod.fst = importOrder records
      ∧ ∀ fuel, 3 * records.length < fuel → planProjectNameMigration fuel records
        = some (named.filterMap fun (record, name) => migrationTarget record name) := by
  have hperm := importOrder_perm records
  have hsafe' : ∀ record ∈ importOrder records, domainSafeID record.projectID := fun record h =>
    hsafe record (hperm.mem_iff.mp h)
  obtain ⟨named, hnamed⟩ : ∃ named, (Index.of (importOrder records)).nameAll
      (3 * records.length + 1) (fun _ => none) (importOrder records).zipIdx = some named :=
    nameAll_found hsafe' (by rw [hperm.length_eq]; omega) (by omega) _ rfl assigned_nil named_nil
  obtain ⟨hspec, hfst⟩ := nameAll_ok hsafe' (by omega) _ rfl assigned_nil named_nil hnamed
  refine ⟨named, hspec, hfst, fun fuel hfuel => ?_⟩
  rw [planProjectNameMigration]
  show (Index.nameAll _ _ _ _ >>= _) = _
  rw [show (Index.of (importOrder records)).nameAll fuel (fun _ => none) (importOrder records).zipIdx
    = some named from nameAll_mono hfuel hnamed]
  rfl

end Assign

end Subyard.State
