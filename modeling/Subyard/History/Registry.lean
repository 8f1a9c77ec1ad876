import Subyard.Library.Dict
import Subyard.Library.Fallible
import Subyard.Library.Json

/-!
The registry of migrations and the histories it accepts.

A registry lists migrations, each of which moves one domain from an epoch to the next and may
depend on migrations listed before it.  A history gives each domain its epoch and the migrations
applied to it.

* `newRegistry`, `RegistryData.applied`, `RegistryData.history`: the checks of the code.  A map is
  visited in the order of its keys; only the choice between several errors depends on this.
* `RegistryData.Laid`: what an accepted registry looks like: per domain an unbroken chain from the
  minimum to the current epoch, spread over the list in any way.
* `RegistryData.Accepts`: what an accepted history looks like.
-/

namespace Subyard

open Text Fallible

/-- `SafeID` of the domain package. -/
def domainSafeID (value : Bytes) : Bool :=
  value ≠ [] && value ≠ str "." && value ≠ str ".." && value.head? ≠ some 45
    && value.all fun b =>
      (97 ≤ b && b ≤ 122) || (65 ≤ b && b ≤ 90) || (48 ≤ b && b ≤ 57) || b = 46 || b = 95 || b = 45

namespace History

structure Migration where
  id : Bytes
  domain : Bytes
  fromEpoch : ℤ
  toEpoch : ℤ
  kind : Bytes
  dependsOn : List Bytes := []
deriving DecidableEq, Repr, Inhabited

structure DomainState where
  epoch : ℤ
  applied : List Bytes
deriving DecidableEq, Repr, Inhabited

/-- The state of every domain. -/
abbrev Domains := Dict Bytes DomainState

structure RegistryData where
  minimum : Dict Bytes ℤ
  current : Dict Bytes ℤ
  retired : Dict Bytes Bytes
  migrations : List Migration
  ids : Dict Bytes ℕ
deriving DecidableEq

/-! ### The checks of a registry -/

def safeID (id : Bytes) : Bool := id.length ≤ 128 && domainSafeID id

/-- A digest in lower-case hexadecimal. -/
def validPin (pin : Bytes) : Bool :=
  pin.length = 64 && pin.all fun b => (48 ≤ b && b ≤ 57) || (97 ≤ b && b ≤ 102)

def quoted (text : Bytes) : Bytes := str "\"" ++ text ++ str "\""

/-- The loop over the dependencies of a migration. -/
def checkDependencies (m : Migration) (ids : Dict Bytes ℕ) :
    List Bytes → List Bytes → Except Bytes Unit
  | _, [] => .ok ()
  | seen, dep :: deps => do
      refuse (¬ safeID dep ∨ dep ∈ seen)
        (str "migration " ++ quoted m.id ++ str " has invalid or duplicate dependency " ++ quoted dep)
      refuse ((ids.lookup dep).isNone)
        (str "migration " ++ quoted m.id ++ str " dependency " ++ quoted dep
          ++ str " is unknown, cyclic or not ordered before it")
      checkDependencies m ids (dep :: seen) deps

/-- What the loop over the migrations has built. -/
structure Scan where
  expected : Dict Bytes ℤ
  ids : Dict Bytes ℕ := ∅
  migrations : List Migration := []

/-- One round of the loop. -/
def Scan.add (minimum : Dict Bytes ℤ) (s : Scan) (m : Migration) : Except Bytes Scan := do
  refuse (¬ safeID m.id ∨ ¬ safeID m.kind) (str "migration ID or kind is not a safe ID")
  refuse ((s.ids.lookup m.id).isSome) (str "duplicate migration ID " ++ quoted m.id)
  refuse ((minimum.lookup m.domain).isNone)
    (str "migration " ++ quoted m.id ++ str " has unknown domain " ++ quoted m.domain)
  refuse (m.toEpoch ≠ m.fromEpoch + 1 ∨ m.fromEpoch ≠ s.expected.getD m.domain 0)
    (str "migration " ++ quoted m.id ++ str " has a gap or does not advance exactly one epoch")
  checkDependencies m s.ids [] m.dependsOn
  pure
    { expected := s.expected.insert m.domain m.toEpoch
      ids := s.ids.insert m.id s.migrations.length
      migrations := s.migrations ++ [m] }

/-- `NewRegistry`. -/
def newRegistry (minimum current : Dict Bytes ℤ) (migrations : List Migration)
    (retired : Dict Bytes Bytes) : Except Bytes RegistryData := do
  refuse (minimum.keys.card = 0 ∨ minimum.keys.card ≠ current.keys.card)
    (str "registry domain epochs are required and must match")
  retired.sorted.forM fun (name, pin) =>
    refuse ((minimum.lookup name).isNone ∨ ¬ validPin pin)
      (str "invalid retired migration prefix binding")
  minimum.sorted.forM fun (name, floor) =>
    refuse (¬ safeID name ∨ floor < 1 ∨ current.getD name 0 < floor)
      (str "registry domain " ++ quoted name ++ str " has invalid epoch range")
  current.sorted.forM fun (name, _) =>
    refuse ((minimum.lookup name).isNone)
      (str "registry has unknown domain " ++ quoted name)
  let scan ← migrations.foldlM (Scan.add minimum) { expected := minimum }
  refuse (scan.expected ≠ current) (str "registry path does not end at current epochs")
  pure
    { minimum := minimum, current := current, retired := retired
      migrations := scan.migrations, ids := scan.ids }

/-! ### The checks of a history -/

namespace RegistryData

/-- `Applied`. -/
def applied (data : RegistryData) (name : Bytes) (after through : ℤ) :
    Except Bytes (List Bytes) :=
  match data.minimum.lookup name with
  | some floor =>
      if after < floor ∨ through < after ∨ through > data.current.getD name 0 then
        .error (str "migration prefix is outside the registry path")
      else
        .ok ((data.migrations.filter fun m =>
          m.domain = name ∧ m.fromEpoch ≥ after ∧ m.toEpoch ≤ through).map (·.id))
  | none => .error (str "migration prefix is outside the registry path")

/-- The check of one domain in `History`. -/
def checkDomain (data : RegistryData) (name : Bytes) (state : DomainState) : Except Bytes Unit :=
  match data.minimum.lookup name with
  | some floor => do
      refuse (state.epoch < floor ∨ state.epoch > data.current.getD name 0)
        (str "ledger domain " ++ quoted name ++ str " epoch " ++ Json.number state.epoch
          ++ str " is outside supported range")
      refuse (state.applied ≠ (data.applied name floor state.epoch).toOption.getD [])
        (str "ledger domain " ++ quoted name
          ++ str " applied history is not the exact registry prefix")
  | none =>
      .error (str "ledger domain " ++ quoted name ++ str " epoch " ++ Json.number state.epoch
        ++ str " is outside supported range")

/-- The ids the domains list as applied. -/
def completed (domains : Domains) : List Bytes := domains.sorted.flatMap (·.2.applied)

/-- The check of the dependencies of one migration in `History`. -/
def checkCompleted (completed : List Bytes) (m : Migration) : Except Bytes Unit :=
  if m.id ∈ completed then
    m.dependsOn.forM fun dep =>
      refuse (dep ∉ completed)
        (str "ledger migration " ++ quoted m.id ++ str " is applied before dependency "
          ++ quoted dep)
  else .ok ()

/-- `History`: the check of the states of all domains. -/
def history (data : RegistryData) (domains : Domains) : Except Bytes Unit := do
  refuse (domains.keys.card ≠ data.minimum.keys.card)
    (str "ledger domains do not exactly match registry domains")
  domains.sorted.forM fun (name, state) => data.checkDomain name state
  data.migrations.forM (checkCompleted (completed domains))

end RegistryData

/-! ### Accepted registries -/

variable {minimum : Dict Bytes ℤ} {m : Migration} {s s' : Scan} {migrations : List Migration}

/-- The migrations lead every domain from its minimum to its expected epoch, one epoch after the
other, and depend on earlier ones only. -/
structure Laid (minimum expected : Dict Bytes ℤ) (ids : Dict Bytes ℕ)
    (migrations : List Migration) : Prop where
  keys : expected.keys = minimum.keys
  safe : ∀ m ∈ migrations, safeID m.id ∧ m.domain ∈ minimum.keys
  step : ∀ m ∈ migrations, m.toEpoch = m.fromEpoch + 1
  ordered : migrations.Pairwise fun m m' => m.domain = m'.domain → m.toEpoch ≤ m'.fromEpoch
  le : ∀ name, minimum.getD name 0 ≤ expected.getD name 0
  low : ∀ m ∈ migrations, minimum.getD m.domain 0 ≤ m.fromEpoch
  high : ∀ m ∈ migrations, m.toEpoch ≤ expected.getD m.domain 0
  covered : ∀ name e, minimum.getD name 0 ≤ e → e < expected.getD name 0 →
    ∃ m ∈ migrations, m.domain = name ∧ m.fromEpoch = e
  distinct : (migrations.map (·.id)).Nodup
  index : ∀ id i, ids.lookup id = some i → ∃ m, migrations[i]? = some m ∧ m.id = id
  indexed : ∀ m ∈ migrations, m.id ∈ ids.keys
  deps : ∀ pre m post, migrations = pre ++ m :: post → ∀ dep ∈ m.dependsOn, ∃ p ∈ pre, p.id = dep

lemma laid_nil (minimum : Dict Bytes ℤ) : Laid minimum minimum ∅ [] where
  keys := rfl
  safe m hm := by cases hm
  step m hm := by cases hm
  ordered := .nil
  le _ := le_rfl
  low m hm := by cases hm
  high m hm := by cases hm
  covered name e hlow hhigh := absurd hlow (by omega)
  distinct := .nil
  index id i h := by simp at h
  indexed m hm := by cases hm
  deps pre m post h := by cases pre <;> cases h

lemma checkDependencies_known {ids : Dict Bytes ℕ} {seen deps : List Bytes}
    (h : checkDependencies m ids seen deps = .ok ()) :
    ∀ dep ∈ deps, ∃ i, ids.lookup dep = some i := by
  induction deps generalizing seen with
  | nil => exact fun dep hdep => by cases hdep
  | cons dep deps ih =>
    obtain ⟨_, h⟩ := refuse_bind.mp h
    obtain ⟨hknown, h⟩ := refuse_bind.mp h
    rintro dep' (_ | ⟨_, hdep⟩)
    · exact Dict.exists_lookup (Dict.not_isNone_lookup_iff.mp hknown)
    · exact ih h dep' hdep

/-- A round that succeeds. -/
lemma Scan.add_ok (h : s.add minimum m = .ok s') :
    safeID m.id ∧ m.id ∉ s.ids.keys ∧ m.domain ∈ minimum.keys
      ∧ m.toEpoch = m.fromEpoch + 1 ∧ m.fromEpoch = s.expected.getD m.domain 0
      ∧ (∀ dep ∈ m.dependsOn, ∃ i, s.ids.lookup dep = some i)
      ∧ s' = ⟨s.expected.insert m.domain m.toEpoch, s.ids.insert m.id s.migrations.length,
          s.migrations ++ [m]⟩ := by
  obtain ⟨hsafe, h⟩ := refuse_bind.mp h
  obtain ⟨hfresh, h⟩ := refuse_bind.mp h
  obtain ⟨hdomain, h⟩ := refuse_bind.mp h
  obtain ⟨hepoch, h⟩ := refuse_bind.mp h
  obtain ⟨_, hdeps, h⟩ := of_bind_ok h
  cases h
  simp only [not_or, not_not] at hsafe hepoch
  exact ⟨hsafe.1, fun hmem => hfresh (Dict.isSome_lookup_iff.mpr hmem),
    Dict.not_isNone_lookup_iff.mp hdomain, hepoch.1, hepoch.2, checkDependencies_known hdeps, rfl⟩

/-- **One round keeps the path unbroken.** -/
lemma Laid.add (h : Laid minimum s.expected s.ids s.migrations) (hadd : s.add minimum m = .ok s') :
    Laid minimum s'.expected s'.ids s'.migrations := by
  obtain ⟨hid, hfresh, hkey, hto, hfrom, hdeps, rfl⟩ := Scan.add_ok hadd
  have hnew : ∀ m' ∈ s.migrations, m'.id ≠ m.id := by
    intro m' hm' heq
    exact hfresh (heq ▸ h.indexed m' hm')
  have hexpected : ∀ name, s.expected.getD name 0
      ≤ Dict.getD (Finmap.insert m.domain m.toEpoch s.expected) name 0 := by
    intro name
    by_cases hname : name = m.domain
    · rw [hname, Dict.getD_insert_self]
      omega
    · rw [Dict.getD_insert_of_ne _ _ _ hname]
  refine ⟨?_, ?_, ?_, ?_, fun name => (h.le name).trans (hexpected name), ?_, ?_, ?_, ?_, ?_,
    ?_, ?_⟩
  · rw [← h.keys]
    exact Dict.keys_insert_of_mem _ (h.keys ▸ hkey)
  · simpa [or_imp, forall_and, hid, hkey] using h.safe
  · simpa [or_imp, forall_and, hto] using h.step
  · refine List.pairwise_append.mpr ⟨h.ordered, .cons (fun _ hm' => by cases hm') .nil, ?_⟩
    rintro m' hm' _ (_ | ⟨_, hnil⟩) hdomain
    · rw [hfrom, ← hdomain]
      exact h.high m' hm'
    · cases hnil
  · intro m' hm'
    rcases List.mem_append.mp hm' with hm' | hm'
    · exact h.low m' hm'
    · rw [List.mem_singleton.mp hm', hfrom]
      exact h.le m.domain
  · intro m' hm'
    rcases List.mem_append.mp hm' with hm' | hm'
    · exact (h.high m' hm').trans (hexpected m'.domain)
    · rw [List.mem_singleton.mp hm', Dict.getD_insert_self]
  · intro name e hlow hhigh
    by_cases hold : e < s.expected.getD name 0
    · obtain ⟨m', hm', hd, hf⟩ := h.covered name e hlow hold
      exact ⟨m', List.mem_append_left _ hm', hd, hf⟩
    · -- the only new epoch is that of the new migration
      have hname : name = m.domain := by
        by_contra hne
        rw [Dict.getD_insert_of_ne _ _ _ hne] at hhigh
        exact hold hhigh
      subst hname
      rw [Dict.getD_insert_self] at hhigh
      exact ⟨m, by simp, rfl, by omega⟩
  · rw [List.map_append, List.nodup_append]
    refine ⟨h.distinct, by simp, ?_⟩
    rintro _ hid' _ (_ | ⟨_, hnil⟩)
    · obtain ⟨m', hm', rfl⟩ := List.mem_map.mp hid'
      exact hnew m' hm'
    · cases hnil
  · intro id i hi
    by_cases hsame : id = m.id
    · subst hsame
      rw [Finmap.lookup_insert] at hi
      cases hi
      exact ⟨m, by simp, rfl⟩
    · rw [Finmap.lookup_insert_of_ne _ hsame] at hi
      obtain ⟨m', hm', hid'⟩ := h.index id i hi
      exact ⟨m', List.getElem?_append_left (List.getElem?_eq_some_iff.mp hm').1 ▸ hm', hid'⟩
  · intro m' hm'
    rw [Finmap.mem_keys, Finmap.mem_insert]
    rcases List.mem_append.mp hm' with hm' | hm'
    · exact .inr (Finmap.mem_keys.mp (h.indexed m' hm'))
    · exact .inl (by rw [List.mem_singleton.mp hm'])
  · intro pre m' post heq dep hdep
    rcases List.eq_nil_or_concat post with rfl | ⟨post, last, rfl⟩
    · obtain ⟨rfl, rfl⟩ : s.migrations = pre ∧ m = m' := by simpa using List.append_inj' heq rfl
      obtain ⟨i, hi⟩ := hdeps dep hdep
      obtain ⟨p, hp, hpid⟩ := h.index dep i hi
      exact ⟨p, List.mem_of_getElem? hp, hpid⟩
    · have hold : s.migrations = pre ++ m' :: post := by
        have heq' : s.migrations ++ [m] = (pre ++ m' :: post) ++ [last] := heq.trans (by simp)
        exact (List.append_inj' heq' rfl).1
      exact h.deps pre m' post hold dep hdep

lemma Laid.foldlM (h : Laid minimum s.expected s.ids s.migrations)
    (hfold : migrations.foldlM (Scan.add minimum) s = .ok s') :
    Laid minimum s'.expected s'.ids s'.migrations ∧ s'.migrations = s.migrations ++ migrations := by
  induction migrations generalizing s with
  | nil =>
    cases hfold
    exact ⟨h, (List.append_nil _).symm⟩
  | cons m migrations ih =>
    rw [List.foldlM_cons] at hfold
    obtain ⟨t, hadd, hrest⟩ := of_bind_ok hfold
    obtain ⟨hlaid, hmigrations⟩ := ih (h.add hadd) hrest
    obtain ⟨_, _, _, _, _, _, rfl⟩ := Scan.add_ok hadd
    exact ⟨hlaid, by rw [hmigrations, List.append_assoc]; rfl⟩

/-- What `NewRegistry` guarantees. -/
structure RegistryData.Sound (data : RegistryData) : Prop extends
    Laid data.minimum data.current data.ids data.migrations where
  names : ∀ name ∈ data.minimum.keys, safeID name ∧ 1 ≤ data.minimum.getD name 0
  inhabited : data.minimum.keys.card ≠ 0

/-- **An accepted registry is laid out from the minimum to the current epochs.** -/
theorem newRegistry_sound {current : Dict Bytes ℤ} {retired : Dict Bytes Bytes}
    {data : RegistryData} (h : newRegistry minimum current migrations retired = .ok data) :
    data.Sound := by
  obtain ⟨hsize, h⟩ := refuse_bind.mp h
  obtain ⟨_, _, h⟩ := of_bind_ok h
  obtain ⟨_, hnames, h⟩ := of_bind_ok h
  obtain ⟨_, _, h⟩ := of_bind_ok h
  obtain ⟨scan, hscan, h⟩ := of_bind_ok h
  obtain ⟨hcurrent, h⟩ := refuse_bind.mp h
  cases h
  obtain ⟨hlaid, hmigrations⟩ := (laid_nil minimum).foldlM hscan
  rw [not_not.mp hcurrent] at hlaid
  refine ⟨hlaid, fun name hname => ?_, fun hzero => hsize (.inl hzero)⟩
  obtain ⟨floor, hfloor⟩ := Dict.exists_lookup hname
  have hcheck := refuse_eq_ok.mp (forM_eq_ok.mp hnames _ (Dict.mem_sorted.mpr hfloor))
  rw [not_or, not_or, not_not] at hcheck
  refine ⟨hcheck.1, ?_⟩
  rw [Dict.getD_of_lookup hfloor]
  omega

/-- An accepted registry holds what it was built from. -/
lemma newRegistry_fields {current : Dict Bytes ℤ} {retired : Dict Bytes Bytes} {data : RegistryData}
    (h : newRegistry minimum current migrations retired = .ok data) :
    data.minimum = minimum ∧ data.current = current ∧ data.migrations = migrations := by
  obtain ⟨_, h⟩ := refuse_bind.mp h
  obtain ⟨_, _, h⟩ := of_bind_ok h
  obtain ⟨_, _, h⟩ := of_bind_ok h
  obtain ⟨_, _, h⟩ := of_bind_ok h
  obtain ⟨scan, hscan, h⟩ := of_bind_ok h
  obtain ⟨_, h⟩ := refuse_bind.mp h
  cases h
  exact ⟨rfl, rfl, ((laid_nil minimum).foldlM hscan).2⟩

/-! ### Accepted histories -/

/-- The epoch of a domain. -/
def Domains.epoch (domains : Domains) (name : Bytes) : ℤ := (domains.getD name ⟨0, []⟩).epoch

/-- The migration is applied. -/
def Domains.Has (domains : Domains) (m : Migration) : Prop := m.toEpoch ≤ domains.epoch m.domain

/-- The ids of the migrations of a domain up to an epoch. -/
def RegistryData.prefixIDs (data : RegistryData) (name : Bytes) (epoch : ℤ) : List Bytes :=
  (data.migrations.filter fun m => m.domain = name ∧ m.toEpoch ≤ epoch).map (·.id)

/-- What `History` accepts: every domain stands at an epoch of its path with exactly the
migrations up to it, and what is applied has its dependencies applied. -/
structure RegistryData.Accepts (data : RegistryData) (domains : Domains) : Prop where
  keys : domains.keys = data.minimum.keys
  range : ∀ name ∈ data.minimum.keys,
    data.minimum.getD name 0 ≤ domains.epoch name ∧ domains.epoch name ≤ data.current.getD name 0
  applied : ∀ name state, domains.lookup name = some state →
    state.applied = data.prefixIDs name state.epoch
  deps : ∀ m ∈ data.migrations, domains.Has m → ∀ dep ∈ m.dependsOn,
    ∀ p ∈ data.migrations, p.id = dep → domains.Has p

namespace RegistryData

variable {data : RegistryData} {domains : Domains}

/-- The name of a migration tells it. -/
lemma Sound.eq_of_id (h : data.Sound) {m m' : Migration} (hm : m ∈ data.migrations)
    (hm' : m' ∈ data.migrations) (hid : m.id = m'.id) : m = m' :=
  List.inj_on_of_nodup_map h.distinct hm hm' hid

lemma Sound.exists_dep (h : data.Sound) {m : Migration} (hm : m ∈ data.migrations) {dep : Bytes}
    (hdep : dep ∈ m.dependsOn) : ∃ p ∈ data.migrations, p.id = dep := by
  obtain ⟨pre, post, hsplit⟩ := List.append_of_mem hm
  obtain ⟨p, hp, hpid⟩ := h.deps pre m post hsplit dep hdep
  exact ⟨p, hsplit ▸ List.mem_append_left _ hp, hpid⟩

lemma epoch_of_lookup {name : Bytes} {state : DomainState}
    (h : domains.lookup name = some state) : domains.epoch name = state.epoch := by
  rw [Domains.epoch, Dict.getD_of_lookup h]

/-- Inside the path of a domain `Applied` answers with the migrations in between. -/
lemma applied_ok {name : Bytes} {floor after through : ℤ}
    (hfloor : data.minimum.lookup name = some floor) (hafter : floor ≤ after)
    (hthrough : after ≤ through) (hcurrent : through ≤ data.current.getD name 0) :
    data.applied name after through = .ok ((data.migrations.filter fun m =>
      m.domain = name ∧ m.fromEpoch ≥ after ∧ m.toEpoch ≤ through).map (·.id)) := by
  rw [applied, hfloor]
  exact if_neg (by omega)

lemma Sound.applied_floor (h : data.Sound) {name : Bytes} {floor epoch : ℤ}
    (hfloor : data.minimum.lookup name = some floor) (hlow : floor ≤ epoch)
    (hhigh : epoch ≤ data.current.getD name 0) :
    data.applied name floor epoch = .ok (data.prefixIDs name epoch) := by
  rw [applied_ok hfloor le_rfl hlow hhigh, prefixIDs]
  refine congrArg (fun l => Except.ok (List.map _ l)) (List.filter_congr fun m hm => ?_)
  have hm_low := h.low m hm
  by_cases hname : m.domain = name
  · rw [hname, Dict.getD_of_lookup hfloor] at hm_low
    simp [hname, hm_low]
  · simp [hname]

lemma Sound.checkDomain_ok (h : data.Sound) {name : Bytes} {state : DomainState} :
    data.checkDomain name state = .ok () ↔ name ∈ data.minimum.keys
      ∧ data.minimum.getD name 0 ≤ state.epoch ∧ state.epoch ≤ data.current.getD name 0
      ∧ state.applied = data.prefixIDs name state.epoch := by
  rw [checkDomain.eq_def]
  cases hfloor : data.minimum.lookup name with
  | none =>
    have hname : name ∉ data.minimum.keys := fun hmem => by
      rw [← Dict.isSome_lookup_iff, hfloor] at hmem
      cases hmem
    simp [hname]
  | some floor =>
    have hname := Dict.mem_keys_of_lookup hfloor
    simp only [refuse_bind, refuse_eq_ok, hname, Dict.getD_of_lookup hfloor, true_and]
    constructor
    · rintro ⟨hrange, happlied⟩
      have hlow : floor ≤ state.epoch := by omega
      have hhigh : state.epoch ≤ data.current.getD name 0 := by omega
      refine ⟨hlow, hhigh, ?_⟩
      simpa [h.applied_floor hfloor hlow hhigh, Except.toOption] using happlied
    · rintro ⟨hlow, hhigh, happlied⟩
      refine ⟨by omega, ?_⟩
      simpa [h.applied_floor hfloor hlow hhigh, Except.toOption] using happlied

lemma mem_prefixIDs {name id : Bytes} {epoch : ℤ} :
    id ∈ data.prefixIDs name epoch
      ↔ ∃ m ∈ data.migrations, m.domain = name ∧ m.toEpoch ≤ epoch ∧ m.id = id := by
  simp only [prefixIDs, List.mem_map, List.mem_filter, decide_eq_true_eq]
  constructor
  · rintro ⟨m, ⟨hm, hname, hepoch⟩, hid⟩
    exact ⟨m, hm, hname, hepoch, hid⟩
  · rintro ⟨m, hm, hname, hepoch, hid⟩
    exact ⟨m, ⟨hm, hname, hepoch⟩, hid⟩

/-- The ids that are listed as applied are those of the applied migrations. -/
lemma mem_completed (hknown : ∀ m ∈ data.migrations, m.domain ∈ domains.keys)
    (happlied : ∀ name state, domains.lookup name = some state →
      state.applied = data.prefixIDs name state.epoch) (id : Bytes) :
    id ∈ completed domains ↔ ∃ m ∈ data.migrations, m.id = id ∧ domains.Has m := by
  rw [completed, List.mem_flatMap]
  constructor
  · rintro ⟨⟨name, state⟩, hmem, hid⟩
    have hlookup := Dict.mem_sorted.mp hmem
    rw [happlied name state hlookup] at hid
    obtain ⟨m, hm, hname, hepoch, hmid⟩ := mem_prefixIDs.mp hid
    refine ⟨m, hm, hmid, ?_⟩
    rw [Domains.Has, hname, epoch_of_lookup hlookup]
    exact hepoch
  · rintro ⟨m, hm, rfl, hhas⟩
    obtain ⟨state, hstate⟩ := Dict.exists_lookup (hknown m hm)
    refine ⟨(m.domain, state), Dict.mem_sorted.mpr hstate, ?_⟩
    show m.id ∈ state.applied
    rw [happlied m.domain state hstate]
    rw [Domains.Has, epoch_of_lookup hstate] at hhas
    exact mem_prefixIDs.mpr ⟨m, hm, rfl, hhas, rfl⟩

lemma checkCompleted_ok {completed : List Bytes} {m : Migration} :
    checkCompleted completed m = .ok ()
      ↔ (m.id ∈ completed → ∀ dep ∈ m.dependsOn, dep ∈ completed) := by
  rw [checkCompleted]
  split
  · rename_i hm
    rw [forM_eq_ok]
    simp only [refuse_eq_ok, not_not, hm, true_imp_iff]
  · rename_i hm
    simp [hm]

lemma Sound.history_eq_ok (h : data.Sound) :
    data.history domains = .ok () ↔ domains.keys.card = data.minimum.keys.card
      ∧ (∀ name state, domains.lookup name = some state → name ∈ data.minimum.keys
        ∧ data.minimum.getD name 0 ≤ state.epoch ∧ state.epoch ≤ data.current.getD name 0
        ∧ state.applied = data.prefixIDs name state.epoch)
      ∧ ∀ m ∈ data.migrations, m.id ∈ completed domains → ∀ dep ∈ m.dependsOn,
        dep ∈ completed domains := by
  have hdomains : (domains.sorted.forM fun x => data.checkDomain x.1 x.2) = .ok ()
      ↔ ∀ name state, domains.lookup name = some state → data.checkDomain name state = .ok () := by
    rw [forM_eq_ok]
    exact ⟨fun hall name state hlookup => hall (name, state) (Dict.mem_sorted.mpr hlookup),
      fun hall x hx => hall x.1 x.2 (Dict.mem_sorted.mp hx)⟩
  simp only [h.checkDomain_ok] at hdomains
  rw [history, refuse_bind, not_not, ← hdomains]
  simp only [← checkCompleted_ok, ← forM_eq_ok]
  refine and_congr_right fun _ => ⟨fun hok => ?_, ?_⟩
  · obtain ⟨_, hd, hm⟩ := of_bind_ok hok
    exact ⟨hd, hm⟩
  · rintro ⟨hd, hm⟩
    show ((domains.sorted.forM fun x => data.checkDomain x.1 x.2) >>= _) = _
    rw [hd]
    exact hm

/-- **What `History` accepts.** -/
theorem Sound.history_ok (h : data.Sound) :
    data.history domains = .ok () ↔ data.Accepts domains := by
  rw [h.history_eq_ok]
  constructor
  · rintro ⟨hcard, hstates, hdeps⟩
    have hkeys : domains.keys = data.minimum.keys := Dict.keys_eq_of_card (fun name hname => by
      obtain ⟨state, hstate⟩ := Dict.exists_lookup hname
      exact (hstates name state hstate).1) hcard
    have hmem := mem_completed (fun m hm => hkeys ▸ (h.safe m hm).2)
      fun name state hs => (hstates name state hs).2.2.2
    refine ⟨hkeys, fun name hname => ?_, fun name state hs => (hstates name state hs).2.2.2,
      fun m hm hhas dep hdep p hp hpid => ?_⟩
    · obtain ⟨state, hstate⟩ := Dict.exists_lookup (hkeys ▸ hname)
      obtain ⟨_, hlow, hhigh, _⟩ := hstates name state hstate
      rw [epoch_of_lookup hstate]
      exact ⟨hlow, hhigh⟩
    · obtain ⟨q, hq, hqid, hqhas⟩ :=
        (hmem dep).mp (hdeps m hm ((hmem m.id).mpr ⟨m, hm, rfl, hhas⟩) dep hdep)
      rwa [h.eq_of_id hp hq (hpid.trans hqid.symm)]
  · intro hacc
    have hmem := mem_completed (fun m hm => hacc.keys ▸ (h.safe m hm).2) hacc.applied
    refine ⟨by rw [hacc.keys], fun name state hstate => ?_, fun m hm hcompleted dep hdep => ?_⟩
    · have hname : name ∈ data.minimum.keys := hacc.keys ▸ Dict.mem_keys_of_lookup hstate
      have hrange := hacc.range name hname
      rw [epoch_of_lookup hstate] at hrange
      exact ⟨hname, hrange.1, hrange.2, hacc.applied name state hstate⟩
    · obtain ⟨q, hq, hqid, hqhas⟩ := (hmem m.id).mp hcompleted
      obtain rfl := h.eq_of_id hq hm hqid
      obtain ⟨p, hp, hpid⟩ := h.exists_dep hm hdep
      exact (hmem dep).mpr ⟨p, hp, hpid, hacc.deps q hm hqhas dep hdep p hp hpid⟩

end RegistryData

end History

end Subyard
