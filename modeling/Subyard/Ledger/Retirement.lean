import Subyard.Library.Chain
import Subyard.Library.JsonParse
import Subyard.Ledger.Registry

/-!
Retirement of migrations: the definitions of a completed prefix leave the registry and their digest
stays.

* `RegistryV2.retire`: the registry without the migrations of a domain up to an epoch.
* `migrationPrefixDigest_eq`: the digest of a prefix is a chain of links from the digest that the
  path starts with.
* `retirement_composes`: **retirements, one after the other, change no digest, and equal digests
  over the same minimum have the same definitions under them**.
-/

namespace Subyard.Release

open Text Fallible History

namespace RegistryV2

variable {registry : RegistryV2} {owner : RegistryData} {domain : Bytes} {epoch floor through : ℤ}

/-! ### The digest of a prefix -/

/-- What the digest that links a migration is taken over. -/
def linkPayload (domain : Bytes) (previous : Fingerprint) (m : Migration) : Bytes :=
  Json.render (.obj
    [(str "domain", .str domain), (str "fromEpoch", .num m.fromEpoch),
      (str "previous", .str previous), (str "migration", migrationJSON m)])

/-- Inside the path there is a digest, outside there is none. -/
lemma Accepted.of_migrationPrefixDigest_ok {digest : Fingerprint}
    (hdigest : registry.migrationPrefixDigest domain epoch = .ok digest) :
    ∃ floor, registry.minimumEpochs.lookup domain = some floor ∧ floor ≤ epoch
      ∧ epoch ≤ registry.currentEpochs.getD domain 0 := by
  obtain ⟨_, _, hdigest⟩ := of_bind_ok hdigest
  cases hfloor : registry.minimumEpochs.lookup domain with
  | none =>
    rw [hfloor] at hdigest
    cases hdigest
  | some floor =>
    rw [hfloor] at hdigest
    obtain ⟨hrange, -⟩ := refuse_bind.mp hdigest
    exact ⟨floor, rfl, by omega, by omega⟩

/-- Beyond the current epoch there is no digest. -/
lemma migrationPrefixDigest_beyond (howner : registry.historyRegistry = .ok owner)
    (hfloor : registry.minimumEpochs.lookup domain = some floor)
    (hbeyond : registry.currentEpochs.getD domain 0 < through) :
    registry.migrationPrefixDigest domain through
      = .error (.invalid (str "retired migration prefix is outside the registry path")) := by
  rw [migrationPrefixDigest, howner]
  simp only [hfloor]
  exact refuse_bind_error.mpr (.inl ⟨.inr hbeyond, rfl⟩)

/-- The migrations of a domain are in the order of their epochs, so they split at each. -/
lemma Accepted.between_append (h : registry.Accepted owner) (hlow : floor ≤ epoch)
    (hhigh : epoch ≤ through) : registry.between domain floor through
      = registry.between domain floor epoch ++ registry.between domain epoch through := by
  have hstep : ∀ m ∈ registry.migrations, m.toEpoch = m.fromEpoch + 1 := fun m hm =>
    h.step m (h.migrations_eq ▸ hm)
  have hordered := h.ordered
  rw [h.migrations_eq] at hordered
  rw [between, Chain.filter_split (q := fun m => decide (m.toEpoch ≤ epoch))]
  · congr 1
    · refine List.filter_congr fun m _ => ?_
      rw [← Bool.decide_and]
      exact decide_eq_decide.mpr ⟨fun h => ⟨h.1.1, h.1.2.1, h.2⟩,
        fun h => ⟨⟨h.1, h.2.1, by omega⟩, h.2.2⟩⟩
    · refine List.filter_congr fun m hm => ?_
      have := hstep m hm
      rw [← decide_not, ← Bool.decide_and]
      exact decide_eq_decide.mpr ⟨fun h => ⟨h.1.1, by omega, h.1.2.2⟩,
        fun h => ⟨⟨h.1, by omega, h.2.2⟩, by omega⟩⟩
  · refine hordered.imp_of_mem fun {m m'} hm hm' hto hp hp' hq => ?_
    rw [decide_eq_true_eq] at hp hp' hq ⊢
    have := hto (hp.1.trans hp'.1.symm)
    have := hstep m' hm'
    omega

/-! ### Retirement -/

/-- The registry without the migrations of a domain up to an epoch. -/
def retire (registry : RegistryV2) (domain : Bytes) (epoch : ℤ) (digest : Fingerprint) :
    RegistryV2 :=
  { registry with
    minimumEpochs := registry.minimumEpochs.insert domain epoch
    migrations := registry.migrations.filter fun m => ¬ (m.domain = domain ∧ m.toEpoch ≤ epoch)
    retiredPrefixes := registry.retiredPrefixes.insert domain ⟨epoch, digest⟩ }

/-- The second registry is the first with the migrations of a domain up to an epoch retired under
their digest, and it is accepted. -/
def Retires (registry : RegistryV2) (domain : Bytes) (epoch : ℤ) (registry' : RegistryV2) : Prop :=
  ∃ digest, registry.migrationPrefixDigest domain epoch = .ok digest
    ∧ registry' = registry.retire domain epoch digest
    ∧ ∃ owner, registry'.historyRegistry = .ok owner

/-- After the retired epoch the same migrations are left. -/
lemma Accepted.between_retire (h : registry.Accepted owner) (epoch through : ℤ)
    (digest : Fingerprint) :
    (registry.retire domain epoch digest).between domain epoch through
      = registry.between domain epoch through := by
  rw [between, between, retire, List.filter_filter]
  refine List.filter_congr fun m hm => ?_
  have := h.step m (h.migrations_eq ▸ hm)
  rw [← Bool.decide_and]
  exact decide_eq_decide.mpr ⟨fun h => h.1, fun h => ⟨h, by omega⟩⟩

/-- **A retirement changes no digest** from its epoch on. -/
lemma Accepted.digest_retires (h : registry.Accepted owner)
    (howner : registry.historyRegistry = .ok owner) (hle : epoch ≤ through) {registry' : RegistryV2}
    (hretires : registry.Retires domain epoch registry') :
    registry'.migrationPrefixDigest domain through
      = registry.migrationPrefixDigest domain through := by
  obtain ⟨digest, hdigest, rfl, owner', howner'⟩ := hretires
  have h' := historyRegistry_ok howner'
  obtain ⟨floor, hfloor, hlow, hhigh⟩ := Accepted.of_migrationPrefixDigest_ok hdigest
  have hfloor' : (registry.retire domain epoch digest).minimumEpochs.lookup domain = some epoch :=
    Finmap.lookup_insert _
  by_cases hbeyond : registry.currentEpochs.getD domain 0 < through
  · rw [migrationPrefixDigest_beyond howner hfloor hbeyond,
      migrationPrefixDigest_beyond howner' hfloor' hbeyond]
  · have hbase : (registry.retire domain epoch digest).baseDigest domain epoch = digest := by
      rw [baseDigest, retire, Finmap.lookup_insert]
    rw [h.migrationPrefixDigest_eq howner hfloor hlow hhigh] at hdigest
    rw [h'.migrationPrefixDigest_eq howner' hfloor' hle (not_lt.mp hbeyond),
      h.migrationPrefixDigest_eq howner hfloor (hlow.trans hle) (not_lt.mp hbeyond),
      h.between_retire, hbase, h.between_append hlow hle, List.foldl_append,
      Except.ok.inj hdigest]

/-- Retirements of a domain, one after the other, at epochs up to `through`. -/
def RetiresUpTo (domain : Bytes) (through : ℤ) : RegistryV2 → RegistryV2 → Prop :=
  Relation.ReflTransGen fun registry registry' =>
    ∃ epoch ≤ through, registry.Retires domain epoch registry'

lemma digest_retiresUpTo (howner : registry.historyRegistry = .ok owner) {registry' : RegistryV2}
    (hretires : RetiresUpTo domain through registry registry') :
    registry'.migrationPrefixDigest domain through
      = registry.migrationPrefixDigest domain through := by
  have hboth : (∃ owner, registry'.historyRegistry = .ok owner)
      ∧ registry'.migrationPrefixDigest domain through
        = registry.migrationPrefixDigest domain through := by
    induction hretires with
    | refl => exact ⟨⟨owner, howner⟩, rfl⟩
    | tail _ hstep ih =>
      obtain ⟨⟨owner', howner'⟩, hsame⟩ := ih
      obtain ⟨epoch, hle, hretires⟩ := hstep
      refine ⟨?_, ?_⟩
      · obtain ⟨_, _, _, hok⟩ := hretires
        exact hok
      · rw [(historyRegistry_ok howner').digest_retires howner' hle hretires, hsame]
  exact hboth.2

/-! ### Payloads tell the definitions -/

/-- The texts of a migration are written as they are. -/
structure Spelled (m : Migration) : Prop where
  id : valid m.id
  domain : valid m.domain
  kind : valid m.kind
  deps : ∀ dep ∈ m.dependsOn, valid dep

lemma plainItems_map_str {texts : List Bytes} (h : ∀ text ∈ texts, valid text) :
    Json.PlainItems (texts.map .str) := by
  induction texts with
  | nil => trivial
  | cons text texts ih =>
    exact ⟨h text (by simp), ih fun t ht => h t (List.mem_cons_of_mem _ ht)⟩

lemma Spelled.plain {m : Migration} (h : Spelled m) : Json.Plain (migrationJSON m) := by
  have hkey : ∀ key ∈ [str "id", str "domain", str "fromEpoch", str "toEpoch", str "kind",
      str "dependsOn"], valid key := by decide
  rw [migrationJSON]
  split
  · refine ⟨hkey _ (by simp), h.id, hkey _ (by simp), h.domain, hkey _ (by simp), trivial,
      hkey _ (by simp), trivial, hkey _ (by simp), h.kind, trivial⟩
  · refine ⟨hkey _ (by simp), h.id, hkey _ (by simp), h.domain, hkey _ (by simp), trivial,
      hkey _ (by simp), trivial, hkey _ (by simp), h.kind, hkey _ (by simp),
      plainItems_map_str h.deps, trivial⟩

/-- The JSON of a migration tells it. -/
lemma migrationJSON_inj {m m' : Migration} (h : migrationJSON m = migrationJSON m') : m = m' := by
  obtain ⟨id, domain, fromEpoch, toEpoch, kind, deps⟩ := m
  obtain ⟨id', domain', fromEpoch', toEpoch', kind', deps'⟩ := m'
  have hmap : Function.Injective (List.map Json.str) :=
    List.map_injective_iff.mpr fun _ _ h => Json.str.inj h
  simp only [migrationJSON, Json.obj.injEq, List.cons_append, List.nil_append, List.cons.injEq,
    Prod.mk.injEq, Json.str.injEq, Json.num.injEq, true_and] at h
  obtain ⟨rfl, rfl, rfl, rfl, rfl, hdeps⟩ := h
  by_cases hnil : deps = []
  · by_cases hnil' : deps' = []
    · rw [hnil, hnil']
    · simp [hnil, hnil'] at hdeps
  · by_cases hnil' : deps' = []
    · simp [hnil, hnil'] at hdeps
    · rw [if_neg hnil, if_neg hnil', List.cons.injEq, Prod.mk.injEq, Json.arr.injEq] at hdeps
      rw [hmap hdeps.1.2]

/-- **The payload of a link tells the link before it and the migration.** -/
lemma linkPayload_inj (hdomain : valid domain) (previous previous' : Fingerprint)
    (m m' : Migration) (hprevious : valid previous) (hprevious' : valid previous')
    (hm : Spelled m) (hm' : Spelled m')
    (h : linkPayload domain previous m = linkPayload domain previous' m') :
    previous = previous' ∧ m = m' := by
  have hkey : ∀ key ∈ [str "domain", str "fromEpoch", str "previous", str "migration"],
      valid key := by decide
  have hread : ∀ (p : Fingerprint) (x : Migration), valid p → Spelled x →
      Json.parse (linkPayload domain p x) = some (.obj
        [(str "domain", .str domain), (str "fromEpoch", .num x.fromEpoch),
          (str "previous", .str p), (str "migration", migrationJSON x)]) := by
    intro p x hp hx
    have hplain : Json.Plain (.obj
        [(str "domain", .str domain), (str "fromEpoch", .num x.fromEpoch),
          (str "previous", .str p), (str "migration", migrationJSON x)]) :=
      ⟨hkey _ (by simp), hdomain, hkey _ (by simp), trivial, hkey _ (by simp), hp,
        hkey _ (by simp), hx.plain, trivial⟩
    have hparse := Json.parse_render hplain (show ([] : Bytes).all Json.isSpace from rfl)
    rwa [List.append_nil] at hparse
  have hsame := (hread previous m hprevious hm).symm.trans
    (h ▸ hread previous' m' hprevious' hm')
  simp only [Option.some.injEq, Json.obj.injEq, List.cons.injEq, Prod.mk.injEq, true_and,
    Json.str.injEq, and_true] at hsame
  exact ⟨hsame.2.1, migrationJSON_inj hsame.2.2⟩

lemma foldlM_add_kind {minimum : Dict Bytes ℤ} {migrations : List Migration} {s s' : Scan}
    (h : migrations.foldlM (Scan.add minimum) s = .ok s') : ∀ m ∈ migrations, safeID m.kind := by
  induction migrations generalizing s with
  | nil => exact fun m hm => by cases hm
  | cons x migrations ih =>
    rw [List.foldlM_cons] at h
    obtain ⟨t, hadd, hrest⟩ := of_bind_ok h
    rintro m (_ | ⟨_, hm⟩)
    · have hsafe := (refuse_bind.mp hadd).1
      rw [not_or, not_not, not_not] at hsafe
      exact hsafe.2
    · exact ih hrest m hm

/-- The migrations of an accepted registry have safe texts. -/
lemma spelled_of_historyRegistry (howner : registry.historyRegistry = .ok owner) :
    ∀ m ∈ registry.migrations, Spelled m := by
  have h := historyRegistry_ok howner
  have hkinds : ∀ m ∈ registry.migrations, safeID m.kind := by
    obtain ⟨_, hnew⟩ := refuse_bind.mp howner
    obtain ⟨_, _, hnew⟩ := of_bind_ok hnew
    obtain ⟨_, hnew⟩ := refuse_bind.mp (mapError_eq_ok.mp hnew)
    obtain ⟨_, _, hnew⟩ := of_bind_ok hnew
    obtain ⟨_, _, hnew⟩ := of_bind_ok hnew
    obtain ⟨_, _, hnew⟩ := of_bind_ok hnew
    obtain ⟨scan, hscan, -⟩ := of_bind_ok hnew
    exact foldlM_add_kind hscan
  intro m hm
  have hm' : m ∈ owner.migrations := h.migrations_eq ▸ hm
  obtain ⟨hid, hdomain⟩ := h.safe m hm'
  refine ⟨valid_of_safeID hid, valid_of_safeID (h.names _ hdomain).1, valid_of_safeID (hkinds m hm),
    fun dep hdep => ?_⟩
  obtain ⟨p, hp, rfl⟩ := h.exists_dep hm' hdep
  exact valid_of_safeID (h.safe p hp).1

/-! ### Equal digests -/

/-- The payloads whose hashes make up the digest of a prefix. -/
def hashed (registry : RegistryV2) (domain : Bytes) (floor through : ℤ) : List Bytes :=
  Chain.payloads fingerprintPayload (linkPayload domain) (registry.baseDigest domain floor)
    (registry.between domain floor through)

lemma length_of_checkPath {entries : List Migration} {base : ℤ}
    (hstep : ∀ m ∈ entries, m.toEpoch = m.fromEpoch + 1)
    (h : entries.foldlM checkPath base = .ok through) : through = base + entries.length := by
  induction entries generalizing base with
  | nil =>
    cases h
    simp
  | cons m entries ih =>
    rw [List.foldlM_cons] at h
    obtain ⟨next, hcheck, hrest⟩ := of_bind_ok h
    obtain ⟨hfrom, hnext⟩ := refuse_bind.mp hcheck
    cases hnext
    have hto := hstep m (by simp)
    have hlast := ih (fun x hx => hstep x (List.mem_cons_of_mem _ hx)) hrest
    rw [List.length_cons]
    push_cast
    omega

/-- A path has a migration for each epoch. -/
lemma Accepted.length_between (h : registry.Accepted owner)
    (hfloor : registry.minimumEpochs.lookup domain = some floor) (hlow : floor ≤ through)
    (hhigh : through ≤ registry.currentEpochs.getD domain 0) :
    through = floor + (registry.between domain floor through).length := by
  have hdigest := h.digestFrom_eq hfloor hlow hhigh []
  obtain ⟨_, hdigest⟩ := refuse_bind.mp hdigest
  obtain ⟨last, hpath, hdigest⟩ := of_bind_ok hdigest
  obtain ⟨hlast, -⟩ := refuse_bind.mp hdigest
  rw [not_not.mp hlast] at hpath
  exact length_of_checkPath
    (fun m hm => h.step m (h.migrations_eq ▸ List.mem_of_mem_filter hm)) hpath

/-- **Equal digests over the same minimum have the same definitions under them.** -/
lemma between_eq_of_digest_eq {left right : RegistryV2} {owner owner' : RegistryData}
    (hleft : left.historyRegistry = .ok owner) (hright : right.historyRegistry = .ok owner')
    (hfloor : left.minimumEpochs.lookup domain = some floor)
    (hfloor' : right.minimumEpochs.lookup domain = some floor) {digest : Fingerprint}
    (hdigest : left.migrationPrefixDigest domain through = .ok digest)
    (hdigest' : right.migrationPrefixDigest domain through = .ok digest)
    (hinj : Set.InjOn fingerprintPayload {payload | payload ∈ left.hashed domain floor through
      ∨ payload ∈ right.hashed domain floor through}) :
    left.between domain floor through = right.between domain floor through := by
  have h := historyRegistry_ok hleft
  have h' := historyRegistry_ok hright
  obtain ⟨_, hlookup, hlow, hhigh⟩ := Accepted.of_migrationPrefixDigest_ok hdigest
  obtain rfl := Option.some.inj (hlookup.symm.trans hfloor)
  obtain ⟨_, hlookup', -, hhigh'⟩ := Accepted.of_migrationPrefixDigest_ok hdigest'
  rw [h.migrationPrefixDigest_eq hleft hfloor hlow hhigh] at hdigest
  rw [h'.migrationPrefixDigest_eq hright hfloor' hlow hhigh'] at hdigest'
  have hdomain : valid domain := by
    have hkey := Dict.mem_keys_of_lookup (h.minimum_eq ▸ hfloor)
    exact valid_of_safeID (h.names domain hkey).1
  have hlength := h.length_between hfloor hlow hhigh
  have hlength' := h'.length_between hfloor' hlow hhigh'
  refine Chain.eq_of_foldl_eq fingerprintPayload (linkPayload domain)
    (V := fun previous => valid previous) (W := Spelled)
    (fun payload => valid_of_validFingerprint (validFingerprint_fingerprintPayload payload))
    (linkPayload_inj hdomain) _ _ _ _
    (valid_of_validFingerprint (h.validFingerprint_baseDigest domain _))
    (valid_of_validFingerprint (h'.validFingerprint_baseDigest domain _))
    (fun m hm => spelled_of_historyRegistry hleft m (List.mem_of_mem_filter hm))
    (fun m hm => spelled_of_historyRegistry hright m (List.mem_of_mem_filter hm))
    (by omega) hinj ?_
  exact (Except.ok.inj hdigest).trans (Except.ok.inj hdigest').symm

/-- **Digests compose across retirement.**  Retirements of a domain at epochs up to `through`, one
after the other, do not change the digest at `through`; and two accepted registries with the same
minimum and the same digest have the same definitions up to there, unless the hash has a collision
among the payloads of the two digests. -/
theorem retirement_composes (left right : RegistryV2) (owner owner' : RegistryData)
    (hleft : left.historyRegistry = .ok owner) (hright : right.historyRegistry = .ok owner')
    (domain : Bytes) (through : ℤ) :
    (∀ retired, RetiresUpTo domain through left retired →
        retired.migrationPrefixDigest domain through
          = left.migrationPrefixDigest domain through)
      ∧ ∀ floor digest, left.minimumEpochs.lookup domain = some floor →
          right.minimumEpochs.lookup domain = some floor →
          left.migrationPrefixDigest domain through = .ok digest →
          right.migrationPrefixDigest domain through = .ok digest →
          Set.InjOn fingerprintPayload {payload | payload ∈ left.hashed domain floor through
            ∨ payload ∈ right.hashed domain floor through} →
          left.between domain floor through = right.between domain floor through :=
  ⟨fun _ hretires => digest_retiresUpTo hleft hretires,
    fun _ _ hfloor hfloor' hdigest hdigest' hinj =>
      between_eq_of_digest_eq hleft hright hfloor hfloor' hdigest hdigest' hinj⟩

end RegistryV2

open RegistryV2

/-! The first of two migrations is retired. -/

def settingsRegistry : RegistryV2 where
  schemaVersion := 2
  minimumEpochs := Finmap.singleton (str "settings") 1
  currentEpochs := Finmap.singleton (str "settings") 3
  migrations := [⟨str "s2", str "settings", 1, 2, str "state", []⟩,
    ⟨str "s3", str "settings", 2, 3, str "state", []⟩]
  retiredPrefixes := ∅
  machine := by decide +kernel

/-- The digest of the first migration. -/
def settingsDigest : Fingerprint :=
  link (str "settings") (migrationPrefixSeed (str "settings") 1)
    ⟨str "s2", str "settings", 1, 2, str "state", []⟩

/-- The registry without it. -/
def settingsRetired : RegistryV2 := settingsRegistry.retire (str "settings") 2 settingsDigest

/-- The registry with another domain, which has no migrations yet. -/
def settingsWidened : RegistryV2 where
  schemaVersion := 2
  minimumEpochs := settingsRegistry.minimumEpochs.insert (str "state") 1
  currentEpochs := settingsRegistry.currentEpochs.insert (str "state") 1
  migrations := settingsRegistry.migrations
  retiredPrefixes := ∅
  machine := by decide +kernel

set_option maxRecDepth 100000 in
/-- The digest at the last epoch stays, and it tells both migrations. -/
theorem settings_retirement_composes :
    settingsRetired.migrationPrefixDigest (str "settings") 3
        = settingsRegistry.migrationPrefixDigest (str "settings") 3
      ∧ settingsRegistry.between (str "settings") 1 3
        = settingsWidened.between (str "settings") 1 3 := by
  have hok : settingsRegistry.historyRegistry.isOk := by decide +kernel
  have hretired : settingsRetired.historyRegistry.isOk := by decide +kernel
  have hdigest : settingsRegistry.migrationPrefixDigest (str "settings") 2
      = .ok settingsDigest := by decide +kernel
  have hwidened : settingsWidened.historyRegistry.isOk := by decide +kernel
  have hinj : ∀ p ∈ settingsRegistry.hashed (str "settings") 1 3,
      ∀ q ∈ settingsRegistry.hashed (str "settings") 1 3,
        fingerprintPayload p = fingerprintPayload q → p = q := by decide +kernel
  have hlast : (settingsRegistry.migrationPrefixDigest (str "settings") 3).isOk := by
    decide +kernel
  have hequal : settingsWidened.migrationPrefixDigest (str "settings") 3
      = settingsRegistry.migrationPrefixDigest (str "settings") 3 := by decide +kernel
  obtain ⟨owner, howner⟩ := exists_of_isOk hok
  obtain ⟨owner', howner'⟩ := exists_of_isOk hwidened
  obtain ⟨digest, hthrough⟩ := exists_of_isOk hlast
  obtain ⟨hsame, htells⟩ := retirement_composes settingsRegistry settingsWidened owner owner' howner
    howner' (str "settings") 3
  exact ⟨hsame _ (.single ⟨2, by decide, settingsDigest, hdigest, rfl, exists_of_isOk hretired⟩),
    htells 1 digest rfl rfl hthrough (hequal.trans hthrough) fun p hp q hq =>
      hinj p (hp.elim id id) q (hq.elim id id)⟩

end Subyard.Release
