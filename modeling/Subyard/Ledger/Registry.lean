import Subyard.Release.Basic

/-!
The registry as a release carries it, with the digests of the migrations it no longer lists.

* `RegistryV2.historyRegistry`: the checked registry of the migration history.
* `RegistryV2.migrationPrefixDigest`: the digest of the migrations of a domain up to an epoch,
  linked one to the next from the start of the path or from the digest of what was retired.
* `migrationPrefixDigest_ok`: **inside the path of a domain there is such a digest**.
-/

namespace Subyard.Release

open Text Fallible History

/-- `RetiredMigrationPrefixV2`. -/
structure RetiredPrefix where
  throughEpoch : ℤ
  digest : Fingerprint
deriving DecidableEq

/-- `RegistryV2`.  Epochs are machine integers. -/
structure RegistryV2 where
  schemaVersion : ℤ
  minimumEpochs : Dict Bytes ℤ
  currentEpochs : Dict Bytes ℤ
  migrations : List Migration
  retiredPrefixes : Dict Bytes RetiredPrefix
  machine : ∀ entry ∈ currentEpochs.sorted, entry.2 < 2 ^ 63

namespace RegistryV2

/-- The check of one retired prefix. -/
def checkRetired (registry : RegistryV2) (domain : Bytes) (retired : RetiredPrefix) :
    Except Failure Unit := do
  refuse (registry.minimumEpochs.lookup domain ≠ some retired.throughEpoch)
    (.invalid (str "registry retired prefix for domain " ++ quoted domain
      ++ str " has an invalid floor"))
  validateFingerprint retired.digest "retired migration prefix digest"

def historyRegistry (registry : RegistryV2) : Except Failure RegistryData := do
  refuse (registry.schemaVersion ≠ 2)
    (.invalid (str "unsupported registry schema " ++ Json.number registry.schemaVersion))
  registry.retiredPrefixes.sorted.forM fun (domain, retired) =>
    registry.checkRetired domain retired
  let retired := Dict.build (fun _ retired => retired.digest) registry.retiredPrefixes ∅
  (newRegistry registry.minimumEpochs registry.currentEpochs registry.migrations retired).mapError
    .invalid

/-! ### Digests of prefixes -/

/-- `migrationPrefixSeed`. -/
def migrationPrefixSeed (domain : Bytes) (epoch : ℤ) : Fingerprint :=
  fingerprintPayload (Json.render (.obj
    [(str "domain", .str domain), (str "epoch", .num epoch)]))

/-- A migration in JSON; dependencies are left out if there are none. -/
def migrationJSON (m : Migration) : Json :=
  .obj ([(str "id", .str m.id), (str "domain", .str m.domain), (str "fromEpoch", .num m.fromEpoch),
      (str "toEpoch", .num m.toEpoch), (str "kind", .str m.kind)]
    ++ if m.dependsOn = [] then [] else [(str "dependsOn", .arr (m.dependsOn.map .str))])

/-- The digest that links a migration to the digest of those before it. -/
def link (domain : Bytes) (previous : Fingerprint) (m : Migration) : Fingerprint :=
  fingerprintPayload (Json.render (.obj
    [(str "domain", .str domain), (str "fromEpoch", .num m.fromEpoch),
      (str "previous", .str previous), (str "migration", migrationJSON m)]))

/-- The loop that checks that the migrations follow each other. -/
def checkPath (expected : ℤ) (m : Migration) : Except Failure ℤ := do
  refuse (m.fromEpoch ≠ expected) (.invalid (str "retired migration prefix has a gap"))
  pure m.toEpoch

/-- The migrations of a domain between two epochs. -/
def between (registry : RegistryV2) (domain : Bytes) (base through : ℤ) : List Migration :=
  registry.migrations.filter fun m =>
    m.domain = domain ∧ m.fromEpoch ≥ base ∧ m.toEpoch ≤ through

/-- The digest of the migrations of a domain after `base`. -/
def digestFrom (registry : RegistryV2) (domain : Bytes) (base : ℤ) (digest : Fingerprint)
    (through : ℤ) : Except Failure Fingerprint := do
  refuse (through < base) (.invalid (str "retired migration prefix precedes existing checkpoint"))
  let expected ← (registry.between domain base through).foldlM checkPath base
  refuse (expected ≠ through) (.invalid (str "retired migration prefix is incomplete"))
  pure ((registry.between domain base through).foldl (link domain) digest)

/-- `MigrationPrefixDigest`. -/
def migrationPrefixDigest (registry : RegistryV2) (domain : Bytes) (through : ℤ) :
    Except Failure Fingerprint := do
  let _ ← registry.historyRegistry
  match registry.minimumEpochs.lookup domain with
  | none => .error (.invalid (str "retired migration prefix is outside the registry path"))
  | some minimum => do
      refuse (through < minimum ∨ through > registry.currentEpochs.getD domain 0)
        (.invalid (str "retired migration prefix is outside the registry path"))
      match registry.retiredPrefixes.lookup domain with
      | some retired =>
          if through = retired.throughEpoch then pure retired.digest
          else registry.digestFrom domain retired.throughEpoch retired.digest through
      | none => registry.digestFrom domain minimum (migrationPrefixSeed domain minimum) through

/-- The ids `Applied` answers with, none if it fails. -/
def applied (registry : RegistryV2) (domain : Bytes) (after through : ℤ) : List Bytes :=
  match registry.historyRegistry with
  | .ok owner => (owner.applied domain after through).toOption.getD []
  | .error _ => []

/-- `appliedSuffix`. -/
def appliedSuffix (registry : RegistryV2) (domain : Bytes) (after through : ℤ) : List Bytes :=
  registry.applied domain after through

/-- `appliedPrefix`. -/
def appliedPrefix (registry : RegistryV2) (domain : Bytes) (epoch : ℤ) : List Bytes :=
  registry.applied domain (registry.minimumEpochs.getD domain 0) epoch

/-! ### Accepted registries -/

/-- What `historyRegistry` guarantees. -/
structure Accepted (registry : RegistryV2) (owner : RegistryData) : Prop extends owner.Sound where
  minimum_eq : owner.minimum = registry.minimumEpochs
  current_eq : owner.current = registry.currentEpochs
  migrations_eq : owner.migrations = registry.migrations
  retired : ∀ domain retired, registry.retiredPrefixes.lookup domain = some retired →
    registry.minimumEpochs.lookup domain = some retired.throughEpoch
      ∧ validFingerprint retired.digest

lemma historyRegistry_ok {registry : RegistryV2} {owner : RegistryData}
    (h : registry.historyRegistry = .ok owner) : registry.Accepted owner := by
  obtain ⟨_, h⟩ := refuse_bind.mp h
  obtain ⟨_, hretired, h⟩ := of_bind_ok h
  have hnew : newRegistry registry.minimumEpochs registry.currentEpochs registry.migrations
      (Dict.build (fun _ retired => retired.digest) registry.retiredPrefixes ∅) = .ok owner :=
    mapError_eq_ok.mp h
  obtain ⟨hminimum, hcurrent, hmigrations⟩ := newRegistry_fields hnew
  refine ⟨newRegistry_sound hnew, hminimum, hcurrent, hmigrations, fun domain retired hlookup => ?_⟩
  have hcheck := forM_eq_ok.mp hretired _ (Dict.mem_sorted.mpr hlookup)
  obtain ⟨hfloor, hdigest⟩ := refuse_bind.mp hcheck
  exact ⟨not_not.mp hfloor, not_not.mp (refuse_eq_ok.mp hdigest)⟩

/-- Migrations that cover the epochs from `base` on one after the other form a path. -/
lemma foldlM_checkPath {through : ℤ} : ∀ {entries : List Migration} {base : ℤ}, base ≤ through →
    (∀ m ∈ entries, m.toEpoch = m.fromEpoch + 1) →
    (entries.Pairwise fun m m' => m.toEpoch ≤ m'.fromEpoch) →
    (∀ m ∈ entries, base ≤ m.fromEpoch ∧ m.toEpoch ≤ through) →
    (∀ e, base ≤ e → e < through → ∃ m ∈ entries, m.fromEpoch = e) →
    entries.foldlM checkPath base = .ok through
  | [], base, hle, _, _, _, hcovered => by
    have heq : base = through := by
      by_contra hne
      obtain ⟨m, hm, _⟩ := hcovered base le_rfl (by omega)
      cases hm
    rw [heq]
    rfl
  | m :: entries, base, hle, hstep, hordered, hrange, hcovered => by
    obtain ⟨hlow, hhigh⟩ := hrange m (by simp)
    have hto := hstep m (by simp)
    obtain ⟨hfirst, hrest⟩ := List.pairwise_cons.mp hordered
    -- an entry that starts at `base` cannot stand behind `m`
    have hbase : m.fromEpoch = base := by
      obtain ⟨x, hx, hfrom⟩ := hcovered base le_rfl (by omega)
      rcases List.mem_cons.mp hx with rfl | hx
      · exact hfrom
      · have := hfirst x hx
        omega
    have hcheck : checkPath base m = .ok m.toEpoch := by
      rw [checkPath, refuse_bind]
      exact ⟨not_not.mpr hbase, rfl⟩
    rw [List.foldlM_cons, hcheck]
    refine foldlM_checkPath hhigh (fun x hx => hstep x (by simp [hx])) hrest
      (fun x hx => ⟨hfirst x hx, (hrange x (by simp [hx])).2⟩) fun e he hthrough => ?_
    obtain ⟨x, hx, hfrom⟩ := hcovered e (by omega) hthrough
    rcases List.mem_cons.mp hx with rfl | hx
    · omega
    · exact ⟨x, hx, hfrom⟩

lemma validFingerprint_foldl_link (domain : Bytes) {digest : Fingerprint}
    (h : validFingerprint digest) (entries : List Migration) :
    validFingerprint (entries.foldl (link domain) digest) := by
  induction entries generalizing digest with
  | nil => exact h
  | cons m entries ih => exact ih (validFingerprint_fingerprintPayload _)

variable {registry : RegistryV2} {owner : RegistryData}

/-- The digest of the migrations after the start of the path is a chain of links. -/
lemma Accepted.digestFrom_eq (h : registry.Accepted owner) {domain : Bytes} {floor through : ℤ}
    (hfloor : registry.minimumEpochs.lookup domain = some floor) (hlow : floor ≤ through)
    (hhigh : through ≤ registry.currentEpochs.getD domain 0) (digest : Fingerprint) :
    registry.digestFrom domain floor digest through
      = .ok ((registry.between domain floor through).foldl (link domain) digest) := by
  have hmem : ∀ m, m ∈ registry.between domain floor through
      ↔ m ∈ owner.migrations ∧ m.domain = domain ∧ floor ≤ m.fromEpoch ∧ m.toEpoch ≤ through := by
    intro m
    rw [h.migrations_eq, between, List.mem_filter, decide_eq_true_eq]
  have hpath : (registry.between domain floor through).foldlM checkPath floor = .ok through := by
    refine foldlM_checkPath hlow (fun m hm => h.step m ((hmem m).mp hm).1) ?_
      (fun m hm => ((hmem m).mp hm).2.2) fun e he hthrough => ?_
    · have hordered := h.ordered
      rw [h.migrations_eq] at hordered
      refine (hordered.filter _).imp_of_mem fun {m m'} hm hm' hto => ?_
      exact hto (((hmem m).mp hm).2.1.trans ((hmem m').mp hm').2.1.symm)
    · have hlookup : owner.minimum.lookup domain = some floor := by rw [h.minimum_eq, hfloor]
      have hcurrent : through ≤ owner.current.getD domain 0 := by rw [h.current_eq]; exact hhigh
      obtain ⟨m, hm, hdomain, hfrom⟩ := h.covered domain e
        (by rw [Dict.getD_of_lookup hlookup]; exact he) (by omega)
      have hto := h.step m hm
      exact ⟨m, (hmem m).mpr ⟨hm, hdomain, by omega, by omega⟩, hfrom⟩
  rw [digestFrom, refuse_bind, hpath]
  refine ⟨by omega, ?_⟩
  show (refuse (through ≠ through) _ >>= _) = _
  rw [refuse_bind]
  exact ⟨fun hne => hne rfl, rfl⟩

/-- The digest that the path of a domain starts with. -/
def baseDigest (registry : RegistryV2) (domain : Bytes) (floor : ℤ) : Fingerprint :=
  match registry.retiredPrefixes.lookup domain with
  | some retired => retired.digest
  | none => migrationPrefixSeed domain floor

/-- No migration leads from an epoch to the same. -/
lemma Accepted.between_self (h : registry.Accepted owner) (domain : Bytes) (epoch : ℤ) :
    registry.between domain epoch epoch = [] := by
  refine List.filter_eq_nil_iff.mpr fun m hm hrange => ?_
  rw [decide_eq_true_eq] at hrange
  have := h.step m (h.migrations_eq ▸ hm)
  omega

/-- **The digest of a prefix is a chain of links.** -/
lemma Accepted.migrationPrefixDigest_eq (h : registry.Accepted owner)
    (howner : registry.historyRegistry = .ok owner) {domain : Bytes} {floor through : ℤ}
    (hfloor : registry.minimumEpochs.lookup domain = some floor) (hlow : floor ≤ through)
    (hhigh : through ≤ registry.currentEpochs.getD domain 0) :
    registry.migrationPrefixDigest domain through
      = .ok ((registry.between domain floor through).foldl (link domain)
          (registry.baseDigest domain floor)) := by
  have hpass : ¬ (through < floor ∨ through > registry.currentEpochs.getD domain 0) := by omega
  rw [migrationPrefixDigest, howner]
  simp only [hfloor]
  refine refuse_bind.mpr ⟨hpass, ?_⟩
  rw [baseDigest]
  cases hretired : registry.retiredPrefixes.lookup domain with
  | none => exact h.digestFrom_eq hfloor hlow hhigh _
  | some retired =>
    obtain ⟨hsame, -⟩ := h.retired domain retired hretired
    obtain rfl : floor = retired.throughEpoch := Option.some.inj (hfloor.symm.trans hsame)
    by_cases heq : through = retired.throughEpoch
    · rw [heq, h.between_self]
      exact if_pos rfl
    · exact (if_neg heq).trans (h.digestFrom_eq hfloor hlow hhigh _)

lemma Accepted.validFingerprint_baseDigest (h : registry.Accepted owner) (domain : Bytes)
    (floor : ℤ) : validFingerprint (registry.baseDigest domain floor) := by
  rw [baseDigest]
  cases hretired : registry.retiredPrefixes.lookup domain with
  | none => exact validFingerprint_fingerprintPayload _
  | some retired => exact (h.retired domain retired hretired).2

/-- **Inside the path of a domain there is a digest, and it is a fingerprint.** -/
theorem Accepted.migrationPrefixDigest_ok (h : registry.Accepted owner)
    (howner : registry.historyRegistry = .ok owner) {domain : Bytes} {floor through : ℤ}
    (hfloor : registry.minimumEpochs.lookup domain = some floor) (hlow : floor ≤ through)
    (hhigh : through ≤ registry.currentEpochs.getD domain 0) :
    ∃ digest, registry.migrationPrefixDigest domain through = .ok digest
      ∧ validFingerprint digest := by
  exact ⟨_, h.migrationPrefixDigest_eq howner hfloor hlow hhigh,
    validFingerprint_foldl_link domain (h.validFingerprint_baseDigest domain floor) _⟩

end RegistryV2

end Subyard.Release
