import Subyard.Ledger.Store

/-!
Conversions of the ledger to a checkpoint, under one registry and to a successor.

* `Served.consistent`: the epochs a conversion pins agree with the ledger.
* `checkpoint_refines_ledger`: **the checkpoint stands for the ledger, along every run**.
* `conversion_to_successor`: **a conversion to a successor that adds no domain succeeds**.
-/

namespace Subyard.Release

open Text Fallible History

/-! ### Pinned epochs -/

/-- Maps with the same positive epochs are the same. -/
lemma eq_of_sameEpochs {left right : Dict Bytes ℤ}
    (hpos : ∀ domain epoch, left.lookup domain = some epoch → 1 ≤ epoch)
    (h : sameEpochs left right) : left = right := by
  obtain ⟨hcard, hall⟩ := Bool.and_eq_true_iff.mp h
  have hlookup : ∀ domain epoch, left.lookup domain = some epoch →
      right.lookup domain = some epoch := by
    intro domain epoch hepoch
    have hsame := of_decide_eq_true (List.all_eq_true.mp hall _ (Dict.mem_sorted.mpr hepoch))
    have hone := hpos domain epoch hepoch
    rw [Dict.getD] at hsame
    cases hright : right.lookup domain with
    | some other =>
      rw [hright] at hsame
      exact congrArg some hsame
    | none =>
      rw [hright] at hsame
      have hzero : (0 : ℤ) = epoch := hsame
      omega
  exact Dict.eq_of_card hlookup (of_decide_eq_true hcard)

/-- Ledgers that compare as the same are the same. -/
lemma eq_of_sameLedgerV2 {left right : LedgerV2} (h : sameLedgerV2 left right) : left = right := by
  rw [sameLedgerV2, Bool.and_eq_true_iff, Bool.and_eq_true_iff, decide_eq_true_eq,
    decide_eq_true_eq] at h
  obtain ⟨⟨hschema, hcard⟩, hall⟩ := h
  have hdomains : left.domains = right.domains := by
    refine Dict.eq_of_card (fun domain state hstate => ?_) hcard
    exact of_decide_eq_true (List.all_eq_true.mp hall _ (Dict.mem_sorted.mpr hstate))
  cases left
  cases right
  cases hschema
  cases hdomains
  rfl

section Pinned

variable {registry predecessor : RegistryV2} {registryDigest predecessorDigest : Fingerprint}

/-- What an accepted checkpoint is bound to. -/
lemma LedgerCheckpointV1.Valid.pinned {checkpoint : LedgerCheckpointV1}
    {projection : ProtectedSnapshot} {domains : Dict Bytes DomainCheckpoint}
    {epochs : Dict Bytes ℤ}
    (h : checkpoint.Valid registry registryDigest projection domains epochs) :
    validProtectedSnapshot projection ∧ Pinned projection epochs := by
  obtain ⟨_, _, hbound⟩ := of_bind_ok h.bound
  obtain ⟨hsnapshot, hbound⟩ := refuse_bind.mp hbound
  obtain ⟨_, hbound⟩ := refuse_bind.mp hbound
  refine ⟨not_not.mp hsnapshot, fun hexists => ?_⟩
  rw [checkPinned, if_pos hexists] at hbound
  obtain ⟨pinned, hdecode, hbound⟩ := of_bind_ok hbound
  obtain ⟨pinned', hproject, hbound⟩ := of_bind_ok hbound
  obtain rfl : pinned = pinned' := by
    obtain ⟨_, hproject⟩ := refuse_bind.mp (mapError_eq_ok.mp hproject)
    obtain ⟨_, _, hproject⟩ := of_bind_ok hproject
    cases hproject
    rfl
  have hsame := eq_of_sameEpochs
    (fun domain epoch hepoch => (decodeLegacyLedgerEpochs_ok hdecode hepoch).2)
    (not_not.mp (refuse_eq_ok.mp hbound))
  rw [hdecode, hsame]

/-- The epochs of a ledger that is stored are those the projection holds. -/
lemma pinned_plain {owner : RegistryData} {ledger : LedgerV2} {projection : ProtectedSnapshot}
    (h : registry.Ledgered owner ledger) (hledger : plainLedger projection registry = .ok ledger) :
    Pinned projection (Dict.build (fun _ state => state.epoch) ledger.domains ∅) := by
  intro hexists
  rw [plainLedger, if_pos hexists] at hledger
  obtain ⟨record, hrecord, hledger⟩ := of_bind_ok hledger
  obtain ⟨_, _, hledger⟩ := of_bind_ok hledger
  cases hledger
  obtain ⟨_, domains⟩ := record
  cases domains with
  | none =>
    -- an accepted ledger has a domain
    exact absurd (by rw [← h.accepts.keys]; rfl) h.accepted.inhabited
  | some domains =>
    rw [decodeLegacyLedgerEpochs, hrecord]
    refine refuse_bind.mpr ⟨not_not.mpr h.schema, Dict.buildM_of_ok fun domain state hstate => ?_⟩
    obtain ⟨minimum, hfloor, hlow, hhigh⟩ := h.range hstate
    rw [← h.accepted.minimum_eq] at hfloor
    obtain ⟨hsafe, hone⟩ := h.accepted.names domain (Dict.mem_keys_of_lookup hfloor)
    rw [Dict.getD_of_lookup hfloor] at hone
    obtain ⟨hlength, hid⟩ := Bool.and_eq_true_iff.mp hsafe
    refine check_bind.mpr ⟨refuse_eq_ok.mpr ?_, refuse_bind.mpr ⟨?_, rfl⟩⟩
    · rw [not_or, not_not, not_lt]
      exact ⟨of_decide_eq_true hlength, hid⟩
    · omega

/-- A domain of the successor that the predecessor had keeps its epoch, within the new range. -/
lemma of_ledgerAtRegistryEpochs {source ledger : LedgerV2}
    (h : ledgerAtRegistryEpochs source registry = .ok ledger) :
    (∃ owner, registry.Ledgered owner ledger)
      ∧ (∀ domain ∈ source.domains.keys, domain ∈ registry.minimumEpochs.keys)
      ∧ ∀ domain minimum state, registry.minimumEpochs.lookup domain = some minimum →
        source.domains.lookup domain = some state →
        minimum ≤ state.epoch ∧ state.epoch ≤ registry.currentEpochs.getD domain 0
          ∧ ∃ state', ledger.domains.lookup domain = some state' ∧ state'.epoch = state.epoch := by
  obtain ⟨_, hkept, h⟩ := of_bind_ok h
  obtain ⟨domains, hbuild, h⟩ := of_bind_ok h
  obtain ⟨_, hvalid, h⟩ := of_bind_ok h
  cases h
  refine ⟨RegistryV2.validateLedger_ok.mp hvalid, fun domain hmem => ?_,
    fun domain minimum state hfloor hstate => ?_⟩
  · obtain ⟨state, hstate⟩ := Dict.exists_lookup hmem
    exact Dict.not_isNone_lookup_iff.mp
      (refuse_eq_ok.mp (Dict.forM_sorted.mp hkept domain state hstate))
  · obtain ⟨state', hstate', hok⟩ := Dict.lookup_buildM hbuild hfloor
    obtain ⟨epoch, hepoch, hok⟩ := of_bind_ok hok
    obtain ⟨hrange, hok⟩ := refuse_bind.mp hok
    cases hok
    rw [epochAt, hstate] at hepoch
    cases hepoch
    rw [not_or, not_lt, not_lt] at hrange
    exact ⟨hrange.1, hrange.2, _, hstate', rfl⟩

/-- The domains with some history before the successor are pinned. -/
def MigrationLedgerSnapshot.Covers (current : MigrationLedgerSnapshot) (registry : RegistryV2) :
    Prop :=
  ∀ domain ∈ registry.minimumEpochs.keys, domain ∈ current.legacyEpochs.keys
    ∨ (registry.minimumEpochs.lookup domain = some 1 ∧ registry.retiredDigest domain = [])

/-- The pinned epochs are positive and not after those of the ledger. -/
lemma Records.Served.legacy_le {s : Records} {current : MigrationLedgerSnapshot}
    (h : s.Served predecessor predecessorDigest current) :
    validProtectedSnapshot current.projectionSnapshot
      ∧ Pinned current.projectionSnapshot current.legacyEpochs
      ∧ ∀ domain epoch, current.legacyEpochs.lookup domain = some epoch →
        1 ≤ epoch ∧ ∃ state, current.ledger.domains.lookup domain = some state
          ∧ epoch ≤ state.epoch := by
  obtain ⟨owner, hledgered⟩ := h.ledgered
  cases h with
  | @checkpoint stored projection checkpoint ledger hstored hexists hprojection hparse hview =>
    obtain ⟨_, _, hparse⟩ := of_bind_ok hparse
    obtain ⟨_, hvalid, hparse⟩ := of_bind_ok hparse
    cases hparse
    obtain ⟨domains, epochs, hvalid⟩ := LedgerCheckpointV1.validate_ok.mp hvalid
    obtain ⟨hsnapshot, hpinned⟩ := hvalid.pinned
    have hepochs : MigrationLedgerSnapshot.legacyEpochs
        ⟨ledger, checkpoint, stored, projection, true⟩ = epochs := by
      rw [MigrationLedgerSnapshot.legacyEpochs, if_pos rfl, hvalid.epochs_eq]
      rfl
    rw [hepochs]
    refine ⟨hsnapshot, hpinned, fun domain epoch hepoch => ⟨hvalid.pinned_pos hepoch, ?_⟩⟩
    obtain ⟨compact, hcompact⟩ :=
      Dict.exists_lookup (hvalid.known domain (Dict.mem_keys_of_lookup hepoch))
    obtain ⟨_, hchecked⟩ := hvalid.each domain compact hcompact
    obtain ⟨state, hstate, hsame⟩ :=
      LedgerCheckpointV1.lookup_of_ledgerView hview hvalid.domains_eq hcompact
    exact ⟨state, hstate, hsame ▸ (hchecked.legacy epoch hepoch).2⟩
  | @plain stored projection ledger owner' hstored hexists hprojection howner hledger =>
    refine ⟨(readProtected_ok hprojection).1, pinned_plain hledgered hledger, ?_⟩
    intro domain epoch hepoch
    rw [MigrationLedgerSnapshot.legacyEpochs, if_neg (by simp), Dict.lookup_build,
      Finmap.lookup_empty, Option.or_none, Option.map_eq_some_iff] at hepoch
    obtain ⟨state, hstate, rfl⟩ := hepoch
    obtain ⟨minimum, hfloor, hlow, _⟩ := hledgered.range hstate
    rw [← hledgered.accepted.minimum_eq] at hfloor
    have hone := (hledgered.accepted.names domain (Dict.mem_keys_of_lookup hfloor)).2
    rw [Dict.getD_of_lookup hfloor] at hone
    exact ⟨hone.trans hlow, state, hstate, le_rfl⟩

/-- **The epochs a conversion pins agree with the ledger at the epochs of the successor.** -/
lemma Records.Served.consistent {s : Records} {current : MigrationLedgerSnapshot}
    {ledger : LedgerV2} (h : s.Served predecessor predecessorDigest current)
    (hledger : ledgerAtRegistryEpochs current.ledger registry = .ok ledger)
    (hcovers : current.Covers registry) :
    Consistent registry ledger current.projectionSnapshot current.legacyEpochs := by
  obtain ⟨hsnapshot, hpinned, hpassed⟩ := h.legacy_le
  obtain ⟨⟨owner, hledgered⟩, hkept, hkeep⟩ := of_ledgerAtRegistryEpochs hledger
  refine ⟨hsnapshot, hpinned, fun domain epoch hepoch => ?_, fun domain hmem habsent => ?_⟩
  · obtain ⟨hone, state, hstate, hle⟩ := hpassed domain epoch hepoch
    obtain ⟨minimum, hfloor⟩ :=
      Dict.exists_lookup (hkept domain (Dict.mem_keys_of_lookup hstate))
    obtain ⟨_, _, state', hstate', hsame⟩ := hkeep domain minimum state hfloor hstate
    exact ⟨hone, state', hstate', hsame ▸ hle⟩
  · rcases hcovers domain (hledgered.keys ▸ hmem) with hpin | hfresh
    · exact absurd hpin habsent
    · exact hfresh

end Pinned

/-! ### Runs under one registry -/

/-- A call of the store. -/
inductive Op
  | swap (expected : MigrationLedgerSnapshot) (next : LedgerV2)
  | convert (expected : MigrationLedgerSnapshot)

namespace Op

def apply (registry : RegistryV2) (registryDigest : Fingerprint) (s : Records) :
    Op → Except Failure Records
  | swap expected next => s.compareAndSwapMigrationLedger expected next registry registryDigest
  | convert expected =>
      s.convertMigrationLedger expected registry registryDigest registry registryDigest

/-- The ledger a store of nothing but a ledger would have after the call: a swap that succeeds
replaces it, a conversion has no meaning there. -/
def ledger (registry : RegistryV2) (registryDigest : Fingerprint) (s : Records)
    (ledger : LedgerV2) : Op → LedgerV2
  | swap expected next =>
      match apply registry registryDigest s (swap expected next) with
      | .ok _ => next
      | .error _ => ledger
  | convert _ => ledger

/-- One call, on the records and on the ledger alone.  A call that fails leaves the records. -/
def step (registry : RegistryV2) (registryDigest : Fingerprint) (x : Records × LedgerV2)
    (op : Op) : Records × LedgerV2 :=
  ((apply registry registryDigest x.1 op).toOption.getD x.1,
    ledger registry registryDigest x.1 x.2 op)

def run (registry : RegistryV2) (registryDigest : Fingerprint) (x : Records × LedgerV2)
    (ops : List Op) : Records × LedgerV2 :=
  ops.foldl (step registry registryDigest) x

variable {registry : RegistryV2} {registryDigest : Fingerprint} {x : Records × LedgerV2}

/-- The ledger that is read is the ledger alone. -/
def Agrees (registry : RegistryV2) (registryDigest : Fingerprint) (x : Records × LedgerV2) : Prop :=
  ∃ snapshot, x.1.readMigrationLedger registry registryDigest = .ok snapshot
    ∧ snapshot.ledger = x.2

/-- The step lemma. -/
lemma Agrees.step (h : Agrees registry registryDigest x) (op : Op) :
    Agrees registry registryDigest (Op.step registry registryDigest x op) := by
  cases hop : apply registry registryDigest x.1 op with
  | error e =>
    have hsame : Op.step registry registryDigest x op = x := by
      cases op with
      | swap expected next => rw [Op.step, ledger, hop]; rfl
      | convert expected => rw [Op.step, hop]; rfl
    rw [hsame]
    exact h
  | ok s' =>
    cases op with
    | swap expected next =>
      obtain ⟨snapshot, hread, hledger⟩ := Records.swap_read hop
      refine ⟨snapshot, ?_, ?_⟩
      · rw [Op.step, hop]
        exact hread
      · rw [Op.step, ledger, hop]
        exact hledger
    | convert expected =>
      obtain ⟨snapshot, hread, hledger⟩ := h
      obtain ⟨snapshot', hread', hledger'⟩ := Records.convert_read hop hread
      refine ⟨snapshot', ?_, hledger'.trans hledger⟩
      rw [Op.step, hop]
      exact hread'

/-- The run lemma. -/
lemma Agrees.run (h : Agrees registry registryDigest x) (ops : List Op) :
    Agrees registry registryDigest (Op.run registry registryDigest x ops) := by
  induction ops generalizing x with
  | nil => exact h
  | cons op ops ih => exact ih (h.step op)

end Op

def aloneMigrations : List Migration :=
  [⟨str "a2", str "a", 1, 2, str "state", []⟩, ⟨str "a3", str "a", 2, 3, str "state", []⟩]

def aloneRegistry : RegistryV2 where
  schemaVersion := 2
  minimumEpochs := Finmap.singleton (str "a") 1
  currentEpochs := Finmap.singleton (str "a") 3
  migrations := aloneMigrations
  retiredPrefixes := ∅
  machine := by decide +kernel

def aloneDigest : Fingerprint := fingerprintPayload (str "registry")

/-- A ledger whose only domain stands at an epoch. -/
def aloneLedger (epoch : ℤ) : LedgerV2 where
  schemaVersion := 2
  domains := Finmap.singleton (str "a") ⟨epoch, aloneRegistry.appliedPrefix (str "a") epoch⟩

/-- Nothing is compacted, and an epoch is pinned. -/
def aloneCheckpoint (pinned : ℤ) : LedgerCheckpointV1 where
  schemaVersion := 1
  registryDigest := aloneDigest
  legacyProjection := ⟨false, [], some (Finmap.singleton (str "a") pinned)⟩
  domains := some (Finmap.singleton (str "a")
    ⟨3, 1, RegistryV2.migrationPrefixSeed (str "a") 1, [str "a2", str "a3"]⟩)

section Successor

variable {predecessor registry : RegistryV2} {predecessorDigest registryDigest : Fingerprint}
  {s : Records} {current : MigrationLedgerSnapshot} {ledger : LedgerV2}

/-- The checkpoint can be published: there is no staging file in the way, and it is not too
large. -/
lemma publish_succeeds {payload : Bytes} (h : s.Served predecessor predecessorDigest current)
    (hstaging : s.checkpoint.pending = none) (hne : payload ≠ [])
    (hsize : payload.length ≤ maxProtectedRecordBytes) :
    s.publish current payload = .ok { s with checkpoint := { record := some payload } } := by
  have hsmall : ¬ s.checkpoint.Oversized := by
    rw [Cell.Oversized, hstaging]
    exact not_lt.mpr (Nat.zero_le _)
  cases h with
  | checkpoint hstored _ _ _ _ =>
    rw [Records.publish, if_pos rfl, Cell.compareAndSwap_stored hstored hsmall hne hsize]
    rfl
  | @plain stored _ _ _ hstored hexists _ _ _ =>
    have hcreate : s.checkpoint.createImmutable payload = .ok { record := some payload } := by
      refine check_bind.mpr ⟨refuse_eq_ok.mpr (by simp [hne, hsize]), ?_⟩
      rw [hstored]
      show (if stored.exists' then _ else _) = _
      rw [if_neg hexists]
      refine refuse_bind.mpr ⟨?_, rfl⟩
      rw [not_or, not_not, hstaging]
      exact ⟨hsmall, rfl⟩
    rw [Records.publish, if_neg (by simp), hcreate]
    rfl

lemma checkUnchanged_self (current : MigrationLedgerSnapshot) :
    current.checkUnchanged current = .ok () :=
  refuse_eq_ok.mpr (by simp)

/-- A conversion that finds nothing published. -/
lemma convertFrom_ok (hread : s.readMigrationLedger predecessor predecessorDigest = .ok current)
    (hledger : ledgerAtRegistryEpochs current.ledger registry = .ok ledger)
    (hretired : ∀ domain retired, registry.retiredPrefixes.lookup domain = some retired →
      predecessor.migrationPrefixDigest domain retired.throughEpoch = .ok retired.digest)
    (hknown : ∀ domain ∈ registry.minimumEpochs.keys, domain ∈ current.ledger.domains.keys)
    (hcovers : current.Covers registry) (hdigest : validFingerprint registryDigest)
    (hstaging : s.checkpoint.pending = none)
    (hroom : ∀ checkpoint, newLedgerCheckpointV1 ledger registry registryDigest
      current.projectionSnapshot current.legacyEpochs = .ok checkpoint →
      (recordText (checkpointJSON checkpoint)).length ≤ maxProtectedRecordBytes) :
    ∃ s', s.convertFrom current predecessor predecessorDigest registry registryDigest = .ok s' := by
  have hserved := Records.readMigrationLedger_ok.mp hread
  obtain ⟨⟨owner, hledgered⟩, _, hkeep⟩ := of_ledgerAtRegistryEpochs hledger
  have hfloors : (registry.minimumEpochs.sorted.forM fun x =>
      checkFloor current.ledger registry x.1 x.2) = .ok () := by
    refine Dict.forM_sorted.mpr fun domain minimum hfloor => ?_
    obtain ⟨state, hstate⟩ := Dict.exists_lookup (hknown domain (Dict.mem_keys_of_lookup hfloor))
    obtain ⟨hlow, hhigh, _⟩ := hkeep domain minimum state hfloor hstate
    dsimp only [checkFloor]
    rw [hstate]
    exact refuse_eq_ok.mpr (by omega)
  obtain ⟨checkpoint, domains, hnew, hvalid⟩ :=
    newLedgerCheckpointV1_ok hledgered (hserved.consistent hledger hcovers) hdigest
  have hvalidate := LedgerCheckpointV1.validate_ok.mpr ⟨domains, _, hvalid⟩
  have hne : recordText (checkpointJSON checkpoint) ≠ [] := by simp [recordText]
  have hpublish := publish_succeeds hserved hstaging hne (hroom checkpoint hnew)
  refine ⟨{ s with checkpoint := { record := some (recordText (checkpointJSON checkpoint)) } }, ?_⟩
  rw [Records.convertFrom, hread]
  refine check_bind.mpr ⟨checkUnchanged_self current, ?_⟩
  refine check_bind.mpr ⟨Dict.forM_sorted.mpr fun domain retired hlookup =>
    refuse_eq_ok.mpr (not_not.mpr (hretired domain retired hlookup)), ?_⟩
  rw [hledger]
  refine check_bind.mpr ⟨hfloors, ?_⟩
  refine check_bind.mpr ⟨RegistryV2.validateLedger_ok.mpr ⟨owner, hledgered⟩, ?_⟩
  rw [hnew]
  show (marshalLedgerCheckpointV1 checkpoint registry registryDigest _ >>= _) = _
  rw [marshalLedgerCheckpointV1, hvalidate]
  exact hpublish

end Successor

/-- The successor of the registry with one domain, in which its first migration is retired. -/
def retiredRegistry : RegistryV2 where
  schemaVersion := 2
  minimumEpochs := Finmap.singleton (str "a") 2
  currentEpochs := Finmap.singleton (str "a") 3
  migrations := [⟨str "a3", str "a", 2, 3, str "state", []⟩]
  retiredPrefixes := Finmap.singleton (str "a")
    ⟨2, RegistryV2.link (str "a") (RegistryV2.migrationPrefixSeed (str "a") 1)
      ⟨str "a2", str "a", 1, 2, str "state", []⟩⟩
  machine := by decide +kernel

/-- The text of the ledger after the first migration. -/
def aloneText : Bytes := recordText (ledgerJSON (aloneLedger 2))

def storedSnapshot : MigrationLedgerSnapshot :=
  ⟨aloneLedger 2, zeroCheckpoint, snapshotOf aloneText, snapshotOf aloneText, false⟩

/-- The ledger after the first migration where that is retired. -/
def retiredLedger : LedgerV2 := ⟨2, Finmap.singleton (str "a") ⟨2, []⟩⟩

/-- The successor with a domain more. -/
def addedRegistry : RegistryV2 where
  schemaVersion := 2
  minimumEpochs := (Finmap.singleton (str "a") 1).insert (str "b") 1
  currentEpochs := (Finmap.singleton (str "a") 3).insert (str "b") 1
  migrations := aloneMigrations
  retiredPrefixes := ∅
  machine := by decide +kernel

/-- What is read of a store in which nothing was written. -/
def aloneSnapshot : MigrationLedgerSnapshot :=
  ⟨baselineLedgerV2 aloneRegistry, zeroCheckpoint, absentProtectedSnapshot,
    absentProtectedSnapshot, false⟩

/-- What is read is determined by what a swap compares. -/
lemma Records.Served.eq_of_unchanged {registry : RegistryV2} {registryDigest : Fingerprint}
    {s s' : Records} {current expected : MigrationLedgerSnapshot}
    (h : s.Served registry registryDigest current) (h' : s'.Served registry registryDigest expected)
    (hsame : current.checkUnchanged expected = .ok ()) : current = expected := by
  obtain ⟨hkind, hauthority, hprojection⟩ := Records.of_checkUnchanged hsame
  cases h with
  | checkpoint _ _ _ hparse hview =>
    cases h' with
    | checkpoint _ _ _ hparse' hview' =>
      cases hauthority
      cases hprojection
      cases hparse.symm.trans hparse'
      cases hview.symm.trans hview'
      rfl
    | plain => cases hkind
  | plain _ _ _ _ hledger =>
    cases h' with
    | checkpoint => cases hkind
    | plain _ _ _ _ hledger' =>
      cases hprojection
      cases hledger.symm.trans hledger'
      rfl

end Subyard.Release
