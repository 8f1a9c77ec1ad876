import Subyard.Ledger.Registry

/-!
The records that hold the state of the migrations, and their texts.

* `LedgerV2`: the epoch of every domain and the migrations applied to it.
* `LedgerCheckpointV1`: the same with the applied migrations up to some epoch kept as a digest.
* `decode_ledger`, `decode_checkpoint`: **the texts of well-formed records are read back**.

An empty list is written as such; a list that is absent is read as an empty one.
-/

namespace Subyard.Release

open Text Fallible History Json

/-- The values a machine integer can have. -/
def Machine64 (n : ℤ) : Prop := -2 ^ 63 ≤ n ∧ n < 2 ^ 63

/-- `LedgerV2`. -/
structure LedgerV2 where
  schemaVersion : ℤ
  domains : Domains
deriving DecidableEq

/-- `DomainCheckpointV1`. -/
structure DomainCheckpoint where
  epoch : ℤ
  compactedThrough : ℤ
  prefixDigest : Fingerprint
  appliedSuffix : List Bytes
deriving DecidableEq, Inhabited

/-- `LedgerProjectionBindingV1`; a map that is absent is not an empty one. -/
structure ProjectionBinding where
  exists' : Bool
  fingerprint : Fingerprint
  epochs : Option (Dict Bytes ℤ)
deriving DecidableEq

structure LedgerCheckpointV1 where
  schemaVersion : ℤ
  registryDigest : Fingerprint
  legacyProjection : ProjectionBinding
  domains : Option (Dict Bytes DomainCheckpoint)
deriving DecidableEq

/-! ### Ledgers in JSON -/

/-- A ledger as it is read, before its domains are known to be there. -/
structure LedgerRecord where
  schemaVersion : ℤ
  domains : Option Domains
deriving DecidableEq

def domainFields : List (Json.Field DomainState) :=
  [.of "epoch" (·.epoch) (fun s v => { s with epoch := v }) decodeInt,
    .of "applied" (·.applied) (fun s v => { s with applied := v }) (decodeList [] decodeStr)]

def ledgerFields : List (Json.Field LedgerRecord) :=
  [.of "schemaVersion" (·.schemaVersion) (fun s v => { s with schemaVersion := v }) decodeInt,
    .of "domains" (·.domains) (fun s v => { s with domains := v })
      (decodeDict ⟨0, []⟩ (decodeRecord domainFields))]

def domainJSON (state : DomainState) : Json :=
  .obj [(Text.str "epoch", .num state.epoch),
    (Text.str "applied", .arr (state.applied.map .str))]

def ledgerJSON (ledger : LedgerV2) : Json :=
  .obj [(Text.str "schemaVersion", .num ledger.schemaVersion),
    (Text.str "domains", encodeDict domainJSON ledger.domains)]

/-- The text of a record: its JSON and the end of the line. -/
def recordText (v : Json) : Bytes := render v ++ [10]

/-- A ledger whose numbers and texts survive a round trip. -/
structure LedgerV2.WellFormed (ledger : LedgerV2) : Prop where
  schema : Machine64 ledger.schemaVersion
  domains : ∀ name state, ledger.domains.lookup name = some state →
    valid name ∧ Machine64 state.epoch ∧ ∀ id ∈ state.applied, valid id

lemma decode_strings {l : List Bytes} (old : List Bytes) :
    decodeList [] decodeStr old (.arr (l.map .str)) = some l :=
  decodeList_map (fun _ _ => rfl) old

lemma decode_domain {state : DomainState} (h : Machine64 state.epoch) :
    decodeRecord domainFields ⟨0, []⟩ (domainJSON state) = some state := by
  have hepoch : decodeMember domainFields ⟨0, []⟩ (Text.str "epoch", .num state.epoch)
      = some ⟨state.epoch, []⟩ := by
    show (decodeInt 0 (.num state.epoch)).map _ = _
    rw [decodeInt_num h.1 h.2]
    rfl
  have happlied : decodeMember domainFields ⟨state.epoch, []⟩
      (Text.str "applied", .arr (state.applied.map .str)) = some state := by
    show (decodeList [] decodeStr [] (.arr (state.applied.map .str))).map _ = _
    rw [decode_strings]
    rfl
  rw [domainJSON, decodeRecord_cons hepoch, decodeRecord_cons happlied]
  rfl

lemma plain_domain {state : DomainState} (h : ∀ id ∈ state.applied, valid id) :
    Plain (domainJSON state) := by
  have happlied := plain_strings h
  have hepoch : valid (Text.str "epoch") := by decide
  have hname : valid (Text.str "applied") := by decide
  exact ⟨hepoch, trivial, hname, happlied, trivial⟩

lemma plain_ledger {ledger : LedgerV2} (h : ledger.WellFormed) : Plain (ledgerJSON ledger) := by
  have hdomains : Plain (encodeDict domainJSON ledger.domains) :=
    plain_encodeDict fun name state hlookup =>
      ⟨(h.domains name state hlookup).1, plain_domain (h.domains name state hlookup).2.2⟩
  exact ⟨by decide, trivial, by decide, hdomains, trivial⟩

/-- A record is read back from its text if its JSON can be decoded. -/
lemma decodeBoundedRecord_text {α : Type} {fields : List (Json.Field α)} {zero record : α} {v : Json}
    {maximum : ℕ} (hplain : Plain v) (hsize : (recordText v).length ≤ maximum)
    (hdecode : decodeRecord fields zero v = some record) :
    decodeBoundedRecord fields zero (recordText v) maximum = .ok record := by
  have hparse : Json.parse (recordText v) = some v := parse_render hplain (by decide)
  rw [decodeBoundedRecord, refuse_bind, hparse]
  refine ⟨?_, ?_⟩
  · simp [recordText] at hsize ⊢
    omega
  · rw [Option.bind_some, hdecode]
    rfl

/-- **The text of a ledger is read back.** -/
theorem decode_ledger {ledger : LedgerV2} (h : ledger.WellFormed) {maximum : ℕ}
    (hsize : (recordText (ledgerJSON ledger)).length ≤ maximum) :
    decodeBoundedRecord ledgerFields ⟨0, none⟩ (recordText (ledgerJSON ledger)) maximum
      = .ok ⟨ledger.schemaVersion, some ledger.domains⟩ := by
  refine decodeBoundedRecord_text (plain_ledger h) hsize ?_
  have hschema : decodeMember ledgerFields ⟨0, none⟩
      (Text.str "schemaVersion", .num ledger.schemaVersion) = some ⟨ledger.schemaVersion, none⟩ := by
    show (decodeInt 0 (.num ledger.schemaVersion)).map _ = _
    rw [decodeInt_num h.schema.1 h.schema.2]
    rfl
  have hdomains : decodeMember ledgerFields ⟨ledger.schemaVersion, none⟩
      (Text.str "domains", encodeDict domainJSON ledger.domains)
        = some ⟨ledger.schemaVersion, some ledger.domains⟩ := by
    show (decodeDict _ (decodeRecord domainFields) none (encodeDict domainJSON _)).map _ = _
    rw [decodeDict_encodeDict fun name state hlookup =>
      decode_domain (h.domains name state hlookup).2.1]
    rfl
  rw [ledgerJSON, decodeRecord_cons hschema, decodeRecord_cons hdomains]
  rfl

/-! ### Checkpoints in JSON -/

def bindingFields : List (Json.Field ProjectionBinding) :=
  [.of "exists" (·.exists') (fun s v => { s with exists' := v }) decodeBool,
    .of "fingerprint" (·.fingerprint) (fun s v => { s with fingerprint := v }) decodeStr,
    .of "epochs" (·.epochs) (fun s v => { s with epochs := v }) (decodeDict 0 decodeInt)]

def domainCheckpointFields : List (Json.Field DomainCheckpoint) :=
  [.of "epoch" (·.epoch) (fun s v => { s with epoch := v }) decodeInt,
    .of "compactedThrough" (·.compactedThrough) (fun s v => { s with compactedThrough := v })
      decodeInt,
    .of "prefixDigest" (·.prefixDigest) (fun s v => { s with prefixDigest := v }) decodeStr,
    .of "appliedSuffix" (·.appliedSuffix) (fun s v => { s with appliedSuffix := v })
      (decodeList [] decodeStr)]

/-- The zero values of the records. -/
def zeroBinding : ProjectionBinding := ⟨false, [], none⟩

def zeroDomainCheckpoint : DomainCheckpoint := ⟨0, 0, [], []⟩

def zeroCheckpoint : LedgerCheckpointV1 := ⟨0, [], zeroBinding, none⟩

def checkpointFields : List (Json.Field LedgerCheckpointV1) :=
  [.of "schemaVersion" (·.schemaVersion) (fun s v => { s with schemaVersion := v }) decodeInt,
    .of "registryDigest" (·.registryDigest) (fun s v => { s with registryDigest := v }) decodeStr,
    .of "legacyProjection" (·.legacyProjection) (fun s v => { s with legacyProjection := v })
      (decodeRecord bindingFields),
    .of "domains" (·.domains) (fun s v => { s with domains := v })
      (decodeDict zeroDomainCheckpoint (decodeRecord domainCheckpointFields))]

/-- A map that is absent is written as `null`. -/
def optionalDict {V : Type} (value : V → Json) : Option (Dict Bytes V) → Json
  | some m => encodeDict value m
  | none => .null

/-- An empty fingerprint is left out. -/
def bindingJSON (binding : ProjectionBinding) : Json :=
  .obj ((Text.str "exists", .bool binding.exists')
    :: ((if binding.fingerprint = [] then [] else
        [(Text.str "fingerprint", .str binding.fingerprint)])
      ++ [(Text.str "epochs", optionalDict .num binding.epochs)]))

def domainCheckpointJSON (state : DomainCheckpoint) : Json :=
  .obj [(Text.str "epoch", .num state.epoch),
    (Text.str "compactedThrough", .num state.compactedThrough),
    (Text.str "prefixDigest", .str state.prefixDigest),
    (Text.str "appliedSuffix", .arr (state.appliedSuffix.map .str))]

def checkpointJSON (checkpoint : LedgerCheckpointV1) : Json :=
  .obj [(Text.str "schemaVersion", .num checkpoint.schemaVersion),
    (Text.str "registryDigest", .str checkpoint.registryDigest),
    (Text.str "legacyProjection", bindingJSON checkpoint.legacyProjection),
    (Text.str "domains", optionalDict domainCheckpointJSON checkpoint.domains)]

/-- The state of a domain survives a round trip. -/
structure DomainCheckpoint.WellFormed (state : DomainCheckpoint) : Prop where
  epoch : Machine64 state.epoch
  compacted : Machine64 state.compactedThrough
  digest : valid state.prefixDigest
  suffix : ∀ id ∈ state.appliedSuffix, valid id

/-- A checkpoint with maps `domains` and `epochs` that survives a round trip. -/
structure LedgerCheckpointV1.WellFormed (checkpoint : LedgerCheckpointV1)
    (domains : Dict Bytes DomainCheckpoint) (epochs : Dict Bytes ℤ) : Prop where
  schema : Machine64 checkpoint.schemaVersion
  digest : valid checkpoint.registryDigest
  fingerprint : valid checkpoint.legacyProjection.fingerprint
  domains_eq : checkpoint.domains = some domains
  epochs_eq : checkpoint.legacyProjection.epochs = some epochs
  states : ∀ name state, domains.lookup name = some state → valid name ∧ state.WellFormed
  pinned : ∀ name epoch, epochs.lookup name = some epoch → valid name ∧ Machine64 epoch

lemma decode_domainCheckpoint {state : DomainCheckpoint} (h : state.WellFormed) :
    decodeRecord domainCheckpointFields zeroDomainCheckpoint (domainCheckpointJSON state)
      = some state := by
  have hepoch : decodeMember domainCheckpointFields zeroDomainCheckpoint
      (Text.str "epoch", .num state.epoch) = some ⟨state.epoch, 0, [], []⟩ := by
    show (decodeInt 0 (.num state.epoch)).map _ = _
    rw [decodeInt_num h.epoch.1 h.epoch.2]
    rfl
  have hcompacted : decodeMember domainCheckpointFields ⟨state.epoch, 0, [], []⟩
      (Text.str "compactedThrough", .num state.compactedThrough)
        = some ⟨state.epoch, state.compactedThrough, [], []⟩ := by
    show (decodeInt 0 (.num state.compactedThrough)).map _ = _
    rw [decodeInt_num h.compacted.1 h.compacted.2]
    rfl
  have hdigest : decodeMember domainCheckpointFields ⟨state.epoch, state.compactedThrough, [], []⟩
      (Text.str "prefixDigest", .str state.prefixDigest)
        = some ⟨state.epoch, state.compactedThrough, state.prefixDigest, []⟩ := rfl
  have hsuffix : decodeMember domainCheckpointFields
      ⟨state.epoch, state.compactedThrough, state.prefixDigest, []⟩
      (Text.str "appliedSuffix", .arr (state.appliedSuffix.map .str)) = some state := by
    show (decodeList [] decodeStr [] (.arr (state.appliedSuffix.map .str))).map _ = _
    rw [decode_strings]
    rfl
  rw [domainCheckpointJSON, decodeRecord_cons hepoch, decodeRecord_cons hcompacted,
    decodeRecord_cons hdigest, decodeRecord_cons hsuffix]
  rfl

lemma plain_domainCheckpoint {state : DomainCheckpoint} (h : state.WellFormed) :
    Plain (domainCheckpointJSON state) :=
  ⟨by decide, trivial, by decide, trivial, by decide, h.digest, by decide,
    plain_strings h.suffix, trivial⟩

lemma decode_binding {binding : ProjectionBinding} {epochs : Dict Bytes ℤ}
    (hepochs : binding.epochs = some epochs)
    (hrange : ∀ name epoch, epochs.lookup name = some epoch → Machine64 epoch) :
    decodeRecord bindingFields zeroBinding (bindingJSON binding) = some binding := by
  have hexists : decodeMember bindingFields zeroBinding (Text.str "exists", .bool binding.exists')
      = some ⟨binding.exists', [], none⟩ := rfl
  have hfingerprint : decodeMember bindingFields ⟨binding.exists', [], none⟩
      (Text.str "fingerprint", .str binding.fingerprint)
        = some ⟨binding.exists', binding.fingerprint, none⟩ := rfl
  have hlast : decodeMember bindingFields ⟨binding.exists', binding.fingerprint, none⟩
      (Text.str "epochs", encodeDict .num epochs) = some binding := by
    show (decodeDict 0 decodeInt none (encodeDict .num epochs)).map _ = _
    rw [decodeDict_encodeDict fun name epoch hlookup =>
      decodeInt_num (hrange name epoch hlookup).1 (hrange name epoch hlookup).2 0,
      Option.map_some, ← hepochs]
  rw [bindingJSON, decodeRecord_cons hexists, hepochs]
  by_cases hempty : binding.fingerprint = []
  · rw [hempty] at hlast
    rw [if_pos hempty, List.nil_append, optionalDict, decodeRecord_cons hlast]
    rfl
  · rw [if_neg hempty, List.singleton_append, optionalDict, decodeRecord_cons hfingerprint,
      decodeRecord_cons hlast]
    rfl

lemma plain_binding {binding : ProjectionBinding} {epochs : Dict Bytes ℤ}
    (hepochs : binding.epochs = some epochs) (hfingerprint : valid binding.fingerprint)
    (hnames : ∀ name epoch, epochs.lookup name = some epoch → valid name) :
    Plain (bindingJSON binding) := by
  have hdict : Plain (encodeDict .num epochs) :=
    plain_encodeDict fun name epoch hlookup => ⟨hnames name epoch hlookup, trivial⟩
  rw [bindingJSON, hepochs, optionalDict]
  split
  · exact ⟨by decide, trivial, by decide, hdict, trivial⟩
  · exact ⟨by decide, trivial, by decide, hfingerprint, by decide, hdict, trivial⟩

/-- **The text of a checkpoint is read back.** -/
theorem decode_checkpoint {checkpoint : LedgerCheckpointV1} {domains : Dict Bytes DomainCheckpoint}
    {epochs : Dict Bytes ℤ} (h : checkpoint.WellFormed domains epochs) {maximum : ℕ}
    (hsize : (recordText (checkpointJSON checkpoint)).length ≤ maximum) :
    decodeBoundedRecord checkpointFields zeroCheckpoint (recordText (checkpointJSON checkpoint))
      maximum = .ok checkpoint := by
  have hplain : Plain (checkpointJSON checkpoint) := by
    have hdict : Plain (encodeDict domainCheckpointJSON domains) :=
      plain_encodeDict fun name state hlookup =>
        ⟨(h.states name state hlookup).1, plain_domainCheckpoint (h.states name state hlookup).2⟩
    have hbinding := plain_binding h.epochs_eq h.fingerprint
      fun name epoch hlookup => (h.pinned name epoch hlookup).1
    rw [checkpointJSON, h.domains_eq, optionalDict]
    exact ⟨by decide, trivial, by decide, h.digest, by decide, hbinding, by decide, hdict, trivial⟩
  refine decodeBoundedRecord_text hplain hsize ?_
  have hschema : decodeMember checkpointFields zeroCheckpoint
      (Text.str "schemaVersion", .num checkpoint.schemaVersion)
        = some ⟨checkpoint.schemaVersion, [], zeroBinding, none⟩ := by
    show (decodeInt 0 (.num checkpoint.schemaVersion)).map _ = _
    rw [decodeInt_num h.schema.1 h.schema.2]
    rfl
  have hdigest : decodeMember checkpointFields ⟨checkpoint.schemaVersion, [], zeroBinding, none⟩
      (Text.str "registryDigest", .str checkpoint.registryDigest)
        = some ⟨checkpoint.schemaVersion, checkpoint.registryDigest, zeroBinding, none⟩ := rfl
  have hbinding : decodeMember checkpointFields
      ⟨checkpoint.schemaVersion, checkpoint.registryDigest, zeroBinding, none⟩
      (Text.str "legacyProjection", bindingJSON checkpoint.legacyProjection)
        = some ⟨checkpoint.schemaVersion, checkpoint.registryDigest,
            checkpoint.legacyProjection, none⟩ := by
    show (decodeRecord bindingFields zeroBinding (bindingJSON _)).map _ = _
    rw [decode_binding h.epochs_eq fun name epoch hlookup => (h.pinned name epoch hlookup).2]
    rfl
  have hdomains : decodeMember checkpointFields
      ⟨checkpoint.schemaVersion, checkpoint.registryDigest, checkpoint.legacyProjection, none⟩
      (Text.str "domains", encodeDict domainCheckpointJSON domains) = some checkpoint := by
    show (decodeDict _ (decodeRecord domainCheckpointFields) none
      (encodeDict domainCheckpointJSON domains)).map _ = _
    rw [decodeDict_encodeDict fun name state hlookup =>
      decode_domainCheckpoint (h.states name state hlookup).2, Option.map_some, ← h.domains_eq]
  rw [checkpointJSON, h.domains_eq, optionalDict, decodeRecord_cons hschema,
    decodeRecord_cons hdigest, decodeRecord_cons hbinding, decodeRecord_cons hdomains]
  rfl

end Subyard.Release
