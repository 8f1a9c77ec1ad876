import Subyard.Library.Interrupt
import Subyard.State.Migration

/-!
The store of project records: its files and its operations, as code that may be interrupted
between any two writes.

Every write is a rename, a link or a removal, so none is torn.  The searches for free names have
no bound in the source: they are actions of their own, which are answered when the search ends.
The exclusive lock of the store lets one operation run at a time.
-/

namespace Subyard.State

open Text Fallible Interrupt

/-! ### Files -/

/-- `ProjectReservation`; the time of creation in nanoseconds since the zero time. -/
structure ProjectReservation where
  schema : ℤ
  operationID : Bytes
  projectID : Bytes
  name : Bytes
  source : Bytes
  mode : Open ProjectMode
  requested : Bytes
  explicit : Bool
  createdAt : ℤ
deriving DecidableEq

def reservationTTL : ℤ := 6 * 3600 * 10 ^ 9

/-- The checks of `readReservation`. -/
def ProjectReservation.validate (reservation : ProjectReservation) (operationID : Bytes) :
    Except Failure Unit := do
  refuse (¬ domainSafeID operationID)
    (.message (str "invalid project reservation operation ID"))
  refuse (reservation.schema ≠ 1 ∨ reservation.operationID ≠ operationID
      ∨ ¬ safeProjectName reservation.projectID ∨ reservation.projectID ≠ reservation.name
      ∨ reservation.source = [] ∨ ¬ safeProjectName reservation.requested
      ∨ reservation.createdAt = 0)
    (.message (str "invalid project reservation"))

def ProjectReservation.Expired (reservation : ProjectReservation) (now : ℤ) : Prop :=
  now - reservation.createdAt ≥ reservationTTL

instance (reservation : ProjectReservation) (now : ℤ) : Decidable (reservation.Expired now) :=
  inferInstanceAs (Decidable (_ ≥ _))

/-- The directory: records by id, reservations by operation, and the journal of a migration. -/
structure Disk where
  records : List ProjectRecord
  reservations : List ProjectReservation
  journal : Option (List MigrationTarget)

inductive Action
  | read
  | put (record : ProjectRecord)
  | delete (id : Bytes)
  | reserve (reservation : ProjectReservation)
  | release (operationID : Bytes)
  | publish (targets : List MigrationTarget)
  | clear
  /-- `planProjectNameMigration`. -/
  | plan (records : List ProjectRecord)
  /-- `nextProjectName`. -/
  | search (base : Bytes) (occupied : List Bytes)

def Answer : Action → Type
  | .read => Disk
  | .plan _ => List MigrationTarget
  | .search _ _ => Bytes
  | _ => Unit

/-- What the actions do.  A search is answered when it ends, over no more names than a slice
holds. -/
def Effect : (a : Action) → Disk → Answer a → Disk → Prop
  | .read, s, r, s' => r = s ∧ s' = s
  | .put record, s, _, s' => s' = { s with records := place s.records record }
  | .delete id, s, _, s' => s' = { s with records := s.records.filter (·.projectID ≠ id) }
  | .reserve reservation, s, _, s' =>
      s' = { s with reservations := s.reservations ++ [reservation] }
  | .release operationID, s, _, s' =>
      s' = { s with reservations := s.reservations.filter (·.operationID ≠ operationID) }
  | .publish targets, s, _, s' => s' = { s with journal := some targets }
  | .clear, s, _, s' => s' = { s with journal := none }
  | .plan records, s, r, s' =>
      s' = s ∧ records.length ≤ 2 ^ 48 ∧ ∃ fuel, planProjectNameMigration fuel records = some r
  | .search base occupied, s, r, s' =>
      s' = s ∧ occupied.length ≤ 2 ^ 48
        ∧ ∃ fuel, nextAvailableProjectName fuel base (projectNameKey · ∉ occupied) = some r

def machine : Machine Disk Action Answer where
  effect := Effect
  torn _ _ _ := False

abbrev Program := Code Action Answer Failure

/-! ### Reading -/

/-- `readRecord`, `none` if there is no such file. -/
def readRecord (id : Bytes) : Program (Option ProjectRecord) := do
  let disk : Disk ← Code.act .read .ret
  match disk.records.find? (·.projectID = id) with
  | none => pure none
  | some record => do
      Code.lift (record.validate id)
      pure (some record)

def listRecords : Program (List ProjectRecord) := do
  let disk : Disk ← Code.act .read .ret
  Code.lift (listUnlocked disk.records)

/-- `readReservation`, `none` if there is no such file. -/
def readReservation (operationID : Bytes) : Program (Option ProjectReservation) := do
  let disk : Disk ← Code.act .read .ret
  match disk.reservations.find? (·.operationID = operationID) with
  | none => pure none
  | some reservation => do
      Code.lift (reservation.validate operationID)
      pure (some reservation)

/-- The loop of `readReservations`: expired ones are removed. -/
def pruneReservations (now : ℤ) : List ProjectReservation → Program (List ProjectReservation)
  | [] => pure []
  | reservation :: rest => do
      Code.lift (reservation.validate reservation.operationID)
      if reservation.Expired now then do
        let _ : Unit ← Code.act (.release reservation.operationID) .ret
        pruneReservations now rest
      else do
        let live ← pruneReservations now rest
        pure (reservation :: live)

def readReservations (now : ℤ) : Program (List ProjectReservation) := do
  let disk : Disk ← Code.act .read .ret
  let live ← pruneReservations now disk.reservations
  pure (live.insertionSort fun left right => left.operationID ≤ right.operationID)

/-! ### Records -/

/-- `putUnlocked`. -/
def putRecord (record : ProjectRecord) : Program Unit := do
  Code.lift (record.validate record.projectID)
  Code.act (.put record) .ret

def validateProjectNameUnlocked (now : ℤ) (record : ProjectRecord) (ignoredOperation : Bytes) :
    Program Unit := do
  Code.refuse (¬ safeProjectName record.name)
    (.message (str "invalid project name " ++ quoted record.name))
  let records ← listRecords
  records.forM fun candidate =>
    Code.refuse (candidate.projectID ≠ record.projectID
        ∧ (projectNamesEqual candidate.projectID record.name
          ∨ projectNamesEqual candidate.name record.name
          ∨ projectNamesEqual candidate.name record.projectID))
      (.message (str "project name " ++ quoted record.name ++ str " conflicts with project "
        ++ quoted candidate.projectID))
  let reservations ← readReservations now
  reservations.forM fun reservation =>
    Code.refuse (reservation.operationID ≠ ignoredOperation
        ∧ (projectNamesEqual reservation.name record.name
          ∨ projectNamesEqual reservation.name record.projectID))
      (.message (str "project name " ++ quoted record.name
        ++ str " conflicts with pending operation " ++ quoted reservation.operationID))

/-- `Put`. -/
def put (now : ℤ) (record : ProjectRecord) : Program Unit := do
  Code.lift (record.validate record.projectID)
  validateProjectNameUnlocked now record []
  putRecord record

/-- `Delete`. -/
def delete (id : Bytes) : Program Unit := do
  Code.refuse (¬ domainSafeID id) (.message (str "invalid project ID " ++ quoted id))
  Code.act (.delete id) .ret

/-! ### Admission -/

structure Admission where
  projectID : Bytes
  name : Bytes
  existing : Option ProjectRecord
  reservation : Option ProjectReservation

structure AdmissionRequest where
  operationID : Bytes
  source : Bytes
  mode : Open ProjectMode
  requestedName : Bytes
  explicit : Bool
  workspaceNames : List Bytes

/-- The loop over the records of the same source. -/
def admitExisting (request : AdmissionRequest) : List ProjectRecord →
    Except Failure (Option Admission)
  | [] => pure none
  | record :: rest =>
      if record.sourceKey ≠ sourceKey request.source
          ∧ (record.sourceKey ≠ [] ∨ record.hostPath ≠ request.source) then
        admitExisting request rest
      else if record.mode ≠ request.mode then
        .error (.message (quoted record.name ++ str " is already in the yard as "
          ++ quoted record.mode.text ++ str "; remove it before re-adding as "
          ++ request.mode.text))
      else if request.mode = .known .sync ∨ request.mode = .known .git then
        admitExisting request rest
      else if request.explicit ∧ record.name ≠ request.requestedName then
        .error (.message (str "source is already registered as " ++ quoted record.name
          ++ str "; implicit rename to " ++ quoted request.requestedName ++ str " is not allowed"))
      else pure (some ⟨record.projectID, record.name, some record, none⟩)

/-- The loop over the reservations of the same source. -/
def admitReserved (request : AdmissionRequest) : List ProjectReservation →
    Except Failure (Option Admission)
  | [] => pure none
  | reservation :: rest =>
      if reservation.source = request.source then
        if reservation.operationID = request.operationID then
          if reservation.mode ≠ request.mode ∨ reservation.requested ≠ request.requestedName
              ∨ reservation.explicit ≠ request.explicit then
            .error (.message (str "project operation ID already has a different admission request"))
          else pure (some ⟨reservation.projectID, reservation.name, none, some reservation⟩)
        else if request.mode = .known .bind ∨ reservation.mode ≠ request.mode then
          .error (.admissionPending (str "project admission is already in progress"
            ++ str " for this source; retry shortly"))
        else admitReserved request rest
      else admitReserved request rest

/-- The keys of `occupied`, with their owners; later ones come first. -/
def occupiedNames (records : List ProjectRecord) (reservations : List ProjectReservation)
    (workspaceNames : List Bytes) : List (Bytes × Bytes) :=
  workspaceNames.reverse.map (fun name => (projectNameKey name, name))
    ++ reservations.reverse.map (fun r => (projectNameKey r.projectID, r.projectID))
    ++ records.reverse.flatMap fun r =>
      [(projectNameKey r.name, r.projectID), (projectNameKey r.projectID, r.projectID)]

/-- `writeReservation`: a link that must not exist with other contents. -/
def writeReservation (reservation : ProjectReservation) : Program Unit := do
  Code.refuse (¬ domainSafeID reservation.operationID)
    (.message (str "invalid project reservation operation ID"))
  let disk : Disk ← Code.act .read .ret
  match disk.reservations.find? (·.operationID = reservation.operationID) with
  | none => Code.act (.reserve reservation) .ret
  | some current =>
      if current.validate reservation.operationID = .ok () ∧ current = reservation then pure ()
      else Code.fail (.message (str "project operation ID already has a different reservation"))

/-- The name of a new project. -/
def admittedName (request : AdmissionRequest) (occupied : List (Bytes × Bytes)) : Program Bytes :=
  match occupied.find? (·.1 = projectNameKey request.requestedName) with
  | none => pure request.requestedName
  | some (_, owner) => do
      let name : Bytes ← Code.act (.search request.requestedName (occupied.map Prod.fst)) .ret
      if request.explicit then
        Code.fail (.message (str "project name " ++ quoted request.requestedName
          ++ str " conflicts with project " ++ quoted owner
          ++ str "; choose another explicit name such as " ++ quoted name))
      else pure name

/-- `Admit`; `created` is the time of the reservation. -/
def admitRequest (now created : ℤ) (request : AdmissionRequest) : Program Admission := do
  Code.refuse (request.operationID = [] ∨ ¬ domainSafeID request.operationID)
    (.message (str "project admission requires a safe operation ID"))
  Code.refuse (request.source = []) (.message (str "project source is required"))
  Code.refuse (¬ request.mode.isKnown)
    (.message (str "invalid project mode " ++ quoted request.mode.text))
  Code.refuse (¬ safeProjectName request.requestedName)
    (.message (str "invalid project name " ++ quoted request.requestedName
      ++ str "; use 1-50 ASCII letters, digits, '.', '_' or '-' and do not start with '-'"))
  let records ← listRecords
  match ← Code.lift (admitExisting request records) with
  | some admission => pure admission
  | none => do
      let reservations ← readReservations now
      match ← Code.lift (admitReserved request reservations) with
      | some admission => pure admission
      | none => do
          let name ← admittedName request
            (occupiedNames records reservations request.workspaceNames)
          let reservation : ProjectReservation :=
            ⟨1, request.operationID, name, name, request.source, request.mode,
              request.requestedName, request.explicit, created⟩
          writeReservation reservation
          pure ⟨name, name, none, some reservation⟩

/-- `FinalizeOperation`. -/
def finalizeOperation (now : ℤ) (operationID : Bytes) (record : ProjectRecord) : Program Unit := do
  Code.lift (record.validate record.projectID)
  match ← readReservation operationID with
  | none => Code.fail (.message (str "file does not exist"))
  | some reservation => do
      Code.refuse (record.projectID ≠ reservation.projectID ∨ record.name ≠ reservation.name
          ∨ record.hostPath ≠ reservation.source ∨ record.mode ≠ reservation.mode
          ∨ record.sourceKey ≠ sourceKey reservation.source)
        (.message (str "project admission result does not match its reservation"))
      validateProjectNameUnlocked now record reservation.operationID
      putRecord record
      Code.act (.release reservation.operationID) .ret

/-- `AbortAdmission`. -/
def abortAdmission (operationID : Bytes) : Program Unit :=
  if operationID = [] then pure () else Code.act (.release operationID) .ret

/-! ### Migration -/

/-- The check of a journal. -/
def validateProjectNameMigration (targets : List MigrationTarget) : Except Failure Unit := do
  refuse (targets = []) (.message (str "invalid project name migration journal"))
  targets.zipIdx.forM fun (target, i) => do
    refuse (¬ domainSafeID target.projectID ∨ ¬ safeProjectName target.name
        ∨ target.projectID ∈ (targets.take i).map (·.projectID))
      (.message (str "invalid project name migration target"))
    refuse (target.sourceKey ≠ [] ∧ ¬ validSourceKey target.sourceKey)
      (.message (str "invalid project name migration source key"))

/-- `writeProjectNameMigration`. -/
def writeProjectNameMigration (targets : List MigrationTarget) : Program Unit := do
  Code.lift (validateProjectNameMigration targets)
  Code.act (.publish targets) .ret

/-- One target of a journal; `records` are those listed at its start. -/
def writeTarget (records : List ProjectRecord) (target : MigrationTarget) : Program Unit :=
  match records.find? (·.projectID = target.projectID) with
  | none => pure ()
  | some record =>
      if record.name = target.name ∧ record.sourceKey = target.sourceKey then pure ()
      else putRecord (target.applyTo record)

/-- `applyProjectNameMigration`. -/
def applyJournal (targets : List MigrationTarget) : Program Unit := do
  let records ← listRecords
  targets.forM (writeTarget records)

/-- `resumeProjectNameMigration`; whether there was a journal. -/
def resumeProjectNameMigration : Program Bool := do
  let disk : Disk ← Code.act .read .ret
  match disk.journal with
  | none => pure false
  | some targets => do
      Code.lift (validateProjectNameMigration targets)
      applyJournal targets
      let _ : Unit ← Code.act .clear .ret
      pure true

/-- `MigrateLegacyNames`. -/
def migrateLegacyNames : Program Bool := do
  let resumed ← resumeProjectNameMigration
  let records ← listRecords
  let targets : List MigrationTarget ← Code.act (.plan records) .ret
  if targets = [] then pure resumed
  else do
    Code.lift (validateCanonicalMigrationTargets (importOrder records) targets)
    writeProjectNameMigration targets
    applyJournal targets
    let _ : Unit ← Code.act .clear .ret
    pure true

/-- The record of a project that was found in a yard. -/
def observedRecord (observed : ProjectRecord) (sshHost : Bytes) : ProjectRecord where
  schema := observed.schema
  identityVersion := observed.identityVersion
  projectID := observed.projectID
  name := observed.name
  hostPath := []
  sourceKey := []
  yardPath := observed.yardPath
  mode := observed.mode
  sshHost := sshHost
  importedAt := observed.importedAt
  target := observed.target
  profile := if observed.target ≠ [] ∧ observed.target ≠ str "yard" then observed.target else []
  registrySource := str "yard"

/-- The record a reservation stands for in the plan. -/
def reservedRecord (reservation : ProjectReservation) (sshHost : Bytes) : ProjectRecord where
  schema := 1
  identityVersion := 2
  projectID := reservation.projectID
  name := reservation.name
  hostPath := []
  sourceKey := []
  yardPath := yardPath reservation.projectID
  mode := reservation.mode
  sshHost := sshHost
  importedAt := []
  target := []
  profile := []
  registrySource := []

/-- The records that are planned for when a project is found. -/
def plannedRecords (records : List ProjectRecord) (record : ProjectRecord)
    (reservations : List ProjectReservation) (sshHost : Bytes) : List ProjectRecord :=
  records ++ [record] ++ reservations.map (reservedRecord · sshHost)

/-- The end of `ConvergeObserved`, with the targets of the plan. -/
def registerPlanned (planned : List ProjectRecord) (targets : List MigrationTarget)
    (record : ProjectRecord) : Program Unit :=
  if targets = [] then putRecord record
  else do
    Code.lift (validateCanonicalMigrationTargets (importOrder planned) targets)
    writeProjectNameMigration targets
    applyJournal targets
    putRecord (record.migrated targets)
    Code.act .clear .ret

/-- `ConvergeObserved`. -/
def convergeObserved (now : ℤ) (observed : ProjectRecord) (sshHost : Bytes) : Program Unit := do
  match ← readRecord observed.projectID with
  | some _ => pure ()
  | none => do
      let reservations ← readReservations now
      reservations.forM fun reservation =>
        Code.refuse (projectNamesEqual reservation.projectID observed.projectID)
          (.admissionPending (str "project admission is already in progress"
            ++ str "; retry project metadata convergence"))
      let record := observedRecord observed sshHost
      Code.lift (record.validate record.projectID)
      let records ← listRecords
      let planned := plannedRecords records record reservations sshHost
      let targets : List MigrationTarget ← Code.act (.plan planned) .ret
      registerPlanned planned targets record

/-! ### What the programs do -/

/-- The records and the journal are the same. -/
def Disk.Same (s t : Disk) : Prop := t.records = s.records ∧ t.journal = s.journal

lemma Disk.Same.refl (s : Disk) : s.Same s := ⟨rfl, rfl⟩

lemma Disk.Same.trans {s t u : Disk} (h : s.Same t) (h' : t.Same u) : s.Same u :=
  ⟨h'.1.trans h.1, h'.2.trans h.2⟩

section Specs

variable {α : Type} {inv : Disk → Prop} {post : Except Failure α → Disk → Prop} {s t : Disk}

/-- An action that has one effect. -/
lemma meets_act {a : Action} {k : Answer a → Program α} {r : Answer a} (hinv : inv s)
    (heffect : ∀ r' t', Effect a s r' t' → r' = r ∧ t' = t)
    (h : machine.Meets inv post (k r) t) : machine.Meets inv post (.act a k) s := by
  refine ⟨hinv, fun _ h => h.elim, fun r' t' h' => ?_⟩
  obtain ⟨rfl, rfl⟩ := heffect r' t' h'
  exact h

lemma meets_read {k : Disk → Program α} (hinv : inv s) (h : machine.Meets inv post (k s) s) :
    machine.Meets inv post (.act .read k) s :=
  meets_act hinv (fun _ _ h => h) h

/-- A write. -/
lemma meets_write {a : Action} {k : Answer a → Program α} (hunit : ∀ r r' : Answer a, r = r')
    (r : Answer a) (hinv : inv s) (heffect : ∀ r' t', Effect a s r' t' → t' = t)
    (h : machine.Meets inv post (k r) t) : machine.Meets inv post (.act a k) s :=
  meets_act hinv (fun r' t' h' => ⟨hunit r' r, heffect r' t' h'⟩) h

lemma listRecords_meets (hinv : inv s) :
    machine.Meets inv (fun r t => r = listUnlocked s.records ∧ t = s) listRecords s :=
  meets_read hinv (Machine.Meets.lift hinv ⟨rfl, rfl⟩)

lemma readRecord_meets (id : Bytes) (hinv : inv s) :
    machine.Meets inv (fun r t => t = s
        ∧ ∀ found, r = .ok found → (found.isSome ↔ ∃ x ∈ s.records, x.projectID = id))
      (readRecord id) s := by
  refine meets_read hinv ?_
  show machine.Meets inv _ (match s.records.find? (·.projectID = id) with
    | none => pure none
    | some record => (do Code.lift (record.validate id); pure (some record))) s
  split
  next hnone =>
    refine ⟨hinv, rfl, fun found h => ?_⟩
    cases h
    refine iff_of_false nofun ?_
    rintro ⟨x, hx, hid⟩
    exact List.find?_eq_none.mp hnone x hx (decide_eq_true hid)
  next record hsome =>
    refine Machine.Meets.bind (Machine.Meets.lift hinv ?_)
    split
    · refine ⟨hinv, rfl, fun found h => ?_⟩
      cases h
      exact iff_of_true rfl ⟨record, List.mem_of_find?_eq_some hsome,
        by simpa using List.find?_some hsome⟩
    · exact ⟨rfl, nofun⟩

/-- The reservations that are read are valid and live. -/
lemma pruneReservations_meets (now : ℤ) : ∀ (l : List ProjectReservation) {s : Disk},
    (∀ t, s.Same t → inv t) →
    machine.Meets inv (fun r t => s.Same t ∧ ∀ live, r = .ok live → ∀ x ∈ live, x ∈ l
        ∧ x.validate x.operationID = .ok () ∧ ¬ x.Expired now) (pruneReservations now l) s
  | [], s, hinv => ⟨hinv s (.refl s), .refl s, fun live h x hx => by cases h; cases hx⟩
  | reservation :: rest, s, hinv => by
    refine Machine.Meets.bind (Machine.Meets.lift (hinv s (.refl s)) ?_)
    cases hvalid : reservation.validate reservation.operationID with
    | error e => exact ⟨.refl s, nofun⟩
    | ok _ =>
      show machine.Meets inv _ (if reservation.Expired now then _ else _) s
      split
      next =>
        refine meets_write (fun _ _ => rfl) () (hinv s (.refl s)) (fun _ _ h => h) ?_
        show machine.Meets inv _ (pruneReservations now rest) { s with reservations := _ }
        refine Machine.Meets.mono ?_ (pruneReservations_meets now rest fun t ht => hinv t ht)
        rintro r t _ ⟨hsame, hlive⟩
        refine ⟨hsame, fun live h x hx => ?_⟩
        obtain ⟨hmem, hspec⟩ := hlive live h x hx
        exact ⟨List.mem_cons_of_mem _ hmem, hspec⟩
      next hexpired =>
        refine Machine.Meets.bind ((pruneReservations_meets now rest hinv).mono ?_)
        rintro r t _ ⟨hsame, hlive⟩
        cases r with
        | error e => exact ⟨hsame, nofun⟩
        | ok live =>
          refine ⟨hinv t hsame, hsame, fun live' h x hx => ?_⟩
          cases h
          rcases List.mem_cons.mp hx with rfl | hx
          · exact ⟨List.mem_cons_self, hvalid, hexpired⟩
          · obtain ⟨hmem, hspec⟩ := hlive live rfl x hx
            exact ⟨List.mem_cons_of_mem _ hmem, hspec⟩

lemma readReservations_meets (now : ℤ) (hinv : ∀ t, s.Same t → inv t) :
    machine.Meets inv (fun r t => s.Same t ∧ ∀ live, r = .ok live → ∀ x ∈ live,
        x ∈ s.reservations ∧ x.validate x.operationID = .ok () ∧ ¬ x.Expired now)
      (readReservations now) s := by
  refine meets_read (hinv s (.refl s)) ?_
  show machine.Meets inv _ (pruneReservations now s.reservations >>= _) s
  refine Machine.Meets.bind ((pruneReservations_meets now s.reservations hinv).mono ?_)
  rintro r t _ ⟨hsame, hlive⟩
  cases r with
  | error e => exact ⟨hsame, nofun⟩
  | ok live =>
    refine ⟨hinv t hsame, hsame, fun live' h x hx => ?_⟩
    cases h
    exact hlive live rfl x ((List.perm_insertionSort _ live).mem_iff.mp hx)

lemma putRecord_meets {record : ProjectRecord} (hinv : inv s)
    (hput : record.validate record.projectID = .ok () →
      inv { s with records := place s.records record }) :
    machine.Meets inv (fun r t => (r = .ok () ∧ record.validate record.projectID = .ok ()
        ∧ t = { s with records := place s.records record })
      ∨ ∃ e, r = .error e ∧ record.validate record.projectID = .error e ∧ t = s)
      (putRecord record) s := by
  refine Machine.Meets.bind (Machine.Meets.lift hinv ?_)
  cases hvalid : record.validate record.projectID with
  | error e => exact .inr ⟨e, rfl, rfl, rfl⟩
  | ok _ =>
    exact meets_write (fun _ _ => rfl) () hinv (fun _ _ h => h)
      ⟨hput hvalid, .inl ⟨rfl, rfl, rfl⟩⟩

/-- A loop of checks. -/
lemma forM_refuse_meets {β : Type} {p : β → Prop} [DecidablePred p] {e : β → Failure}
    (hinv : inv s) : ∀ l : List β,
    machine.Meets inv (fun r t => t = s ∧ (r = .ok () → ∀ x ∈ l, ¬ p x))
      (l.forM fun x => (Code.refuse (p x) (e x) : Program PUnit)) s
  | [] => ⟨hinv, rfl, fun _ => nofun⟩
  | x :: l => by
    show machine.Meets inv _ (Code.refuse (p x) (e x) >>= fun _ => l.forM _) s
    refine Machine.Meets.bind (Machine.Meets.refuse hinv (fun _ => ⟨rfl, nofun⟩) fun hx => ?_)
    refine (forM_refuse_meets hinv l).mono ?_
    rintro r t _ ⟨rfl, h⟩
    exact ⟨rfl, fun hr => List.forall_mem_cons.mpr ⟨hx, h hr⟩⟩

/-- The program of one target does what the pass does. -/
lemma writeTarget_meets {records current next : List ProjectRecord} {target : MigrationTarget}
    (happly : applyTarget records current target = .ok next)
    (hinv : inv { s with records := current }) (hnext : inv { s with records := next }) :
    machine.Meets inv (fun r t => r = .ok () ∧ t = { s with records := next })
      (writeTarget records target) { s with records := current } := by
  rw [applyTarget] at happly
  rw [writeTarget]
  cases hfind : records.find? (·.projectID = target.projectID) with
  | none =>
    rw [hfind] at happly
    cases happly
    exact ⟨hinv, rfl, rfl⟩
  | some record =>
    rw [hfind] at happly
    dsimp only at happly ⊢
    by_cases hreached : record.name = target.name ∧ record.sourceKey = target.sourceKey
    · rw [if_pos hreached] at happly ⊢
      cases happly
      exact ⟨hinv, rfl, rfl⟩
    · rw [if_neg hreached] at happly ⊢
      obtain ⟨hvalid, hplace⟩ := check_bind.mp happly
      cases hplace
      refine (putRecord_meets hinv fun _ => hnext).mono ?_
      rintro r t _ (⟨hr, _, ht⟩ | ⟨e, _, herror, _⟩)
      · exact ⟨hr, ht⟩
      · rw [hvalid] at herror
        cases herror

/-- **The journal is applied as in one pass**, and an interruption leaves what a first part of it
makes of the records. -/
lemma applyJournal_meets {targets : List MigrationTarget} {final : List ProjectRecord}
    (hids : (s.records.map (·.projectID)).Nodup) (htargets : (targets.map (·.projectID)).Nodup)
    (happly : applyProjectNameMigration s.records targets = .ok final) (hinv : inv s)
    (hpart : ∀ k part, applyProjectNameMigration s.records (targets.take k) = .ok part →
      inv { s with records := part }) :
    machine.Meets inv (fun r t => r = .ok () ∧ t = { s with records := final })
      (applyJournal targets) s := by
  obtain ⟨records, hlist, hfold⟩ := of_bind_ok happly
  obtain ⟨hvalid, happlies, rfl⟩ := (applyProjectNameMigration_ok hids htargets).mp happly
  have hperm := (listUnlocked_ok hlist).2
  have hstate : ∀ k, inv { s with records := s.records.map (·.migrated (targets.take k)) } :=
    fun k => hpart k _ ((applyProjectNameMigration_ok hids
      (htargets.sublist ((List.take_sublist _ _).map _))).mpr
      ⟨hvalid, fun target htarget => happlies target (List.mem_of_mem_take htarget), rfl⟩)
  -- one target after the other, from what those before it made of the records
  have hloop : ∀ (rest done : List MigrationTarget), done ++ rest = targets →
      machine.Meets inv (fun r t => r = .ok ()
          ∧ t = { s with records := s.records.map (·.migrated targets) })
        (rest.forM (writeTarget records))
        { s with records := s.records.map (·.migrated done) } := by
    intro rest
    induction rest with
    | nil =>
      intro done hdone
      rw [List.append_nil] at hdone
      have := hstate targets.length
      rw [List.take_length] at this
      rw [hdone]
      exact ⟨this, rfl, rfl⟩
    | cons target rest ih =>
      intro done hdone
      have htake : done = targets.take done.length := by rw [← hdone, List.take_left]
      have htake' : done ++ [target] = targets.take (done.length + 1) := by
        have hlength : (done ++ [target]).length = done.length + 1 := by simp
        have hsplit : targets = done ++ [target] ++ rest := by rw [← hdone, List.append_cons]
        rw [hsplit, ← hlength, List.take_left]
      have hnew : target.projectID ∉ done.map (·.projectID) := by
        rw [← hdone, List.map_append, List.nodup_append'] at htargets
        exact fun hmem => htargets.2.2 hmem List.mem_cons_self
      have hstep := (applyTarget_ok hids hperm hnew).mpr
        ⟨happlies target (hdone ▸ List.mem_append_right _ List.mem_cons_self), rfl⟩
      show machine.Meets inv _ (writeTarget records target >>= fun _ => rest.forM _) _
      refine Machine.Meets.bind ((writeTarget_meets hstep (by rw [htake]; exact hstate _)
        (by rw [htake']; exact hstate _)).mono ?_)
      rintro r t _ ⟨rfl, rfl⟩
      exact ih (done ++ [target]) (by rw [← hdone, List.append_assoc]; rfl)
  refine Machine.Meets.bind ((listRecords_meets hinv).mono ?_)
  rintro r t _ ⟨rfl, rfl⟩
  rw [hlist]
  have hnil : t.records.map (·.migrated []) = t.records := List.map_id _
  have := hloop targets [] rfl
  rw [hnil] at this
  exact this

end Specs

end Subyard.State
