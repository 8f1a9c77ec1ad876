import Subyard.Library.Interrupt
import Subyard.Release.Basic

/-!
Protected records: a file that is replaced by writing a staging file beside it and renaming that.

* `Disk`: the directory of one record with its files.  A power failure (`Disk.Lost`) brings back
  some version of the directory since it was last synced, and leaves of a file that was not synced
  any beginning.
* `compareAndSwap`, `createImmutable`: the code, one action for each call of the file system.
* `Cell`: the record as its users see it, with the operations in one step.
* `Disk.Sound`: what holds of the disk at every point of every call.
* `compareAndSwap_meets`, `createImmutable_meets`: **the code refines the operations on cells, and
  keeps the disk sound wherever it is interrupted**.
-/

namespace Subyard.Release

open Text Fallible Interrupt

/-! ### The file system -/

/-- The names in the directory: the files of the record and of the staging file. -/
structure Names where
  record : Option ℕ := none
  pending : Option ℕ := none
deriving DecidableEq

/-- The files, the directory, and its versions since it was last synced.  `published` is a history
variable: the contents of every file that was renamed to the record. -/
structure Disk where
  content : ℕ → Bytes := fun _ => []
  synced : ℕ → Bool := fun _ => true
  next : ℕ := 0
  names : Names := {}
  past : List Names := []
  published : List Bytes := []

namespace Disk

/-- The contents of the record. -/
def record (s : Disk) : Option Bytes := s.names.record.map s.content

/-- The contents of the staging file. -/
def pending (s : Disk) : Option Bytes := s.names.pending.map s.content

/-- A new version of the directory. -/
def relink (s : Disk) (names : Names) : Disk :=
  { s with names := names, past := s.names :: s.past }

def create (s : Disk) : Disk :=
  { s with
    content := Function.update s.content s.next []
    synced := Function.update s.synced s.next false
    next := s.next + 1 }.relink { s.names with pending := some s.next }

def append (s : Disk) (i : ℕ) (bytes : Bytes) : Disk :=
  { s with
    content := Function.update s.content i (s.content i ++ bytes)
    synced := Function.update s.synced i false }

def syncFile (s : Disk) (i : ℕ) : Disk := { s with synced := Function.update s.synced i true }

def syncDir (s : Disk) : Disk := { s with past := [] }

def unlink (s : Disk) : Disk := s.relink { s.names with pending := none }

def publish (s : Disk) (i : ℕ) : Disk :=
  { s with published := s.published ++ [s.content i] }.relink ⟨some i, none⟩

/-- What a power failure may leave. -/
def Lost (s s' : Disk) : Prop :=
  ∃ names ∈ s.names :: s.past, ∃ content : ℕ → Bytes,
    (∀ i, if s.synced i then content i = s.content i else content i <+: s.content i)
      ∧ s' = { s with content := content, synced := fun _ => true, names := names, past := [] }

end Disk

/-- How a rename may end. -/
inductive Renamed
  | done
  | taken
  | missing
deriving DecidableEq

/-- The calls of the file system; all but `readRecord` are about the staging file or the
directory. -/
inductive FsOp
  | readRecord
  | readPending
  | createPending
  | append (bytes : Bytes)
  | syncFile
  | syncDir
  | unlinkPending
  | rename (replace : Bool)

/-- The answer to a call; `createPending` tells whether there was no staging file yet. -/
def FsOp.Answer : FsOp → Type
  | .readRecord | .readPending => Option Bytes
  | .createPending => Bool
  | .rename _ => Renamed
  | _ => Unit

/-- The effect of a call. -/
def Disk.step : (o : FsOp) → Disk → o.Answer × Disk
  | .readRecord, s => (s.record, s)
  | .readPending, s => (s.pending, s)
  | .createPending, s => if s.names.pending.isSome then (false, s) else (true, s.create)
  | .append bytes, s => ((), match s.names.pending with
      | some i => s.append i bytes
      | none => s)
  | .syncFile, s => ((), match s.names.pending with
      | some i => s.syncFile i
      | none => s)
  | .syncDir, s => ((), s.syncDir)
  | .unlinkPending, s => ((), s.unlink)
  | .rename replace, s =>
      match s.names.pending with
      | some i =>
          if s.names.record.isSome ∧ ¬ replace then (.taken, s) else (.done, s.publish i)
      | none => (.missing, s)

/-- A write that is interrupted leaves a beginning of what was to be written. -/
def Disk.Torn : FsOp → Disk → Disk → Prop
  | .append bytes, s, s' => ∃ i start, s.names.pending = some i ∧ start <+: bytes
      ∧ s' = s.append i start
  | _, _, _ => False

/-- The machine the code runs on. -/
def fileSystem : Machine Disk FsOp FsOp.Answer := .ofFun Disk.step Disk.Torn

abbrev Fs := Code FsOp FsOp.Answer Failure

/-! ### The code -/

def readRecordAt : Fs (Option Bytes) := .act .readRecord .ret

def readPendingAt : Fs (Option Bytes) := .act .readPending .ret

def createPendingAt : Fs Bool := .act .createPending .ret

def appendAt (bytes : Bytes) : Fs Unit := .act (.append bytes) .ret

def syncFileAt : Fs Unit := .act .syncFile .ret

def syncDirAt : Fs Unit := .act .syncDir .ret

def unlinkPendingAt : Fs Unit := .act .unlinkPending .ret

def renameAt (replace : Bool) : Fs Renamed := .act (.rename replace) .ret

/-- `readProtectedAt`. -/
def readProtectedAt : Fs ProtectedSnapshot := do
  let record ← readRecordAt
  .lift (readProtected record)

/-- `readStagingAt`. -/
def readStagingAt : Fs (Option Bytes) := do
  let pending ← readPendingAt
  .refuse ((pending.getD []).length > maxProtectedRecordBytes)
    (.other (str "protected release transition staging size is outside the allowed bound"))
  pure pending

/-- `discardOrphanedCASPendingAt`. -/
def discardOrphanedCASPendingAt (expected : ProtectedSnapshot) (payload : Bytes) : Fs Unit := do
  let pending ← readStagingAt
  if pending = none ∨ pending = some payload then pure ()
  else do
    let current ← readProtectedAt
    .refuse (current ≠ expected) .stale
    unlinkPendingAt
    syncDirAt

/-- What is still to be written to the staging file; `conflict` is the error if it holds
something else. -/
def remainingAt (payload : Bytes) (conflict : Failure) : Fs Bytes := do
  let created ← createPendingAt
  if created then pure payload
  else do
    let current ← readPendingAt
    .refuse ((current.getD []).length > maxProtectedRecordBytes
      ∨ ¬ (current.getD []).isPrefixOf payload) conflict
    pure (payload.drop (current.getD []).length)

/-- `preparePendingAt`. -/
def preparePendingAt (payload : Bytes) (conflict : Failure) : Fs Unit := do
  let remaining ← remainingAt payload conflict
  appendAt remaining
  syncFileAt
  syncDirAt

/-- `publishAt`. -/
def publishAt (expected : ProtectedSnapshot) (payload : Bytes) (conflict : Failure) :
    Fs Unit := do
  let current ← readProtectedAt
  .refuse (current ≠ expected) conflict
  preparePendingAt payload conflict
  let current ← readProtectedAt
  .refuse (current ≠ expected) conflict
  let renamed ← renameAt expected.exists'
  .refuse (renamed = .taken) conflict
  .refuse (renamed = .missing) (.other (str "no such file or directory"))
  syncDirAt

def compareAndSwap (expected : ProtectedSnapshot) (payload : Bytes) : Fs Unit := do
  .lift (validateProtectedPayload payload)
  .refuse (¬ validProtectedSnapshot expected)
    (.other (str "expected protected record snapshot is invalid"))
  discardOrphanedCASPendingAt expected payload
  publishAt expected payload .stale

def createImmutable (payload : Bytes) : Fs Unit := do
  .lift (validateProtectedPayload payload)
  let current ← readProtectedAt
  if current.exists' then do
    .refuse (current.payload ≠ payload) .alreadyExists
    syncDirAt
  else publishAt current payload .alreadyExists

/-! ### Records in one step -/

/-- The contents of the record and of its staging file. -/
structure Cell where
  record : Option Bytes := none
  pending : Option Bytes := none
deriving DecidableEq, Repr

namespace Cell

/-- A staging file of a size that is never written. -/
def Oversized (c : Cell) : Prop := (c.pending.getD []).length > maxProtectedRecordBytes

instance (c : Cell) : Decidable c.Oversized := inferInstanceAs (Decidable (_ > _))

/-- `compareAndSwap` in one step. -/
def compareAndSwap (c : Cell) (expected : ProtectedSnapshot) (payload : Bytes) :
    Except Failure Cell := do
  validateProtectedPayload payload
  refuse (¬ validProtectedSnapshot expected)
    (.other (str "expected protected record snapshot is invalid"))
  refuse c.Oversized
    (.other (str "protected release transition staging size is outside the allowed bound"))
  let current ← readProtected c.record
  refuse (current ≠ expected) .stale
  pure { record := some payload }

/-- `createImmutable` in one step.  Other than by `compareAndSwap`, a staging file that holds
something else is not removed. -/
def createImmutable (c : Cell) (payload : Bytes) : Except Failure Cell := do
  validateProtectedPayload payload
  let current ← readProtected c.record
  if current.exists' then do
    refuse (current.payload ≠ payload) .alreadyExists
    pure c
  else do
    refuse (c.Oversized ∨ ¬ (c.pending.getD []).isPrefixOf payload) .alreadyExists
    pure { record := some payload }

end Cell

/-- The cell a disk stands for. -/
def Disk.cell (s : Disk) : Cell := ⟨s.record, s.pending⟩

/-! ### Sound disks -/

/-- Whatever version of the directory a power failure brings back, the record in it is a synced
file with contents that were published, and it is not the file that is being written. -/
structure Disk.Sound (P : Bytes → Prop) (s : Disk) : Prop where
  recorded : ∀ n ∈ s.names :: s.past, ∀ i, n.record = some i →
    s.synced i ∧ s.content i ∈ s.published
  below : ∀ n ∈ s.names :: s.past, ∀ i, n.record = some i ∨ n.pending = some i → i < s.next
  apart : ∀ n ∈ s.names :: s.past, ∀ i, n.record = some i →
    s.names.pending ≠ some i ∧ n.pending ≠ some i
  known : ∀ p ∈ s.published, P p
  bounded : ∀ i, (s.content i).length ≤ maxProtectedRecordBytes

namespace Disk.Sound

variable {P : Bytes → Prop} {s : Disk}

lemma empty : Disk.Sound P {} where
  recorded n hn i hi := by simp_all
  below n hn i hi := by simp_all
  apart n hn i hi := by simp_all
  known p hp := by cases hp
  bounded i := Nat.zero_le _

lemma relink (h : s.Sound P) {names : Names}
    (hrecord : ∀ i, names.record = some i →
      s.synced i ∧ s.content i ∈ s.published ∧ i < s.next)
    (hpending : ∀ i, names.pending = some i →
      i < s.next ∧ ∀ n ∈ names :: s.names :: s.past, n.record ≠ some i) :
    (s.relink names).Sound P where
  recorded n hn i hi := by
    rcases List.mem_cons.mp hn with rfl | hn
    · exact ⟨(hrecord i hi).1, (hrecord i hi).2.1⟩
    · exact h.recorded n hn i hi
  below n hn i hi := by
    rcases List.mem_cons.mp hn with rfl | hn
    · rcases hi with hi | hi
      · exact (hrecord i hi).2.2
      · exact (hpending i hi).1
    · exact h.below n hn i hi
  apart n hn i hi := by
    refine ⟨fun hp => (hpending i hp).2 n hn hi, fun hp => ?_⟩
    rcases List.mem_cons.mp hn with rfl | hn
    · exact (hpending i hp).2 _ (by simp) hi
    · exact (h.apart n hn i hi).2 hp
  known := h.known
  bounded := h.bounded

/-- A change to files that no version of the directory has as its record. -/
lemma rewrite (h : s.Sound P) {content : ℕ → Bytes} {synced : ℕ → Bool} {next : ℕ}
    (hnext : s.next ≤ next)
    (hsame : ∀ n ∈ s.names :: s.past, ∀ i, n.record = some i →
      synced i = s.synced i ∧ content i = s.content i)
    (hbounded : ∀ i, (content i).length ≤ maxProtectedRecordBytes) :
    Disk.Sound P { s with content := content, synced := synced, next := next } where
  recorded n hn i hi := by
    obtain ⟨hs, hc⟩ := hsame n hn i hi
    show synced i = true ∧ content i ∈ s.published
    rw [hs, hc]
    exact h.recorded n hn i hi
  below n hn i hi := (h.below n hn i hi).trans_le hnext
  apart := h.apart
  known := h.known
  bounded := hbounded

lemma create (h : s.Sound P) : s.create.Sound P := by
  have hfresh : ∀ n ∈ s.names :: s.past, n.record ≠ some s.next := fun n hn hi =>
    absurd (h.below n hn _ (.inl hi)) (lt_irrefl _)
  refine relink (rewrite h (Nat.le_succ _) ?_ ?_) ?_ ?_
  · intro n hn i hi
    have hne : i ≠ s.next := fun heq => hfresh n hn (heq ▸ hi)
    rw [Function.update_of_ne hne, Function.update_of_ne hne]
    exact ⟨rfl, rfl⟩
  · intro i
    by_cases hi : i = s.next
    · rw [hi, Function.update_self]
      exact Nat.zero_le _
    · rw [Function.update_of_ne hi]
      exact h.bounded i
  · intro i hi
    have hne : i ≠ s.next := fun heq => hfresh s.names (by simp) (heq ▸ hi)
    show Function.update s.synced s.next false i = true
      ∧ Function.update s.content s.next [] i ∈ s.published ∧ i < s.next + 1
    rw [Function.update_of_ne hne, Function.update_of_ne hne]
    obtain ⟨hsynced, hpublished⟩ := h.recorded s.names (by simp) i hi
    exact ⟨hsynced, hpublished, (h.below s.names (by simp) i (.inl hi)).trans (Nat.lt_succ_self _)⟩
  · intro i hi
    obtain rfl : s.next = i := Option.some.inj hi
    refine ⟨Nat.lt_succ_self _, fun n hn => ?_⟩
    rcases List.mem_cons.mp hn with rfl | hn
    · exact hfresh s.names (by simp)
    · exact hfresh n hn

lemma append (h : s.Sound P) {i : ℕ} (hi : s.names.pending = some i) {bytes : Bytes}
    (hsize : (s.content i ++ bytes).length ≤ maxProtectedRecordBytes) :
    (s.append i bytes).Sound P := by
  refine rewrite h le_rfl ?_ ?_
  · intro n hn j hj
    have hne : j ≠ i := fun heq => (h.apart n hn j hj).1 (heq ▸ hi)
    rw [Function.update_of_ne hne, Function.update_of_ne hne]
    exact ⟨rfl, rfl⟩
  · intro j
    by_cases hj : j = i
    · rw [hj, Function.update_self]
      exact hsize
    · rw [Function.update_of_ne hj]
      exact h.bounded j

lemma syncFile (h : s.Sound P) {i : ℕ} (hi : s.names.pending = some i) :
    (s.syncFile i).Sound P := by
  refine rewrite h le_rfl ?_ h.bounded
  intro n hn j hj
  have hne : j ≠ i := fun heq => (h.apart n hn j hj).1 (heq ▸ hi)
  rw [Function.update_of_ne hne]
  exact ⟨rfl, rfl⟩

/-- Fewer versions of the directory can come back. -/
lemma settle (h : s.Sound P) {names : Names} (hnames : names ∈ s.names :: s.past) :
    Disk.Sound P { s with names := names, past := [] } where
  recorded n hn i hi := by
    rw [List.mem_singleton.mp hn] at hi
    exact h.recorded names hnames i hi
  below n hn i hi := by
    rw [List.mem_singleton.mp hn] at hi
    exact h.below names hnames i hi
  apart n hn i hi := by
    rw [List.mem_singleton.mp hn] at hi ⊢
    exact ⟨(h.apart names hnames i hi).2, (h.apart names hnames i hi).2⟩
  known := h.known
  bounded := h.bounded

lemma syncDir (h : s.Sound P) : s.syncDir.Sound P := h.settle List.mem_cons_self

lemma unlink (h : s.Sound P) : s.unlink.Sound P := by
  refine h.relink (fun i hi => ?_) (fun i hi => by cases hi)
  obtain ⟨hsynced, hpublished⟩ := h.recorded s.names (by simp) i hi
  exact ⟨hsynced, hpublished, h.below s.names (by simp) i (.inl hi)⟩

lemma publish (h : s.Sound P) {i : ℕ} (hi : s.names.pending = some i) (hsynced : s.synced i)
    (hP : P (s.content i)) : (s.publish i).Sound P := by
  have hlog : Disk.Sound P { s with published := s.published ++ [s.content i] } :=
    { recorded := fun n hn j hj =>
        ⟨(h.recorded n hn j hj).1, List.mem_append_left _ (h.recorded n hn j hj).2⟩
      below := h.below
      apart := h.apart
      known := fun p hp => by
        rcases List.mem_append.mp hp with hp | hp
        · exact h.known p hp
        · rw [List.mem_singleton.mp hp]
          exact hP
      bounded := h.bounded }
  refine hlog.relink (fun j hj => ?_) (fun j hj => by cases hj)
  obtain rfl : i = j := Option.some.inj hj
  exact ⟨hsynced, by simp, h.below _ (by simp) i (.inr hi)⟩

/-- A power failure leaves a sound disk. -/
lemma lost (h : s.Sound P) {s' : Disk} (hlost : s.Lost s') : s'.Sound P := by
  obtain ⟨names, hnames, content, hcontent, rfl⟩ := hlost
  have hsettled := h.settle hnames
  refine hsettled.rewrite le_rfl ?_ ?_
  · intro n hn i hi
    have hsynced := (hsettled.recorded n hn i hi).1
    have hkept := hcontent i
    rw [if_pos hsynced] at hkept
    exact ⟨hsynced.symm, hkept⟩
  · intro i
    have hkept := hcontent i
    split at hkept
    · rw [hkept]
      exact h.bounded i
    · exact hkept.length_le.trans (h.bounded i)

end Disk.Sound

/-! ### Symbolic execution -/

section Calls

variable {α : Type} {inv : Disk → Prop} {post : Except Failure α → Disk → Prop} {s : Disk}

lemma meets_readPending {f : Option Bytes → Fs α} (hinv : inv s)
    (h : fileSystem.Meets inv post (f s.pending) s) :
    fileSystem.Meets inv post (readPendingAt >>= f) s :=
  Machine.Meets.act rfl hinv (fun _ h => h.elim) h

lemma meets_readProtected {f : ProtectedSnapshot → Fs α} (hinv : inv s)
    (hok : ∀ snapshot, readProtected s.record = .ok snapshot →
      fileSystem.Meets inv post (f snapshot) s)
    (herror : ∀ e, readProtected s.record = .error e → post (.error e) s) :
    fileSystem.Meets inv post (readProtectedAt >>= f) s := by
  refine Machine.Meets.act rfl hinv (fun _ h => h.elim) ?_
  show fileSystem.Meets inv post ((Code.lift (readProtected s.record)).bind f) s
  cases hread : readProtected s.record with
  | ok snapshot => exact hok snapshot hread
  | error e => exact ⟨hinv, herror e hread⟩

lemma meets_lift {β : Type} {x : Except Failure β} {v : β} (hx : x = .ok v) {f : β → Fs α}
    (h : fileSystem.Meets inv post (f v) s) :
    fileSystem.Meets inv post (Code.lift x >>= f) s := by
  rw [hx]
  exact h

lemma meets_refuse {p : Prop} [Decidable p] {e : Failure} {f : Unit → Fs α} (hinv : inv s)
    (hfail : p → post (.error e) s) (hpass : ¬ p → fileSystem.Meets inv post (f ()) s) :
    fileSystem.Meets inv post (Code.refuse p e >>= f) s :=
  .bind (.refuse hinv hfail hpass)

lemma meets_unlink {f : Unit → Fs α} (hinv : inv s)
    (h : fileSystem.Meets inv post (f ()) s.unlink) :
    fileSystem.Meets inv post (unlinkPendingAt >>= f) s :=
  Machine.Meets.act rfl hinv (fun _ h => h.elim) h

lemma meets_append {f : Unit → Fs α} {i : ℕ} {bytes : Bytes} (hi : s.names.pending = some i)
    (hinv : inv s) (htorn : ∀ start, start <+: bytes → inv (s.append i start))
    (h : fileSystem.Meets inv post (f ()) (s.append i bytes)) :
    fileSystem.Meets inv post (appendAt bytes >>= f) s := by
  have hstep : Disk.step (.append bytes) s = ((), s.append i bytes) := by
    rw [Disk.step, hi]
    rfl
  refine Machine.Meets.act hstep hinv ?_ h
  rintro s' ⟨j, start, hj, hstart, rfl⟩
  obtain rfl : i = j := Option.some.inj (hi.symm.trans hj)
  exact htorn start hstart

lemma meets_syncFile {f : Unit → Fs α} {i : ℕ} (hi : s.names.pending = some i) (hinv : inv s)
    (h : fileSystem.Meets inv post (f ()) (s.syncFile i)) :
    fileSystem.Meets inv post (syncFileAt >>= f) s := by
  have hstep : Disk.step .syncFile s = ((), s.syncFile i) := by
    rw [Disk.step, hi]
    rfl
  exact Machine.Meets.act hstep hinv (fun _ h => h.elim) h

lemma meets_create {f : Bool → Fs α} (hinv : inv s)
    (hold : s.names.pending.isSome → fileSystem.Meets inv post (f false) s)
    (hnew : s.names.pending = none → fileSystem.Meets inv post (f true) s.create) :
    fileSystem.Meets inv post (createPendingAt >>= f) s := by
  by_cases hp : s.names.pending.isSome
  · have hstep : Disk.step .createPending s = (false, s) := if_pos hp
    exact Machine.Meets.act hstep hinv (fun _ h => h.elim) (hold hp)
  · have hstep : Disk.step .createPending s = (true, s.create) := if_neg hp
    exact Machine.Meets.act hstep hinv (fun _ h => h.elim) (hnew (by simpa using hp))

lemma meets_rename {f : Renamed → Fs α} {i : ℕ} {replace : Bool} (hi : s.names.pending = some i)
    (hfree : s.names.record.isSome → replace) (hinv : inv s)
    (h : fileSystem.Meets inv post (f .done) (s.publish i)) :
    fileSystem.Meets inv post (renameAt replace >>= f) s := by
  have hnot : ¬ (s.names.record.isSome ∧ ¬ replace) := fun hboth => hboth.2 (hfree hboth.1)
  have hstep : Disk.step (.rename replace) s = (.done, s.publish i) := by
    simp only [Disk.step, hi, if_neg hnot]
  exact Machine.Meets.act hstep hinv (fun _ h => h.elim) h

end Calls

/-! ### Staging -/

section Staging

variable {P : Bytes → Prop} {s : Disk}

/-- The staging file is open, and with `remaining` it will hold the payload. -/
structure Disk.Opened (s : Disk) (payload : Bytes) (remaining : Bytes) (t : Disk) : Prop where
  file : ∃ i, t.names.pending = some i ∧ t.content i ++ remaining = payload
  names : t.names.record = s.names.record
  same : t.record = s.record

lemma Disk.record_eq_of {t : Disk} (hnames : t.names.record = s.names.record)
    (hcontent : ∀ i, s.names.record = some i → t.content i = s.content i) :
    t.record = s.record := by
  rw [Disk.record, Disk.record, hnames]
  cases hi : s.names.record with
  | none => rfl
  | some i => exact congrArg some (hcontent i hi)

lemma remainingAt_meets (h : s.Sound P) {payload : Bytes} {conflict : Failure}
    (hfit : (s.pending.getD []).isPrefixOf payload) :
    fileSystem.Meets (Disk.Sound P)
      (fun r t => ∃ remaining, r = .ok remaining ∧ s.Opened payload remaining t)
      (remainingAt payload conflict) s := by
  refine meets_create h (fun hsome => ?_) (fun hnone => ?_)
  · -- the staging file is there already
    obtain ⟨i, hi⟩ := Option.isSome_iff_exists.mp hsome
    have hpending : s.pending = some (s.content i) := by rw [Disk.pending, hi]; rfl
    rw [hpending, Option.getD_some, List.isPrefixOf_iff_prefix] at hfit
    refine meets_readPending h (meets_refuse h (fun hbad => ?_) fun _ => ⟨h, _, rfl, ?_⟩)
    · exfalso
      rw [hpending, Option.getD_some, List.isPrefixOf_iff_prefix] at hbad
      exact hbad.elim (fun hlong => absurd (h.bounded i) (by omega)) fun hnot => hnot hfit
    · refine ⟨⟨i, hi, ?_⟩, rfl, rfl⟩
      rw [hpending, Option.getD_some]
      exact List.prefix_append_drop hfit |>.symm
  · refine ⟨h.create, payload, rfl, ⟨s.next, rfl, ?_⟩, rfl, ?_⟩
    · show Function.update s.content s.next [] s.next ++ payload = payload
      rw [Function.update_self, List.nil_append]
    · refine Disk.record_eq_of rfl fun i hi => ?_
      exact Function.update_of_ne (h.below s.names (by simp) i (.inl hi)).ne _ _

/-- The staging file holds the payload, for good. -/
structure Disk.Staged (s : Disk) (payload : Bytes) (t : Disk) : Prop where
  file : ∃ i, t.names.pending = some i ∧ t.content i = payload ∧ t.synced i
  names : t.names.record = s.names.record
  same : t.record = s.record

lemma preparePendingAt_meets (h : s.Sound P) {payload : Bytes} {conflict : Failure}
    (hsize : payload.length ≤ maxProtectedRecordBytes)
    (hfit : (s.pending.getD []).isPrefixOf payload) :
    fileSystem.Meets (Disk.Sound P) (fun r t => r = .ok () ∧ s.Staged payload t)
      (preparePendingAt payload conflict) s := by
  refine .bind ((remainingAt_meets h hfit).mono ?_)
  rintro r t ht ⟨remaining, rfl, ⟨i, hi, hcontent⟩, hnames, hsame⟩
  have happend : ∀ start, start <+: remaining → (t.append i start).Sound P := by
    intro start hstart
    refine ht.append hi ?_
    have hlen := congrArg List.length hcontent
    have hle := hstart.length_le
    rw [List.length_append] at hlen ⊢
    omega
  have hi' : (t.append i remaining).names.pending = some i := hi
  refine meets_append hi ht happend ?_
  refine meets_syncFile hi' (happend _ List.prefix_rfl) ?_
  have hsynced := (happend remaining List.prefix_rfl).syncFile hi'
  refine Machine.Meets.act rfl hsynced (fun _ h => h.elim) ⟨hsynced.syncDir, rfl, ?_⟩
  refine ⟨⟨i, hi, ?_, ?_⟩, hnames, ?_⟩
  · show Function.update t.content i (t.content i ++ remaining) i = payload
    rw [Function.update_self, hcontent]
  · exact Function.update_self ..
  · rw [← hsame]
    refine Disk.record_eq_of rfl fun j hj => ?_
    have hne : j ≠ i := fun heq => (ht.apart t.names (by simp) j hj).1 (heq ▸ hi)
    exact Function.update_of_ne hne _ _

end Staging

/-! ### The operations -/

section Operations

variable {P : Bytes → Prop} {s : Disk} {expected : ProtectedSnapshot} {payload : Bytes}

/-- A payload is published over the expected record. -/
lemma publishAt_meets (h : s.Sound P) {conflict : Failure} (hP : P payload)
    (hsize : payload.length ≤ maxProtectedRecordBytes)
    (hfit : (s.pending.getD []).isPrefixOf payload)
    (hread : readProtected s.record = .ok expected) :
    fileSystem.Meets (Disk.Sound P) (fun r t => r = .ok () ∧ t.cell = { record := some payload })
      (publishAt expected payload conflict) s := by
  refine meets_readProtected h (fun snapshot hsnapshot => ?_) fun e he => ?_
  · obtain rfl : expected = snapshot := Except.ok.inj (hread.symm.trans hsnapshot)
    refine meets_refuse h (fun hne => absurd rfl hne) fun _ => ?_
    refine .bind ((preparePendingAt_meets h hsize hfit).mono ?_)
    rintro r t ht ⟨rfl, ⟨i, hi, hcontent, hsynced⟩, hnames, hsame⟩
    rw [← hsame] at hread
    refine meets_readProtected ht (fun snapshot hsnapshot => ?_) fun e he => ?_
    · obtain rfl : expected = snapshot := Except.ok.inj (hread.symm.trans hsnapshot)
      refine meets_refuse ht (fun hne => absurd rfl hne) fun _ => ?_
      -- a record that is there is replaced
      have hfree : t.names.record.isSome → expected.exists' := by
        intro hsome
        have hrecord := (readProtected_ok hread).2
        rw [Disk.record] at hrecord
        by_contra hnot
        rw [if_neg hnot, Option.map_eq_none_iff] at hrecord
        rw [hrecord] at hsome
        cases hsome
      have hpublish := ht.publish hi hsynced (hcontent ▸ hP)
      refine meets_rename hi hfree ht ?_
      refine meets_refuse hpublish (fun hbad => by cases hbad) fun _ => ?_
      refine meets_refuse hpublish (fun hbad => by cases hbad) fun _ => ?_
      refine Machine.Meets.act rfl hpublish (fun _ h => h.elim) ⟨hpublish.syncDir, rfl, ?_⟩
      show Cell.mk (some (t.content i)) none = _
      rw [hcontent]
    · rw [hread] at he
      cases he
  · rw [hread] at he
    cases he

lemma readStagingAt_meets (inv : Disk → Prop) (hinv : inv s) :
    fileSystem.Meets inv (fun r t => t = s ∧ r = if s.cell.Oversized then
        .error (.other (str "protected release transition staging size is outside the allowed bound"))
      else .ok s.pending) readStagingAt s := by
  refine meets_readPending hinv (meets_refuse hinv (fun hbad => ?_) fun hgood => ?_)
  · exact ⟨rfl, (if_pos hbad).symm⟩
  · exact ⟨hinv, rfl, (if_neg hgood).symm⟩

/-- A staging file that does not hold the payload is removed. -/
lemma discardOrphanedCASPendingAt_meets (h : s.Sound P) (hsmall : ¬ s.cell.Oversized)
    (hread : readProtected s.record = .ok expected) :
    fileSystem.Meets (Disk.Sound P)
      (fun r t => r = .ok () ∧ (t.pending.getD []).isPrefixOf payload ∧ t.record = s.record)
      (discardOrphanedCASPendingAt expected payload) s := by
  refine .bind ((readStagingAt_meets _ h).mono ?_)
  rintro r t - ⟨rfl, hr⟩
  rw [if_neg hsmall] at hr
  subst hr
  show fileSystem.Meets _ _ (if t.pending = none ∨ t.pending = some payload then _ else _) t
  split
  · rename_i hkeep
    refine ⟨h, rfl, ?_, rfl⟩
    rcases hkeep with hkeep | hkeep
    · rw [hkeep]
      rfl
    · rw [hkeep, Option.getD_some, List.isPrefixOf_iff_prefix]
  · refine meets_readProtected h (fun snapshot hsnapshot => ?_) fun e he => ?_
    · obtain rfl : expected = snapshot := Except.ok.inj (hread.symm.trans hsnapshot)
      refine meets_refuse h (fun hne => absurd rfl hne) fun _ => ?_
      refine meets_unlink h ?_
      exact Machine.Meets.act rfl h.unlink (fun _ h => h.elim) ⟨h.unlink.syncDir, rfl, rfl, rfl⟩
    · rw [hread] at he
      cases he

/-- **The code refines the operation on cells** where that succeeds. -/
theorem compareAndSwap_meets (h : s.Sound P) (hP : P payload) {c : Cell}
    (hcell : s.cell.compareAndSwap expected payload = .ok c) :
    fileSystem.Meets (Disk.Sound P) (fun r t => r = .ok () ∧ t.cell = c)
      (compareAndSwap expected payload) s := by
  obtain ⟨_, hpayload, hcell⟩ := of_bind_ok hcell
  obtain ⟨hexpected, hcell⟩ := refuse_bind.mp hcell
  obtain ⟨hsmall, hcell⟩ := refuse_bind.mp hcell
  obtain ⟨current, hread, hcell⟩ := of_bind_ok hcell
  obtain ⟨hcurrent, hcell⟩ := refuse_bind.mp hcell
  cases hcell
  obtain rfl : current = expected := not_not.mp hcurrent
  have hsize := refuse_eq_ok.mp hpayload
  rw [not_or, not_lt] at hsize
  refine meets_lift hpayload (meets_refuse h (fun hbad => absurd hbad hexpected) fun _ => ?_)
  refine .bind ((discardOrphanedCASPendingAt_meets h hsmall hread).mono ?_)
  rintro r t ht ⟨rfl, hfit, hsame⟩
  exact publishAt_meets ht hP hsize.2 hfit (hsame ▸ hread)

/-- **Where the operation on cells fails, the code fails in the same way and does nothing.** -/
theorem compareAndSwap_refused {e : Failure}
    (hcell : s.cell.compareAndSwap expected payload = .error e) :
    fileSystem.Meets (· = s) (fun r _ => r = .error e) (compareAndSwap expected payload) s := by
  rcases of_bind_error hcell with hpayload | ⟨_, hpayload, hcell⟩
  · rw [compareAndSwap, hpayload]
    exact ⟨rfl, rfl⟩
  refine meets_lift hpayload ?_
  rcases refuse_bind_error.mp hcell with ⟨hexpected, rfl⟩ | ⟨hexpected, hcell⟩
  · exact meets_refuse rfl (fun _ => rfl) fun hgood => absurd hexpected hgood
  refine meets_refuse rfl (fun hbad => absurd hbad hexpected) fun _ => ?_
  -- what follows the reading of the staging file in `discardOrphanedCASPendingAt`
  refine .bind (.bind ((readStagingAt_meets (· = s) rfl).mono ?_))
  rintro r t - ⟨rfl, hr⟩
  rcases refuse_bind_error.mp hcell with ⟨hlarge, rfl⟩ | ⟨hsmall, hcell⟩
  · rw [if_pos hlarge] at hr
    subst hr
    rfl
  rw [if_neg hsmall] at hr
  subst hr
  have hfail : ∀ e', readProtected t.record = .error e' → e' = e := by
    intro e' he'
    rcases of_bind_error hcell with herror | ⟨current, hread, _⟩
    · exact Except.error.inj (he'.symm.trans herror)
    · exact absurd (he'.symm.trans hread) (by simp)
  have hstale : ∀ snapshot, readProtected t.record = .ok snapshot →
      snapshot ≠ expected ∧ e = .stale := by
    intro snapshot hsnapshot
    rcases of_bind_error hcell with herror | ⟨current, hread, hcell⟩
    · exact absurd (hsnapshot.symm.trans herror) (by simp)
    · obtain rfl : snapshot = current := Except.ok.inj (hsnapshot.symm.trans hread)
      rcases refuse_bind_error.mp hcell with ⟨hne, he⟩ | ⟨_, hcell⟩
      · exact ⟨hne, he.symm⟩
      · cases hcell
  show fileSystem.Meets _ _ (if t.pending = none ∨ t.pending = some payload then _ else _) t
  split
  · refine ⟨rfl, ?_⟩
    refine meets_readProtected rfl (fun snapshot hsnapshot => ?_) fun e' he' => ?_
    · obtain ⟨hne, rfl⟩ := hstale snapshot hsnapshot
      exact meets_refuse rfl (fun _ => rfl) fun hgood => absurd hne hgood
    · rw [hfail e' he']
  · refine meets_readProtected rfl (fun snapshot hsnapshot => ?_) fun e' he' => ?_
    · obtain ⟨hne, rfl⟩ := hstale snapshot hsnapshot
      exact meets_refuse rfl (fun _ => rfl) fun hgood => absurd hne hgood
    · show Except.error e' = Except.error e
      rw [hfail e' he']

/-- A staging file that holds something else stops a publication. -/
lemma publishAt_refused {conflict : Failure}
    (hfit : s.cell.Oversized ∨ ¬ (s.pending.getD []).isPrefixOf payload)
    (hread : readProtected s.record = .ok expected) :
    fileSystem.Meets (· = s) (fun r _ => r = .error conflict)
      (publishAt expected payload conflict) s := by
  refine meets_readProtected rfl (fun snapshot hsnapshot => ?_) fun e he => ?_
  · obtain rfl : expected = snapshot := Except.ok.inj (hread.symm.trans hsnapshot)
    refine meets_refuse rfl (fun hne => absurd rfl hne) fun _ => ?_
    refine .bind (.bind ?_)
    refine meets_create rfl (fun hsome => ?_) fun hnone => ?_
    · exact meets_readPending rfl (meets_refuse rfl (fun _ => rfl) fun hgood => absurd hfit hgood)
    · exfalso
      have hempty : s.pending = none := by rw [Disk.pending, hnone]; rfl
      rcases hfit with hlarge | hnot
      · rw [Cell.Oversized, Disk.cell, hempty] at hlarge
        cases hlarge
      · rw [hempty] at hnot
        exact hnot rfl
  · rw [hread] at he
    cases he

/-- **`createImmutable` refines the operation on cells** where that succeeds. -/
theorem createImmutable_meets (h : s.Sound P) (hP : P payload) {c : Cell}
    (hcell : s.cell.createImmutable payload = .ok c) :
    fileSystem.Meets (Disk.Sound P) (fun r t => r = .ok () ∧ t.cell = c)
      (createImmutable payload) s := by
  obtain ⟨_, hpayload, hcell⟩ := of_bind_ok hcell
  obtain ⟨current, hread, hcell⟩ := of_bind_ok hcell
  have hsize := refuse_eq_ok.mp hpayload
  rw [not_or, not_lt] at hsize
  refine meets_lift hpayload (meets_readProtected h (fun snapshot hsnapshot => ?_) fun e he => ?_)
  · obtain rfl : current = snapshot := Except.ok.inj (hread.symm.trans hsnapshot)
    by_cases hexists : current.exists'
    · rw [if_pos hexists] at hcell ⊢
      obtain ⟨hsame, hcell⟩ := refuse_bind.mp hcell
      cases hcell
      refine meets_refuse h (fun hne => absurd hne hsame) fun _ => ?_
      exact Machine.Meets.act rfl h (fun _ h => h.elim) ⟨h.syncDir, rfl, rfl⟩
    · rw [if_neg hexists] at hcell ⊢
      obtain ⟨hfit, hcell⟩ := refuse_bind.mp hcell
      cases hcell
      rw [not_or, not_not] at hfit
      exact publishAt_meets h hP hsize.2 hfit.2 hread
  · have hread' : readProtected s.record = .ok current := hread
    rw [hread'] at he
    cases he

/-- **Where it fails there, the code fails in the same way and does nothing.** -/
theorem createImmutable_refused {e : Failure} (hcell : s.cell.createImmutable payload = .error e) :
    fileSystem.Meets (· = s) (fun r _ => r = .error e) (createImmutable payload) s := by
  rcases of_bind_error hcell with hpayload | ⟨_, hpayload, hcell⟩
  · rw [createImmutable, hpayload]
    exact ⟨rfl, rfl⟩
  refine meets_lift hpayload (meets_readProtected rfl (fun snapshot hsnapshot => ?_) fun e' he' => ?_)
  · rcases of_bind_error hcell with herror | ⟨current, hread, hcell⟩
    · exact absurd (hsnapshot.symm.trans herror) (by simp)
    obtain rfl : snapshot = current := Except.ok.inj (hsnapshot.symm.trans hread)
    by_cases hexists : snapshot.exists'
    · rw [if_pos hexists] at hcell ⊢
      rcases refuse_bind_error.mp hcell with ⟨hne, rfl⟩ | ⟨_, hcell⟩
      · exact meets_refuse rfl (fun _ => rfl) fun hgood => absurd hne hgood
      · cases hcell
    · rw [if_neg hexists] at hcell ⊢
      rcases refuse_bind_error.mp hcell with ⟨hfit, rfl⟩ | ⟨_, hcell⟩
      · exact publishAt_refused hfit hsnapshot
      · cases hcell
  · rcases of_bind_error hcell with herror | ⟨current, hread, _⟩
    · exact congrArg Except.error (Except.error.inj (he'.symm.trans herror))
    · exact absurd (he'.symm.trans hread) (by simp)

end Operations

end Subyard.Release
