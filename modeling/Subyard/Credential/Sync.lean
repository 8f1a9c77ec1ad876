import Subyard.Library.Run
import Subyard.Config.Envfile

/-!
The state of credential synchronisation with one peer: when it was last tried, when it last
succeeded, and when it is due again.

* `nextSyncState`, `syncDue`, `validateSyncState`: the policy on a state.
* `readState`, `writeState`: the file of a peer; an attempt that is refused leaves it as it was.
* `sync_state_accepted`: as long as no failure is recorded at a time before the last success, the
  file is never refused as an invalid state.
* `sync_locked_out`: a failure after the clock was set back is, and then no attempt is recorded
  any more.

Times are seconds, intervals nanoseconds, both 64-bit integers (`int64`).
-/

namespace Subyard.Credential

open Text Fallible

/-- The value of a 64-bit integer after an operation. -/
def int64 (n : ℤ) : ℤ := n.bmod (2 ^ 64)

def second : ℤ := 1000000000
def minute : ℤ := 60 * second
def hour : ℤ := 60 * minute

/-- `CredentialSyncState`. -/
structure SyncState where
  peer : Bytes := []
  lastAttempt : ℤ := 0
  lastSuccess : ℤ := 0
  error : Bytes := []
  lastHead : Bytes := []
  consecutiveFailures : ℤ := 0
  nextRetry : ℤ := 0
deriving DecidableEq, Repr

/-- The errors of the policy. -/
inductive SyncError
  | required
  | otherPeer
  | invalidPeer
  | invalidState
  | longError
  | invalidHead
  | retryRange
  | dueRange
deriving DecidableEq, Repr

/-- `safeGitObjectID`. -/
def safeGitObjectID (value : Bytes) : Bool :=
  (value.length = 40 || value.length = 64) && value.all isHex

/-- `RetryDelay`. -/
def retryDelay (consecutiveFailures : ℤ) : ℤ :=
  if consecutiveFailures ≤ 0 then 6 * hour
  else
    let exponent := min (consecutiveFailures - 1) 6
    let delay := 5 * minute * 2 ^ exponent.toNat
    if 6 * hour < delay then 6 * hour else delay

/-- `ValidateSyncState`. -/
def validateSyncState (state : SyncState) : Except SyncError Unit := do
  refuse (state.peer ≠ [] ∧ !Config.safeName state.peer) .invalidPeer
  refuse (state.lastAttempt < 0 ∨ state.lastSuccess < 0 ∨ state.nextRetry < 0
    ∨ state.consecutiveFailures < 0 ∨ state.lastAttempt < state.lastSuccess) .invalidState
  refuse (300 < state.error.length) .longError
  refuse (state.lastHead ≠ [] ∧ !safeGitObjectID state.lastHead) .invalidHead

/-- `NextSyncState`. -/
def nextSyncState (current : SyncState) (peer : Bytes) (now : ℤ) (success : Bool)
    (message head : Bytes) (successRetry : ℤ) : Except SyncError SyncState := do
  refuse (!Config.safeName peer ∨ now < 1) .required
  refuse (current.peer ≠ [] ∧ current.peer ≠ peer) .otherPeer
  validateSyncState current
  refuse (300 < message.length) .longError
  refuse (head ≠ [] ∧ !safeGitObjectID head) .invalidHead
  let next := { current with peer := peer, lastAttempt := now, error := message, lastHead := head }
  if success then do
    refuse (successRetry ≤ 0 ∨ 7 * 24 * hour < successRetry) .retryRange
    pure { next with
      lastSuccess := now, consecutiveFailures := 0, error := []
      nextRetry := int64 (now + successRetry / second) }
  else
    pure { next with
      consecutiveFailures := int64 (current.consecutiveFailures + 1)
      nextRetry := int64 (now + retryDelay (int64 (current.consecutiveFailures + 1)) / second) }

/-- `SyncDue`. -/
def syncDue (state : SyncState) (now minimum : ℤ) : Except SyncError Bool := do
  refuse (now < 1 ∨ minimum < 0) .dueRange
  validateSyncState state
  if 0 < state.nextRetry then pure (state.nextRetry ≤ now)
  else pure (minimum / second ≤ int64 (now - state.lastAttempt))

/-! ### The file of a peer -/

/-- A state as it is read back from JSON: every text is coerced to UTF-8. -/
def SyncState.image (state : SyncState) : SyncState :=
  { state with
    peer := coerce state.peer, error := coerce state.error, lastHead := coerce state.lastHead }

/-- `readState`; a file that does not exist holds the empty state. -/
def readState (peer : Bytes) (file : Option SyncState) : Except SyncError SyncState := do
  refuse (!Config.safeName peer) .invalidPeer
  match file with
  | none => pure {}
  | some state => do
      refuse (state.peer ≠ [] ∧ state.peer ≠ peer) .otherPeer
      validateSyncState state
      pure state

/-- One attempt to synchronise, as it is recorded. -/
structure Attempt where
  now : ℤ
  success : Bool
  message : Bytes := []
  head : Bytes := []
deriving DecidableEq, Repr

/-- `writeState`, up to the write of the file. -/
def writeState (peer : Bytes) (successRetry : ℤ) (file : Option SyncState) (attempt : Attempt) :
    Except SyncError SyncState := do
  let current ← readState peer file
  nextSyncState current peer attempt.now attempt.success attempt.message attempt.head successRetry

/-- The file after an attempt. -/
def syncStep (peer : Bytes) (successRetry : ℤ) (file : Option SyncState) (attempt : Attempt) :
    Option SyncState :=
  match writeState peer successRetry file attempt with
  | .ok next => some next.image
  | .error _ => file

/-! ### States in order -/

/-- The numbers of a state pass the check. -/
structure SyncState.Ordered (state : SyncState) : Prop where
  attempt : 0 ≤ state.lastAttempt
  success : 0 ≤ state.lastSuccess
  retry : 0 ≤ state.nextRetry
  failures : 0 ≤ state.consecutiveFailures
  order : state.lastSuccess ≤ state.lastAttempt

lemma ordered_zero : SyncState.Ordered {} := ⟨le_rfl, le_rfl, le_rfl, le_rfl, le_rfl⟩

lemma SyncState.Ordered.image {state : SyncState} (h : state.Ordered) : state.image.Ordered :=
  ⟨h.attempt, h.success, h.retry, h.failures, h.order⟩

lemma validateSyncState_ok {state : SyncState} :
    validateSyncState state = .ok () ↔
      (state.peer = [] ∨ Config.safeName state.peer) ∧ state.Ordered ∧ state.error.length ≤ 300
        ∧ (state.lastHead = [] ∨ safeGitObjectID state.lastHead) := by
  simp only [validateSyncState, refuse_bind, refuse_eq_ok]
  constructor
  · rintro ⟨hpeer, horder, herror, hhead⟩
    refine ⟨?_, ⟨?_, ?_, ?_, ?_, ?_⟩, by omega, ?_⟩
    · by_contra hne
      simp_all
    · omega
    · omega
    · omega
    · omega
    · omega
    · by_contra hne
      simp_all
  · rintro ⟨hpeer, ⟨h₁, h₂, h₃, h₄, h₅⟩, herror, hhead⟩
    refine ⟨?_, by omega, by omega, ?_⟩
    · rintro ⟨hne, hunsafe⟩
      simp_all
    · rintro ⟨hne, hunsafe⟩
      simp_all

/-- A state in order is not refused as invalid. -/
lemma validateSyncState_ne {state : SyncState} (h : state.Ordered) :
    validateSyncState state ≠ .error .invalidState := by
  intro he
  simp only [validateSyncState, refuse_bind_error, refuse_eq_error] at he
  obtain ⟨h₁, h₂, h₃, h₄, h₅⟩ := h
  rcases he with ⟨_, ⟨⟩⟩ | ⟨_, ⟨hbad, _⟩ | ⟨_, ⟨_, ⟨⟩⟩ | ⟨_, _, ⟨⟩⟩⟩⟩
  omega

/-! ### One attempt -/

variable {file : Option SyncState} {state : SyncState} {peer : Bytes} {successRetry : ℤ}
  {attempt : Attempt}

lemma int64_eq {n : ℤ} (hlow : -2 ^ 63 ≤ n) (hhigh : n < 2 ^ 63) : int64 n = n :=
  Int.bmod_eq_of_le (by omega) (by omega)

lemma retryDelay_bound (n : ℤ) : 0 ≤ retryDelay n ∧ retryDelay n ≤ 6 * hour := by
  rw [retryDelay]
  split
  · decide
  · dsimp only
    have hpos : 0 ≤ 5 * minute * 2 ^ (min (n - 1) 6).toNat :=
      mul_nonneg (by decide) (by positivity)
    have hhour : 0 ≤ hour := by decide
    split <;> omega

/-- An interval of at most a week, in seconds. -/
lemma interval_seconds {delay : ℤ} (hpos : 0 ≤ delay) (hweek : delay ≤ 7 * 24 * hour) :
    0 ≤ delay / second ∧ delay / second ≤ 604800 := by
  rw [hour, minute, second] at hweek
  rw [second]
  omega

/-- The state that an attempt leaves. -/
def recorded (current : SyncState) (peer : Bytes) (attempt : Attempt) (successRetry : ℤ) :
    SyncState :=
  let next := { current with
    peer := peer, lastAttempt := attempt.now, error := attempt.message, lastHead := attempt.head }
  if attempt.success then
    { next with
      lastSuccess := attempt.now, consecutiveFailures := 0, error := []
      nextRetry := int64 (attempt.now + successRetry / second) }
  else
    { next with
      consecutiveFailures := int64 (current.consecutiveFailures + 1)
      nextRetry := int64 (attempt.now
        + retryDelay (int64 (current.consecutiveFailures + 1)) / second) }

/-- **What `NextSyncState` accepts, and what it answers.** -/
lemma nextSyncState_ok {current next : SyncState} :
    nextSyncState current peer attempt.now attempt.success attempt.message attempt.head
        successRetry = .ok next
      ↔ (Config.safeName peer ∧ 1 ≤ attempt.now) ∧ (current.peer = [] ∨ current.peer = peer)
        ∧ validateSyncState current = .ok () ∧ attempt.message.length ≤ 300
        ∧ (attempt.head = [] ∨ safeGitObjectID attempt.head)
        ∧ (attempt.success → 0 < successRetry ∧ successRetry ≤ 7 * 24 * hour)
        ∧ next = recorded current peer attempt successRetry := by
  rw [nextSyncState, recorded, refuse_bind, refuse_bind, check_bind, refuse_bind, refuse_bind]
  simp only [not_or, not_and_or, Bool.not_eq_true', Bool.not_eq_false, not_lt, not_not, ne_eq]
  refine and_congr_right fun _ => and_congr_right fun _ => and_congr_right fun _ =>
    and_congr_right fun _ => and_congr_right fun _ => ?_
  cases attempt.success with
  | true =>
    simp only [if_true, refuse_bind, not_or, not_le, not_lt, forall_const]
    exact and_congr_right fun _ => ⟨fun h => (Except.ok.inj h).symm, fun h => congrArg _ h.symm⟩
  | false =>
    simp only [Bool.false_eq_true, if_false, false_implies, true_and]
    exact ⟨fun h => (Except.ok.inj h).symm, fun h => congrArg _ h.symm⟩

/-- The attempt is not recorded before the last success, and the counters stay in range. -/
structure Timely (file : Option SyncState) (attempt : Attempt) : Prop where
  late : 1 ≤ attempt.now
  range : attempt.now < 2 ^ 62
  order : attempt.success ∨ (file.getD {}).lastSuccess ≤ attempt.now
  failures : (file.getD {}).consecutiveFailures < 2 ^ 63 - 1

/-- A timely attempt leaves a state in order. -/
lemma recorded_ordered (htimely : Timely file attempt) (hstate : (file.getD {}).Ordered)
    (hretry : attempt.success → 0 < successRetry ∧ successRetry ≤ 7 * 24 * hour) :
    (recorded (file.getD {}) peer attempt successRetry).Ordered := by
  obtain ⟨hlate, hrange, horder, hfailures⟩ := htimely
  generalize file.getD {} = current at *
  obtain ⟨h₁, h₂, h₃, h₄, h₅⟩ := hstate
  rw [recorded]
  split
  · rename_i hsuccess
    obtain ⟨hpos, hweek⟩ := hretry hsuccess
    obtain ⟨hlow, hhigh⟩ := interval_seconds hpos.le hweek
    have hnext := int64_eq (n := attempt.now + successRetry / second) (by omega) (by omega)
    refine ⟨?_, ?_, ?_, le_rfl, le_rfl⟩ <;> dsimp only <;> omega
  · rename_i hfailed
    obtain ⟨hdelay, hcap⟩ := retryDelay_bound (int64 (current.consecutiveFailures + 1))
    obtain ⟨hlow, hhigh⟩ := interval_seconds hdelay (hcap.trans (by decide))
    have hnext := int64_eq (n := attempt.now
      + retryDelay (int64 (current.consecutiveFailures + 1)) / second) (by omega) (by omega)
    have hcount := int64_eq (n := current.consecutiveFailures + 1) (by omega) (by omega)
    have hlast := horder.resolve_left hfailed
    refine ⟨?_, h₂, ?_, ?_, ?_⟩ <;> dsimp only <;> omega

/-- The state that a reader of the file starts from. -/
lemma readState_ok (h : readState peer file = .ok state) :
    state = file.getD {} ∧ validateSyncState state = .ok ()
      ∧ (state.peer = [] ∨ state.peer = peer) := by
  obtain ⟨_, h⟩ := refuse_bind.mp h
  cases file with
  | none =>
    cases h
    exact ⟨rfl, rfl, .inl rfl⟩
  | some stored =>
    obtain ⟨hpeer, h⟩ := refuse_bind.mp h
    obtain ⟨hvalid, h⟩ := check_bind.mp h
    cases h
    refine ⟨rfl, hvalid, ?_⟩
    rwa [not_and_or, not_not, not_not] at hpeer

/-- **One attempt keeps the file in order.** -/
lemma ordered_step (hstate : (file.getD {}).Ordered) (htimely : Timely file attempt) :
    ((syncStep peer successRetry file attempt).getD {}).Ordered := by
  rw [syncStep]
  split
  · rename_i next h
    obtain ⟨current, hread, h⟩ := of_bind_ok h
    obtain ⟨rfl, -⟩ := readState_ok hread
    obtain ⟨_, _, _, _, _, hretry, rfl⟩ := nextSyncState_ok.mp h
    exact (recorded_ordered htimely hstate hretry).image
  · exact hstate

/-! ### Whole runs -/

lemma ordered_run {attempts : List Attempt} (hstate : (file.getD {}).Ordered)
    (hattempts : Run.AllSteps (syncStep peer successRetry) Timely file attempts) :
    ((Run.run (syncStep peer successRetry) file attempts).getD {}).Ordered :=
  Run.invariant (I := fun file : Option SyncState => (file.getD {}).Ordered)
    (fun _ _ h ht => ordered_step h ht) hstate hattempts

lemma readState_ne (h : (file.getD {}).Ordered) : readState peer file ≠ .error .invalidState := by
  intro he
  rcases refuse_bind_error.mp he with ⟨_, ⟨⟩⟩ | ⟨_, he⟩
  cases file with
  | none => cases he
  | some state =>
    rcases refuse_bind_error.mp he with ⟨_, ⟨⟩⟩ | ⟨_, he⟩
    rcases of_bind_error he with he | ⟨_, _, ⟨⟩⟩
    exact validateSyncState_ne h he

lemma syncDue_ne (h : state.Ordered) (now minimum : ℤ) :
    syncDue state now minimum ≠ .error .invalidState := by
  intro he
  rw [syncDue] at he
  rcases refuse_bind_error.mp he with ⟨_, ⟨⟩⟩ | ⟨_, he⟩
  rcases of_bind_error he with he | ⟨_, _, he⟩
  · exact validateSyncState_ne h he
  · split at he <;> cases he

lemma nextSyncState_ne (h : state.Ordered) (peer : Bytes) (now : ℤ) (success : Bool)
    (message head : Bytes) (successRetry : ℤ) :
    nextSyncState state peer now success message head successRetry ≠ .error .invalidState := by
  intro he
  rw [nextSyncState] at he
  rcases refuse_bind_error.mp he with ⟨_, ⟨⟩⟩ | ⟨_, he⟩
  rcases refuse_bind_error.mp he with ⟨_, ⟨⟩⟩ | ⟨_, he⟩
  rcases of_bind_error he with he | ⟨_, _, he⟩
  · exact validateSyncState_ne h he
  · rcases refuse_bind_error.mp he with ⟨_, ⟨⟩⟩ | ⟨_, he⟩
    rcases refuse_bind_error.mp he with ⟨_, ⟨⟩⟩ | ⟨_, he⟩
    split at he
    · rcases refuse_bind_error.mp he with ⟨_, ⟨⟩⟩ | ⟨_, ⟨⟩⟩
    · cases he

/-- **The state of a peer does not lock itself out.**  After a run of timely attempts on a file
that was accepted, or that did not exist, nothing refuses the state as invalid, and an accepted
state is followed by an accepted one. -/
theorem sync_state_accepted (peer : Bytes) (successRetry : ℤ) (file : Option SyncState)
    (attempts : List Attempt) (attempt : Attempt) (hpeer : Config.safeName peer)
    (hretry : 0 < successRetry ∧ successRetry ≤ 7 * 24 * hour)
    (hfile : ∀ state ∈ file, validateSyncState state = .ok ()
      ∧ (state.peer = [] ∨ state.peer = peer))
    (hattempts : Run.AllSteps (syncStep peer successRetry) Timely file (attempts ++ [attempt]))
    (hmessage : attempt.message.length ≤ 300)
    (hhead : attempt.head = [] ∨ safeGitObjectID attempt.head) :
    readState peer (Run.run (syncStep peer successRetry) file attempts) ≠ .error .invalidState
      ∧ (∀ state, Run.run (syncStep peer successRetry) file attempts = some state →
          (∀ now minimum, syncDue state now minimum ≠ .error .invalidState)
            ∧ ∀ now success message head retry,
              nextSyncState state peer now success message head retry ≠ .error .invalidState)
      ∧ ∀ current,
          readState peer (Run.run (syncStep peer successRetry) file attempts) = .ok current →
            ∃ next, nextSyncState current peer attempt.now attempt.success attempt.message
                attempt.head successRetry = .ok next ∧ validateSyncState next = .ok () := by
  obtain ⟨hbefore, hlast⟩ := Run.allSteps_append.mp hattempts
  have hstart : (file.getD {}).Ordered := by
    cases file with
    | none => exact ordered_zero
    | some state => exact (validateSyncState_ok.mp (hfile state rfl).1).2.1
  have hordered := ordered_run hstart hbefore
  refine ⟨readState_ne hordered, fun state hstate => ?_, fun current hread => ?_⟩
  · rw [hstate] at hordered
    exact ⟨syncDue_ne hordered, nextSyncState_ne hordered peer⟩
  · obtain ⟨rfl, hvalid, hmatch⟩ := readState_ok hread
    refine ⟨_, nextSyncState_ok.mpr ⟨⟨hpeer, hlast.1.late⟩, hmatch, hvalid, hmessage, hhead,
      fun _ => hretry, rfl⟩, validateSyncState_ok.mpr ⟨?_, ?_, ?_, ?_⟩⟩
    · right
      rw [recorded]
      split <;> exact hpeer
    · exact recorded_ordered hlast.1 hordered fun _ => hretry
    · rw [recorded]
      split
      · exact Nat.zero_le _
      · exact hmessage
    · rw [recorded]
      split <;> exact hhead

/-- A success at time `100`, and a failure of the peer `remote` after it. -/
def remote : Bytes := str "remote"

def succeeded : Attempt := { now := 100, success := true }

def failedAt (now : ℤ) : Attempt := { now := now, success := false, message := str "offline" }

instance (file : Option SyncState) (attempt : Attempt) : Decidable (Timely file attempt) :=
  decidable_of_iff (1 ≤ attempt.now ∧ attempt.now < 2 ^ 62
      ∧ (attempt.success ∨ (file.getD {}).lastSuccess ≤ attempt.now)
      ∧ (file.getD {}).consecutiveFailures < 2 ^ 63 - 1)
    ⟨fun ⟨h₁, h₂, h₃, h₄⟩ => ⟨h₁, h₂, h₃, h₄⟩, fun ⟨h₁, h₂, h₃, h₄⟩ => ⟨h₁, h₂, h₃, h₄⟩⟩

set_option maxRecDepth 10000 in
/-- A failure after the success is recorded. -/
theorem later_failure_accepted :
    ∃ next, nextSyncState { peer := remote, lastAttempt := 100, lastSuccess := 100, nextRetry := 21700 }
        remote 150 false (str "offline") [] (6 * hour) = .ok next
      ∧ validateSyncState next = .ok () :=
  (sync_state_accepted remote (6 * hour) none [succeeded] (failedAt 150) (by decide) (by decide)
    (by simp) (by decide +kernel) (by decide) (.inl rfl)).2.2 _ (by decide +kernel)

/-- The file after a success at `100` and a failure at `50`. -/
def lockedFile : Option SyncState :=
  Run.run (syncStep remote (6 * hour)) none [succeeded, failedAt 50]

set_option maxRecDepth 10000 in
/-- **The clock is set back.**  The success at `100` leaves an accepted state, the failure at `50`
is recorded, and from then on every attempt is refused because of the state itself. -/
theorem sync_locked_out :
    (readState remote (syncStep remote (6 * hour) none succeeded)).isOk
      ∧ readState remote lockedFile = .error .invalidState
      ∧ ∀ attempts : List Attempt,
          Run.run (syncStep remote (6 * hour)) lockedFile attempts = lockedFile := by
  have hread : readState remote lockedFile = .error .invalidState := by decide +kernel
  refine ⟨by decide +kernel, hread, fun attempts => ?_⟩
  induction attempts with
  | nil => rfl
  | cons attempt attempts ih =>
      have hstep : syncStep remote (6 * hour) lockedFile attempt = lockedFile := by
        rw [syncStep, writeState, hread]
        rfl
      rw [Run.run_cons, hstep, ih]

end Subyard.Credential
