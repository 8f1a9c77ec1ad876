import Subyard.Library.Run
import Subyard.Library.Fallible

/-!
The pool of Android emulators under overlapping calls (`config/profiles/android/pool.py`).

A call advances by one section under the lock of the pool at a time, and the sections of all
calls interleave.

* `Pool.reserveCheck`, `Pool.reserveCommit`: the two sections of `reserve`, around the lookup of
  the image.
* `Pool.stopBegin`, `Pool.stopRest`: the two sections of `stop_slot`, around the join of the
  provisioning worker.
* `next`: one section of a call, `step`: one event of the whole pool.
* `next_closed`, `next_holds`, `open_of_next_granted`: what a section can do to the flag and to the call.
* `closed_stays_closed`: **nothing is reserved while a drain or a shutdown has the pool closed**,
  if a drain that returns is the only one that has.
* `overlap_reopens`: without that condition the first drain to return opens the pool under the
  others.
-/

namespace Subyard.Android

open Fallible

/-! ### The pool -/

inductive SlotState
  | available | provisioning | held | draining | quarantined
deriving DecidableEq

structure PoolError where
  code : String
  message : String
deriving DecidableEq

def require (ok : Prop) [Decidable ok] (code message : String) : Except PoolError Unit :=
  refuse (¬ ok) ⟨code, message⟩

def TTL : ℕ := 1200

/-- A slot, with the digest of the credential of its last lease. -/
structure Slot (δ : Type) where
  slotID : ℕ
  generation : ℕ
  state : SlotState
  credential : Option δ
  expiresAt : Option ℕ
deriving DecidableEq

/-- What the lock of the pool guards. -/
structure Pool (δ : Type) where
  closed : Bool
  slots : List (Slot δ)
  /-- The slots that have a provisioning worker. -/
  workers : List ℕ
  /-- The allocations that were cancelled before they were reserved, until when. -/
  cancelled : List (δ × ℕ)
deriving DecidableEq

/-- What a section learns from outside the pool. -/
structure Answers where
  now : ℕ
  /-- `images.resolve`. -/
  image : Except PoolError Unit
  /-- `runtime.preflight`. -/
  preflight : Except PoolError Unit
  /-- The shared lock of the SDK was obtained. -/
  sdkLock : Bool
  /-- The worker is still alive when the join ends. -/
  workerAlive : Bool
  /-- `runtime.stop` did not raise. -/
  stops : Bool

section Sections

variable {δ : Type} [DecidableEq δ]

namespace Pool

def free (pool : Pool δ) (slot : Slot δ) : Bool :=
  slot.state == .available && !pool.workers.contains slot.slotID

def update (pool : Pool δ) (slotID : ℕ) (f : Slot δ → Slot δ) : Pool δ :=
  { pool with slots := pool.slots.map fun s => if s.slotID = slotID then f s else s }

/-! ### The sections of `reserve` -/

/-- The first look at the pool, before the image is resolved. -/
def reserveCheck (pool : Pool δ) : Except PoolError Unit := do
  require (pool.closed = false) "unavailable" "Android pool is stopping"
  require (pool.slots.any (·.state != .quarantined))
    "unavailable" "all Android emulator slots are quarantined"
  require (pool.slots.any pool.free) "busy" "all Android emulator slots are occupied"

/-- The checks of the second section, and the slot it takes. -/
def reserveSlot (pool : Pool δ) (digest : δ) (answers : Answers) :
    Except PoolError (Slot δ) := do
  require (digest ∉ pool.cancelled.map Prod.fst)
    "cancelled" "allocation was cancelled before reservation"
  require (pool.closed = false) "unavailable" "Android pool is stopping"
  require (¬ pool.slots.any (·.credential == some digest)) "credential" "credential already used"
  require (pool.slots.any (·.state != .quarantined))
    "unavailable" "all Android emulator slots are quarantined"
  match pool.slots.find? pool.free with
  | none => .error ⟨"busy", "all Android emulator slots are occupied"⟩
  | some slot =>
      answers.preflight
      require answers.sdkLock "busy" "Android SDK maintenance is in progress"
      return slot

def grant (pool : Pool δ) (slotID : ℕ) (digest : δ) (now : ℕ) : Pool δ :=
  { pool.update slotID fun s =>
      { s with
        state := .provisioning
        generation := s.generation + 1
        credential := some digest
        expiresAt := some (now + TTL) } with
    workers := slotID :: pool.workers }

/-- The second section.  Expired cancellations are forgotten whether it succeeds or not. -/
def reserveCommit (pool : Pool δ) (digest : δ) (answers : Answers) :
    Pool δ × Except PoolError ℕ :=
  let pool := { pool with cancelled := pool.cancelled.filter (answers.now < ·.2) }
  match pool.reserveSlot digest answers with
  | .ok slot => (pool.grant slot.slotID digest answers.now, .ok slot.slotID)
  | .error e => (pool, .error e)

/-! ### The sections of `stop_slot` -/

def fence (pool : Pool δ) (slotID : ℕ) : Pool δ :=
  pool.update slotID fun s => { s with state := .draining }

/-- A stopped slot keeps its credential, so that the release can be repeated. -/
def finishStop (pool : Pool δ) (slotID : ℕ) (stops : Bool) : Pool δ :=
  pool.update slotID fun s =>
    if stops then { s with state := .available, expiresAt := none }
    else { s with state := .quarantined }

end Pool

/-- A stop between its two sections: the slot, its generation, and whether to join a worker. -/
structure Stop where
  slotID : ℕ
  generation : ℕ
  worker : Bool
deriving DecidableEq

namespace Pool

/-- The first section.  A slot that is available is not stopped. -/
def stopBegin (pool : Pool δ) (slotID : ℕ) : Pool δ × Option Stop :=
  match pool.slots.find? (·.slotID == slotID) with
  | none => (pool, none)
  | some slot =>
      if slot.state = .available then (pool, none)
      else (pool.fence slotID, some ⟨slotID, slot.generation, pool.workers.contains slotID⟩)

/-- The join and the second section.  A slot of a later generation is left alone. -/
def stopRest (pool : Pool δ) (stop : Stop) (answers : Answers) :
    Pool δ × Except PoolError Unit :=
  if stop.worker ∧ answers.workerAlive then
    (pool, .error ⟨"quarantined", "provisioning cancellation is still draining"⟩)
  else
    match pool.slots.find? (·.slotID == stop.slotID) with
    | none => (pool, .ok ())
    | some slot =>
        if slot.generation ≠ stop.generation ∨ slot.state = .available then (pool, .ok ())
        else (pool.finishStop stop.slotID answers.stops,
          require answers.stops "quarantined" "runtime stop is unconfirmed; slot quarantined")

end Pool

/-! ### Calls -/

/-- A loop of stops: the stop that is under way, and the slots to come. -/
structure Visit where
  waiting : Option Stop
  rest : List ℕ
deriving DecidableEq

/-- The next section of a loop of stops, nothing after the last slot. -/
def Pool.visit (pool : Pool δ) (answers : Answers) :
    Visit → Pool δ × Except PoolError (Option Visit)
  | ⟨some stop, rest⟩ =>
      match pool.stopRest stop answers with
      | (pool, .ok ()) => (pool, .ok (some ⟨none, rest⟩))
      | (pool, .error e) => (pool, .error e)
  | ⟨none, slotID :: rest⟩ =>
      match pool.stopBegin slotID with
      | (pool, waiting) => (pool, .ok (some ⟨waiting, rest⟩))
  | ⟨none, []⟩ => (pool, .ok none)

/-- Where a call of `reserve`, `drain` or `shutdown` stands. -/
inductive Call (δ : Type)
  | reserve (digest : δ)
  | resolving (digest : δ)
  | granted (slotID : ℕ)
  | refused (error : PoolError)
  | drain
  | draining (visit : Visit)
  /-- The loop is over and the `finally` block is next. -/
  | reopening (failure : Option PoolError)
  | drained (failure : Option PoolError)
  | shutdown
  | shuttingDown (visit : Visit)
  | shut
deriving DecidableEq

/-- The call has closed the pool and not returned; a shutdown closes it for good. -/
def Call.holds : Call δ → Bool
  | .draining _ | .reopening _ | .shuttingDown _ | .shut => true
  | _ => false

def Call.reopens : Call δ → Bool
  | .reopening _ => true
  | _ => false

/-- One section of a call. -/
def next (pool : Pool δ) (answers : Answers) : Call δ → Pool δ × Call δ
  | .reserve digest =>
      match pool.reserveCheck with
      | .ok () => (pool, .resolving digest)
      | .error e => (pool, .refused e)
  | .resolving digest =>
      match answers.image with
      | .error e => (pool, .refused e)
      | .ok () =>
          match pool.reserveCommit digest answers with
          | (pool, .ok slotID) => (pool, .granted slotID)
          | (pool, .error e) => (pool, .refused e)
  | .drain => ({ pool with closed := true }, .draining ⟨none, pool.slots.map (·.slotID)⟩)
  | .draining visit =>
      match pool.visit answers visit with
      | (pool, .ok (some visit)) => (pool, .draining visit)
      | (pool, .ok none) => (pool, .reopening none)
      | (pool, .error e) => (pool, .reopening (some e))
  | .reopening failure => ({ pool with closed := false }, .drained failure)
  | .shutdown => ({ pool with closed := true }, .shuttingDown ⟨none, pool.slots.map (·.slotID)⟩)
  | .shuttingDown visit =>
      match pool.visit answers visit with
      | (pool, .ok (some visit)) => (pool, .shuttingDown visit)
      | (pool, .ok none) => (pool, .shut)
      -- A failed stop is suppressed and the loop goes on.
      | (pool, .error _) => (pool, .shuttingDown ⟨none, visit.rest⟩)
  | call => (pool, call)

/-! ### The pool and its calls -/

structure System (δ : Type) where
  pool : Pool δ
  calls : List (Call δ)

inductive Event (δ : Type)
  | reserve (digest : δ)
  | drain
  | shutdown
  /-- The call at this position runs its next section. -/
  | call (i : ℕ) (answers : Answers)
  /-- Provisioning workers, releases and the reaper change what they like, but not the flag. -/
  | other (slots : List (Slot δ)) (workers : List ℕ) (cancelled : List (δ × ℕ))

def System.begin (s : System δ) (call : Call δ) : System δ :=
  { s with calls := s.calls ++ [call] }

def step (s : System δ) : Event δ → System δ
  | .reserve digest => s.begin (.reserve digest)
  | .drain => s.begin .drain
  | .shutdown => s.begin .shutdown
  | .call i answers =>
      match s.calls[i]? with
      | none => s
      | some call =>
          { pool := (next s.pool answers call).1
            calls := s.calls.set i (next s.pool answers call).2 }
  | .other slots workers cancelled =>
      { s with pool := ⟨s.pool.closed, slots, workers, cancelled⟩ }

/-- A drain that is about to open the pool is the only call that has it closed. -/
def Sole (s : System δ) : Event δ → Prop
  | .call i _ => (s.calls[i]?.any Call.reopens) → ∀ c ∈ s.calls.eraseIdx i, c.holds = false
  | _ => True

instance (s : System δ) (e : Event δ) : Decidable (Sole s e) := by
  cases e <;> unfold Sole <;> infer_instance

/-! ### What a section can do -/

omit [DecidableEq δ] in
lemma stopBegin_closed (pool : Pool δ) (slotID : ℕ) :
    (pool.stopBegin slotID).1.closed = pool.closed := by
  unfold Pool.stopBegin
  split
  · rfl
  · split <;> rfl

omit [DecidableEq δ] in
lemma stopRest_closed (pool : Pool δ) (stop : Stop) (answers : Answers) :
    (pool.stopRest stop answers).1.closed = pool.closed := by
  unfold Pool.stopRest
  split
  · rfl
  · split
    · rfl
    · split <;> rfl

omit [DecidableEq δ] in
lemma visit_closed (pool : Pool δ) (answers : Answers) (visit : Visit) :
    (pool.visit answers visit).1.closed = pool.closed := by
  unfold Pool.visit
  split
  · next stop rest =>
      have hrest := stopRest_closed pool stop answers
      split <;> next heq => rw [heq] at hrest; exact hrest
  · next slotID rest => exact stopBegin_closed pool slotID
  · rfl

lemma reserveCommit_closed (pool : Pool δ) (digest : δ) (answers : Answers) :
    (pool.reserveCommit digest answers).1.closed = pool.closed := by
  unfold Pool.reserveCommit
  dsimp only
  split <;> rfl

variable {pool : Pool δ} {answers : Answers}

/-- A slot is reserved only in a pool that is open. -/
lemma open_of_reserveCommit {digest : δ} {slotID : ℕ}
    (h : (pool.reserveCommit digest answers).2 = .ok slotID) : pool.closed = false := by
  unfold Pool.reserveCommit at h
  dsimp only at h
  split at h
  · next slot hslot =>
      simp only [Pool.reserveSlot, require, refuse_bind, not_not] at hslot
      exact hslot.2.1
  · cases h

/-- The flag after a section: set by a drain and a shutdown, reset by the end of a drain. -/
lemma next_closed (pool : Pool δ) (answers : Answers) (call : Call δ) :
    (next pool answers call).1.closed
      = match call with
        | .drain | .shutdown => true
        | .reopening _ => false
        | _ => pool.closed := by
  cases call with
  | reserve digest => simp only [next]; split <;> rfl
  | resolving digest =>
    have hcommit := reserveCommit_closed pool digest answers
    simp only [next]
    split
    · rfl
    · split <;> next heq => rw [heq] at hcommit; exact hcommit
  | draining visit | shuttingDown visit =>
    have hvisit := visit_closed pool answers visit
    simp only [next]
    split <;> next heq => rw [heq] at hvisit; exact hvisit
  | _ => rfl

/-- Whether the call has the pool closed after a section. -/
lemma next_holds (pool : Pool δ) (answers : Answers) (call : Call δ) :
    (next pool answers call).2.holds
      = match call with
        | .drain | .shutdown => true
        | .reopening _ => false
        | call => call.holds := by
  cases call with
  | reserve digest => simp only [next]; split <;> rfl
  | resolving digest =>
    simp only [next]
    split
    · rfl
    · split <;> rfl
  | draining visit | shuttingDown visit =>
    simp only [next]
    split <;> rfl
  | _ => rfl

/-- A section that completes a reservation finds the pool open. -/
lemma open_of_next_granted {call : Call δ} {slotID : ℕ}
    (h : (next pool answers call).2 = .granted slotID) :
    call = .granted slotID ∨ pool.closed = false := by
  cases call with
  | reserve digest =>
    simp only [next] at h
    split at h <;> cases h
  | resolving digest =>
    simp only [next] at h
    split at h
    · cases h
    · split at h
      · next heq => exact .inr (open_of_reserveCommit (by rw [heq]))
      · cases h
  | granted slotID' => exact .inl h
  | draining visit | shuttingDown visit =>
    simp only [next] at h
    split at h <;> cases h
  | _ => cases h

/-! ### Runs -/

/-- A call that has the pool closed finds the flag set. -/
def Guarded (s : System δ) : Prop := ∀ c ∈ s.calls, c.holds → s.pool.closed

omit [DecidableEq δ] in
lemma Guarded.begin {s : System δ} (hs : Guarded s) {call : Call δ} (h : call.holds = false) :
    Guarded (s.begin call) := by
  intro c hc hholds
  rcases List.mem_append.mp hc with hc | hc
  · exact hs c hc hholds
  · rw [List.mem_singleton.mp hc, h] at hholds
    cases hholds

/-- One section of a call keeps the flag set for every call that needs it. -/
lemma Guarded.call {s : System δ} (hs : Guarded s) {i : ℕ} {answers : Answers} {call : Call δ}
    (hcall : s.calls[i]? = some call)
    (hsole : call.reopens → ∀ c ∈ s.calls.eraseIdx i, c.holds = false) :
    Guarded { pool := (next s.pool answers call).1
              calls := s.calls.set i (next s.pool answers call).2 } := by
  intro c hc hholds
  obtain ⟨j, hj⟩ := List.mem_iff_getElem?.mp hc
  -- Either `c` is the call that moved, or it stands where it stood.
  rcases eq_or_ne j i with rfl | hij
  · rw [List.getElem?_set_self (List.getElem?_eq_some_iff.mp hcall).1, Option.some.injEq] at hj
    rw [← hj, next_holds] at hholds
    simp only [next_closed]
    have hbefore := hs call (List.mem_of_getElem? hcall)
    cases call with
    | drain | shutdown => rfl
    | reopening failure => cases hholds
    | _ => exact hbefore hholds
  · rw [List.getElem?_set_ne hij.symm] at hj
    have hclosed := hs c (List.mem_of_getElem? hj) hholds
    simp only [next_closed]
    cases call with
    | reopening failure =>
      have hnone := hsole rfl c (List.mem_eraseIdx_iff_getElem?.mpr ⟨j, hij, hj⟩)
      rw [hnone] at hholds
      cases hholds
    | drain | shutdown => rfl
    | _ => exact hclosed

lemma Guarded.step {s : System δ} {e : Event δ} (hs : Guarded s) (he : Sole s e) :
    Guarded (step s e) := by
  cases e with
  | reserve digest => exact hs.begin rfl
  | drain => exact hs.begin rfl
  | shutdown => exact hs.begin rfl
  | call i answers =>
    simp only [Android.step]
    split
    · exact hs
    · next call hcall => exact hs.call hcall fun h => he (by rw [hcall]; exact h)
  | other slots workers cancelled => exact hs

/-- A call that is granted by this event found the pool open. -/
lemma open_of_step_granted {s : System δ} {e : Event δ} {i slotID : ℕ}
    (h : (step s e).calls[i]? = some (.granted slotID)) :
    s.calls[i]? = some (.granted slotID) ∨ s.pool.closed = false := by
  have hbegin : ∀ call : Call δ, call ≠ .granted slotID →
      (s.begin call).calls[i]? = some (.granted slotID) →
        s.calls[i]? = some (.granted slotID) := by
    intro call hne hi
    rcases Nat.lt_or_ge i s.calls.length with hlt | hge
    · rwa [System.begin, List.getElem?_append_left hlt] at hi
    · rw [System.begin, List.getElem?_append_right hge, List.getElem?_singleton] at hi
      split at hi
      · exact absurd (Option.some.inj hi) hne
      · cases hi
  cases e with
  | reserve digest => exact .inl (hbegin (.reserve digest) nofun h)
  | drain => exact .inl (hbegin .drain nofun h)
  | shutdown => exact .inl (hbegin .shutdown nofun h)
  | other slots workers cancelled => exact .inl h
  | call j answers =>
    simp only [step] at h
    split at h
    · exact .inl h
    · next call hcall =>
        rcases eq_or_ne i j with rfl | hij
        · rw [List.getElem?_set_self (List.getElem?_eq_some_iff.mp hcall).1,
            Option.some.injEq] at h
          rw [hcall]
          exact (open_of_next_granted h).imp_left (congrArg some)
        · rw [List.getElem?_set_ne hij.symm] at h
          exact .inl h

/-- **A closed pool stays closed**: from any pool without calls, along every interleaving in which
a drain that returns is the only call that has the pool closed, no event completes a reservation
while a drain has set the flag and not returned or after a shutdown has set it. -/
theorem closed_stays_closed (pool : Pool δ) (events : List (Event δ))
    (hsole : Run.AllSteps step Sole ⟨pool, []⟩ events) (c : Call δ)
    (hc : c ∈ (Run.run step ⟨pool, []⟩ events).calls) (hholds : c.holds) (e : Event δ)
    (i slotID : ℕ)
    (hgranted : (step (Run.run step ⟨pool, []⟩ events) e).calls[i]? = some (.granted slotID)) :
    (Run.run step ⟨pool, []⟩ events).calls[i]? = some (.granted slotID) := by
  have hguarded : Guarded (Run.run step ⟨pool, []⟩ events) :=
    Run.invariant (fun s e hs he => hs.step he) (by intro c hc; cases hc) hsole
  rcases open_of_step_granted hgranted with h | h
  · exact h
  · rw [hguarded c hc hholds] at h
    cases h

end Sections

/-! ### Two calls that close the pool -/

/-- A pool of one slot that is available. -/
def idlePool : Pool ℕ := ⟨false, [⟨1, 0, .available, none, none⟩], [], []⟩

/-- Everything outside the pool succeeds. -/
def wellAnswers : Answers := ⟨0, .ok (), .ok (), true, false, true⟩

/-- The call at a position runs its next sections. -/
def sections (i n : ℕ) : List (Event ℕ) := List.replicate n (.call i wellAnswers)

/-- A reservation that meets a drain under way. -/
def drainAlone : List (Event ℕ) :=
  [.drain, .reserve 7] ++ sections 0 2 ++ sections 1 1

theorem closed_stays_closed_alone :
    Run.AllSteps step Sole ⟨idlePool, []⟩ drainAlone
      ∧ ∀ slotID, (step (Run.run step ⟨idlePool, []⟩ drainAlone) (.call 1 wellAnswers)).calls[1]?
          ≠ some (.granted slotID) := by
  have hsole : Run.AllSteps step Sole ⟨idlePool, []⟩ drainAlone := by decide
  refine ⟨hsole, fun slotID h => ?_⟩
  have hbefore := closed_stays_closed idlePool drainAlone hsole (.draining ⟨none, []⟩)
    (by decide) rfl (.call 1 wellAnswers) 1 slotID h
  have hrefused : (Run.run step ⟨idlePool, []⟩ drainAlone).calls[1]?
      = some (.refused ⟨"unavailable", "Android pool is stopping"⟩) := by decide
  rw [hrefused] at hbefore
  cases hbefore

/-- One drain returns while another call that closed the pool is still at its loop. -/
def overlap (other : Event ℕ) : List (Event ℕ) :=
  [.drain, other, .reserve 7] ++ sections 0 1 ++ sections 1 1 ++ sections 0 3 ++ sections 2 1

/-- **The first drain to return opens the pool under the others**: a reservation succeeds while a
second drain has not returned, and after a shutdown has closed the pool. -/
theorem overlap_reopens :
    (∃ visit slotID, (Run.run step ⟨idlePool, []⟩ (overlap .drain)).calls[1]?
          = some (.draining visit)
        ∧ (Run.run step ⟨idlePool, []⟩ (overlap .drain)).calls[2]? = some (.resolving 7)
        ∧ (step (Run.run step ⟨idlePool, []⟩ (overlap .drain)) (.call 2 wellAnswers)).calls[2]?
          = some (.granted slotID))
      ∧ ∃ visit slotID, (Run.run step ⟨idlePool, []⟩ (overlap .shutdown)).calls[1]?
          = some (.shuttingDown visit)
        ∧ (Run.run step ⟨idlePool, []⟩ (overlap .shutdown)).calls[2]? = some (.resolving 7)
        ∧ (step (Run.run step ⟨idlePool, []⟩ (overlap .shutdown)) (.call 2 wellAnswers)).calls[2]?
          = some (.granted slotID) :=
  ⟨⟨⟨none, [1]⟩, 1, by decide⟩, ⟨⟨none, [1]⟩, 1, by decide⟩⟩

end Subyard.Android
