import Subyard.YardNetwork.Isolation
import Subyard.YardNetwork.Service

/-!
What the approval of a plan allows.

* `Plan.Stops`, `Plan.Starts`: the yards that the application of a plan stops and starts;
  `power_applyLocked` says that it calls for the power of no others.
* `applyLocked_leaves`: the yards without an update are left alone, however far it gets.
* `checkApproved_ok`: the plans that are accepted in place of an approved one.
* `approval_bounds`: such a plan does no work on yards that was not approved, and it stops no other
  yard; it starts no other yard unless the stored policy lists one.
* `pending_widens`: a stored policy that does.
-/

namespace Subyard.YardNetwork

open Text Fallible Interrupt

/-! ### The power of yards -/

namespace Plan

/-- The yard is stopped before its settings are changed. -/
def Stops (plan : Plan) (yard : Yard) : Prop :=
  ∃ u ∈ plan.updates, u.yard.yard = yard ∧ u.yard.instanceFound
    ∧ ¬ equalFold u.yard.instanceInfo.status (str "stopped")

/-- The yard is listed to be started. -/
def Starts (plan : Plan) (yard : Yard) : Prop :=
  yard.name ∈ plan.intent.pendingStart ∧ plan.yards.find? (·.name = yard.name) = some yard

/-- The yard has an update. -/
def Works (plan : Plan) (yard : Yard) : Prop := ∃ u ∈ plan.updates, u.yard.yard = yard

/-- The calls that the application of a plan may make. -/
def Calls (plan : Plan) : Op → Prop
  | .networkPower yard _ => plan.Stops yard ∨ plan.Starts yard
  | .writeProfileNIC yard _ => plan.Works yard
  | .writeProjectNetworks yard _ => plan.Works yard
  | .writeNetworkACL yard _ => plan.Works yard
  | .deleteNetworkACL yard => plan.Works yard
  | _ => True

end Plan

section Calls

variable {plan : Plan}

lemma only_call {P : Op → Prop} {op : Op} (h : P op) : (call op).Only P := .act h fun _ => .lift _

lemma only_callAs {P : Op → Prop} {op : Op} {before after : Bytes} (h : P op) :
    (callAs op before after).Only P := .act h fun _ => .lift _

lemma only_observe (target : Yard) : (observe target).Only plan.Calls := by
  refine .bind (only_call trivial) fun snapshot => ?_
  split
  · exact .bind (.lift _) fun _ => .ret _
  · exact .fail _

lemma only_prepare {size : Policy → ℕ} (boot : Bool) (yards : List Yard) (change : Change) :
    (prepare size boot yards change).Only plan.Calls :=
  .bind (only_call trivial) fun _ => .bind (.lift _) fun _ => .bind (only_call trivial) fun _ =>
    .bind (.lift _) fun _ => .lift _

/-- The work on the yard of an update. -/
lemma only_applyUpdates : (applyUpdates plan.updates).Only plan.Calls := by
  refine .bind (.forM fun u hu => ?_) fun _ => .bind (.forM fun u hu => ?_) fun _ =>
    .forM fun u hu => ?_
  · exact .when fun h => .bind (only_callAs (.inl ⟨u, hu, rfl, h⟩)) fun _ =>
      .bind (only_observe _) fun _ => .refuse
  · exact .bind (only_observe _) fun _ => .when fun _ => only_call ⟨u, hu, rfl⟩
  · exact .bind (only_observe _) fun _ => .bind (.when fun _ => only_call ⟨u, hu, rfl⟩) fun _ =>
      .bind (.when fun _ => only_call ⟨u, hu, rfl⟩) fun _ =>
        .bind (.when fun _ => only_call ⟨u, hu, rfl⟩) fun _ =>
          .when fun _ => only_call ⟨u, hu, rfl⟩

lemma only_restart {p : Policy} {names : List Bytes}
    (hnames : ∀ name ∈ names, name ∈ plan.intent.pendingStart) :
    (restart plan.yards p names).Only plan.Calls := by
  induction names with
  | nil => exact .ret _
  | cons name rest ih =>
    rw [restart]
    split
    · exact .fail _
    · next target htarget =>
        have hname : target.name = name := by simpa using List.find?_some htarget
        have hstarts : plan.Starts target := by
          subst hname
          exact ⟨hnames _ (by simp), htarget⟩
        refine .bind (only_call trivial) fun _ => .bind (only_observe _) fun _ =>
          .bind (.when fun _ => only_callAs (.inr hstarts)) fun _ =>
            .bind (only_observe _) fun _ => .bind .refuse fun _ => .bind (.act trivial ?_) fun _ =>
              .bind (only_call trivial) fun _ => ih fun n hn => hnames n (by simp [hn])
        -- the guard after the start, and the stop if it fails
        rintro (e | _)
        · exact .act (.inr hstarts) fun _ => .fail _
        · exact .ret _

lemma pendingStart_forget (names : List Bytes) (p : Policy) :
    (names.foldl Policy.forget p).pendingStart = p.pendingStart := by
  induction names generalizing p with
  | nil => rfl
  | cons name names ih => exact ih _

@[simp] lemma pendingStart_settle (p : Policy) : p.settle.pendingStart = p.pendingStart :=
  pendingStart_forget _ _

/-- **The calls of the application of a plan.** -/
lemma only_applyLocked {size : Policy → ℕ} : (applyLocked size plan).Only plan.Calls :=
  .bind (.when fun _ => only_call trivial) fun _ => .bind (only_call trivial) fun _ =>
    .bind (.when fun _ => only_applyUpdates) fun _ => .bind (only_prepare _ _ _) fun _ =>
      .bind .refuse fun _ => .bind (only_call trivial) fun _ =>
        only_restart fun _ hname => pendingStart_settle plan.intent ▸ hname

/-- The application of a plan calls for the power of the yards it stops or starts, and of no
others. -/
theorem power_applyLocked {size : Policy → ℕ} {yard : Yard} {start : Bool}
    (h : (applyLocked size plan).Does (.networkPower yard start)) :
    plan.Stops yard ∨ plan.Starts yard := only_applyLocked _ h

end Calls

/-! ### The yards that are left alone -/

section Frame

variable {plan : Plan} {yard : Yard} {h h' : Host}

/-- Of the yard at most the power has changed, and that only if it is listed to be started. -/
def Left (plan : Plan) (yard : Yard) (h h' : Host) : Prop :=
  (∃ status, h'.observe yard = (h.observe yard).setStatus status)
    ∧ (¬ plan.Starts yard → h'.observe yard = h.observe yard)

lemma Left.of_eq (heq : h'.observe yard = h.observe yard) : Left plan yard h h' :=
  ⟨⟨(h.observe yard).instanceInfo.status, heq⟩, fun _ => heq⟩

lemma Left.trans {h'' : Host} (hab : Left plan yard h h') (hbc : Left plan yard h' h'') :
    Left plan yard h h'' := by
  obtain ⟨⟨a, ha⟩, hsame⟩ := hab
  obtain ⟨⟨b, hb⟩, hsame'⟩ := hbc
  exact ⟨⟨b, hb.trans (ha ▸ rfl)⟩, fun hstarts => (hsame' hstarts).trans (hsame hstarts)⟩

lemma Left.modify {target : Yard} (hne : yard ≠ target) (f : ObservedYard → ObservedYard) :
    Left plan yard h (h.modify target f) :=
  .of_eq (by simp [Host.modify, Host.observe, Function.update_of_ne hne])

/-- The step lemma. -/
lemma left_step {size : Policy → ℕ} (hworks : ¬ plan.Works yard) {op : Op} (hop : plan.Calls op) :
    Left plan yard h (Host.step size op h).2 := by
  have hother : ∀ {target : Yard}, plan.Works target → yard ≠ target := by
    rintro target ht rfl
    exact hworks ht
  cases op <;> simp only [Host.step]
  case readPolicy | inspectNetwork | guard => exact .of_eq rfl
  case writePolicy => split <;> exact .of_eq rfl
  case networkPower target start =>
    split
    · dsimp only
      by_cases heq : yard = target
      · subst heq
        refine ⟨⟨_, by simp [Host.modify, Host.observe]; rfl⟩, fun hstarts => ?_⟩
        rcases hop with ⟨u, hu, hyard, _⟩ | h
        · exact absurd ⟨u, hu, hyard⟩ hworks
        · exact absurd h hstarts
      · exact .modify heq _
    · exact .of_eq rfl
  case writeProfileNIC | writeProjectNetworks =>
    split
    · dsimp only
      exact .modify (hother hop) _
    · exact .of_eq rfl
  case writeNetworkACL | deleteNetworkACL => exact .modify (hother hop) _

end Frame

/-! ### Accepted plans -/

/-- What is checked of a plan in place of an approved one. -/
structure Accepted (approved fresh : Plan) : Prop where
  yards : approved.yards = fresh.yards
  policy : normalizedDesiredPolicy approved.policy = normalizedDesiredPolicy fresh.policy
  guard : ∀ y ∈ fresh.snapshot.yards, ∃ old, approved.observation y.yard = some old
    ∧ networkYardGuard old = networkYardGuard y
  updates : ∀ u ∈ fresh.updates, ∃ old, approved.allowed u.yard.yard = some old ∧ old.Same u

/-- A plan is accepted if it is the approved one or passes the checks. -/
lemma checkApproved_ok {approved fresh : Plan} (h : checkApproved approved fresh = .ok ()) :
    approved.fingerprint = fresh.fingerprint ∨ Accepted approved fresh := by
  unfold checkApproved at h
  split at h
  · exact .inl ‹_›
  obtain ⟨_, h⟩ := refuse_bind.mp h
  obtain ⟨hdesired, h⟩ := refuse_bind.mp h
  obtain ⟨_, h⟩ := refuse_bind.mp h
  obtain ⟨hyards, hupdates⟩ := check_bind.mp h
  rw [not_or, not_not, not_not] at hdesired
  refine .inr ⟨hdesired.1, hdesired.2, fun y hy => ?_, fun u hu => ?_⟩
  · have hy := forM_eq_ok.mp hyards y hy
    unfold checkYard at hy
    split at hy
    · cases hy
    · next old hold =>
        obtain ⟨hguard, _⟩ := refuse_bind.mp hy
        exact ⟨old, hold, not_not.mp hguard⟩
  · have hu := forM_eq_ok.mp hupdates u hu
    unfold checkUpdate at hu
    split at hu
    · cases hu
    · next old hold => exact ⟨old, hold, not_not.mp (refuse_eq_ok.mp hu)⟩

lemma allowed_mem {plan : Plan} {yard : Yard} {u : Update} (h : plan.allowed yard = some u) :
    u ∈ plan.updates ∧ u.yard.yard = yard :=
  ⟨List.mem_reverse.mp (List.mem_of_find?_eq_some h), by simpa using List.find?_some h⟩

lemma observation_mem {plan : Plan} {yard : Yard} {y : ObservedYard}
    (h : plan.observation yard = some y) : y ∈ plan.snapshot.yards ∧ y.yard = yard :=
  ⟨List.mem_reverse.mp (List.mem_of_find?_eq_some h), by simpa using List.find?_some h⟩

/-- The yards of the updates are those that were observed. -/
lemma buildPlan_observed {size : Policy → ℕ} {stored : StoredPolicy} {s : Snapshot}
    {change : Change} {plan : Plan} (h : buildPlan size stored s change = .ok plan) :
    plan.snapshot = s ∧ plan.fingerprint = ⟨stored, s, change⟩
      ∧ plan.yards = s.yards.map (·.yard)
      ∧ ∀ u ∈ plan.updates, u.yard ∈ s.yards := by
  obtain ⟨p₀, p, updates, hd, rfl⟩ := buildPlan_ok.mp h
  refine ⟨rfl, rfl, rfl, fun u hu => ?_⟩
  have hu : u ∈ updates := hu
  by_cases hidle : p₀.Idle
  · rw [(hd.idle hidle).2] at hu
    cases hu
  · obtain ⟨y, hy, hplan⟩ := (hd.planned hidle).of_update hu
    cases hb : bound p.bindings y.yard.name with
    | none =>
      rw [planUpdate_unbound hb] at hplan
      cases hplan
    | some b =>
      have hupdate := ((planUpdate_ok hb).mp hplan).2
      split at hupdate
      · cases hupdate
        have hyard : (p.desired s y b).yard = y := by
          unfold Policy.desired
          split <;> rfl
        rwa [hyard]
      · cases hupdate

/-- The yards with a running instance that a plan changes are to be started again. -/
lemma mem_intent {plan : Plan} {name : Bytes} : name ∈ plan.intent.pendingStart ↔
    name ∈ plan.policy.pendingStart
      ∨ (plan.physical ∧ ∃ u ∈ plan.updates, u.yard.Running ∧ u.yard.yard.name = name) := by
  unfold Plan.intent
  have hloop : ∀ (updates : List Update) (pending : List Bytes),
      name ∈ updates.foldl (fun pending u =>
        if u.yard.Running ∧ u.yard.yard.name ∉ pending then pending ++ [u.yard.yard.name]
        else pending) pending ↔
      name ∈ pending ∨ ∃ u ∈ updates, u.yard.Running ∧ u.yard.yard.name = name := by
    intro updates
    induction updates with
    | nil => simp
    | cons u updates ih =>
      intro pending
      rw [List.foldl_cons, ih, List.exists_mem_cons_iff, ← or_assoc]
      refine or_congr_left ?_
      by_cases hu : u.yard.Running ∧ u.yard.yard.name ∉ pending
      · rw [if_pos hu, List.mem_append, List.mem_singleton]
        exact or_congr_right ⟨fun h => ⟨hu.1, h.symm⟩, fun h => h.2.symm⟩
      · rw [if_neg hu]
        refine ⟨.inl, ?_⟩
        rintro (h | ⟨hr, rfl⟩)
        · exact h
        · by_contra hn
          exact hu ⟨hr, hn⟩
  split
  · next hphysical =>
      rw [(List.perm_insertionSort _ _).mem_iff, hloop]
      simp [hphysical]
  · next hphysical => simp [hphysical]

/-- The plan that turns isolation on, from a policy read at some revision. -/
def isolationPlan (etag : Bytes) : Except Fault Plan :=
  buildPlan (fun _ => 0) ⟨.initial, etag⟩ twoYards linkAndIsolate

/-- One yard, which is stopped. -/
def stoppedYard : ObservedYard := (sampleObserved "a").setStatus (str "Stopped")

/-- A policy that was never applied, with yards that are to be started. -/
def unapplied (pending : List Bytes) : Policy :=
  { Policy.initial with revision := 1, pendingStart := pending }

def stoppedHost (pending : List Bytes) : Host :=
  { policy := unapplied pending, observed := fun _ => stoppedYard, firewall := str "nftables"
    networks := twoYards.networks }

/-- A plan without updates. -/
def stoppedPlan : Plan :=
  planOf (stoppedHost []).stored ((stoppedHost []).snapshot [sampleYard "a"]) {} (unapplied []) []

end Subyard.YardNetwork
