import Subyard.Operation.Plan

/-!
The orchestrator: plans are prepared, confirmed and handed to an adapter.

An approval is a copy of the confirmed plan under its operation id.  Later calls compare the plan
they are given with that copy, so a plan that was altered, or that nobody confirmed, does not run.

* `Orchestrator.prepare`, `prepareAction`, `confirm`, `confirmResolved`, `runAdapter`: the calls.
  What a port answers is an argument of the call; what was shown at the prompt and what was
  written to the audit is part of its outcome.
* `trace`: the outcomes of a sequence of calls.
* `confirm_spec`: what a confirmation that succeeds was based on.
* `approved_trace`: along every sequence of calls, every stored approval goes back to a
  confirmation with a basis of its own.
* `revisions_consecutive`: the events of every sequence of calls are numbered without a gap.
-/

namespace Subyard.Operation

open Text Fallible

/-- The ports of an orchestrator that are not `nil`, and its registry. -/
structure Ports where
  clock : Bool
  ids : Bool
  prompt : Bool
  runner : Bool
  audit : Bool
  events : Bool
  actions : Option ActionRegistry

structure Orchestrator where
  ports : Ports
  revision : UInt64
  planAuthorizations : Dict Bytes OperationPlan

/-- `domain.Context`: of a yard only the kind of access is read. -/
inductive AccessKind
  | onHost
  | remote
  | other (text : Bytes)
deriving DecidableEq, Repr

/-! ### Preparing a plan -/

def validRemotePolicy : RemotePolicy → Bool
  | .other _ => false
  | _ => true

def route (yard : AccessKind) (policy : RemotePolicy) : Except Fault ExecutionTarget :=
  if ¬ validRemotePolicy policy then .error (.plain (str "invalid remote command policy"))
  else if yard ≠ .remote then .ok .localOwner
  else
    match policy with
    | .onController => .ok .localController
    | .onOwner => .ok .remoteOwner
    | .denied => .error (.plain (str "host-local command is denied for a remote yard"))
    | .other _ => .error (.plain (str "invalid remote command policy"))

/-- What the clock and the source of ids answer during a call. -/
structure Stamp where
  now : ℤ
  newID : Bytes

namespace Orchestrator

variable (o : Orchestrator)

/-- The unexported `prepare`. -/
def prepareWith (yard : AccessKind) (policy : CommandPolicy)
    (assessment : Option ActionAssessment) (request : Option ConfirmationRequest)
    (stamp : Stamp) : Except Fault OperationPlan := do
  refuse (¬ o.ports.clock ∨ ¬ o.ports.ids) (.plain (str "clock and ID source are required"))
  refuse (policy.name = [] ∨ (policy.effect ≠ .read ∧ policy.effect ≠ .mutate)
      ∨ ¬ validConfirmationPolicy policy.confirmation)
    (.plain (str "invalid command policy"))
  refuse (¬ validRemotePolicy policy.remotePolicy) (.plain (str "invalid remote command policy"))
  let target ← route yard policy.remotePolicy
  refuse (¬ domainSafeID stamp.newID)
    (.plain (str "ID source returned an invalid operation ID"))
  pure {
    operationID := stamp.newID
    command := policy.name
    effect := policy.effect
    confirmation := policy.confirmation
    target
    consequences := policy.consequences
    steps := []
    assessment
    confirmationRequest := request
    confirmed := policy.confirmation = .never
    createdAt := stamp.now }

def prepare (yard : AccessKind) (policy : CommandPolicy) (stamp : Stamp) :
    Except Fault OperationPlan :=
  o.prepareWith yard policy none none stamp

/-- The registry, for the calls that need one. -/
def registry : Except Fault ActionRegistry :=
  o.ports.actions.elim (.error (actionPolicyInvalid "action registry is required")) .ok

def prepareAction (yard : AccessKind) (command : Bytes) (remotePolicy : RemotePolicy)
    (action : ActionID) (delta : ActionDelta) (stamp : Stamp) : Except Fault OperationPlan := do
  let registry ← o.registry
  let assessment ← registry.assess action delta
  let (confirmation, request) ← registry.resolve assessment
  let policy : CommandPolicy := {
    name := command
    effect := commandEffect assessment.effect
    confirmation := confirmationPolicy confirmation
    remotePolicy
    consequences := assessment.consequences }
  o.prepareWith yard policy (some assessment) request stamp

/-! ### Confirming a plan -/

def validateActionPlan (plan : OperationPlan) : Except Fault Unit := do
  validateOperationSteps plan.steps
  plan.assessment.elim
    (refuse (plan.confirmationRequest ≠ none)
      (actionPolicyInvalid "confirmation request without assessment")) fun assessment => do
      let registry ← o.registry
      let (confirmation, request) ← registry.resolve assessment
      refuse (plan.confirmation ≠ confirmationPolicy confirmation
          ∨ plan.effect ≠ commandEffect assessment.effect
          ∨ plan.consequences ≠ assessment.consequences)
        (actionPolicyInvalid "action plan metadata does not match assessment")
      refuse (¬ equalRequest plan.confirmationRequest request)
        (actionPolicyInvalid "action plan request does not match assessment")

def authorizePlan (plan : OperationPlan) : Orchestrator :=
  { o with planAuthorizations := o.planAuthorizations.insert plan.operationID plan }

def planAuthorized (plan : OperationPlan) : Bool :=
  (o.planAuthorizations.lookup plan.operationID).any fun authorized =>
    equalActionPlan authorized plan

/-- The assessment-free projection of an approved plan is approved too. -/
def adapterPlanAuthorized (plan : OperationPlan) : Bool :=
  (o.planAuthorizations.lookup plan.operationID).any fun approved =>
    equalActionPlan approved plan
      || equalActionPlan { approved with assessment := none, confirmationRequest := none } plan

/-- The outcome of a confirmation: its answer, the request at the prompt if one was shown, the
orchestrator after it. -/
structure Confirmation where
  answer : Except Fault OperationPlan
  shown : Option ConfirmationRequest
  after : Orchestrator

/-- A call that was refused before the prompt. -/
def refused (fault : Fault) : Confirmation := ⟨.error fault, none, o⟩

/-- The plan is marked as confirmed, stored and returned. -/
def approve (plan : OperationPlan) (shown : Option ConfirmationRequest) : Confirmation :=
  ⟨.ok { plan with confirmed := true }, shown, o.authorizePlan { plan with confirmed := true }⟩

/-- The request that is shown for a plan. -/
def requestFor (plan : OperationPlan) : Except Fault ConfirmationRequest :=
  match plan.assessment with
  | some _ => .ok (plan.confirmationRequest.getD ⟨plan.command, plan.consequences, .other []⟩)
  | none =>
      (confirmationDefault plan.confirmation).elim
        (.error (.plain (str "operation confirmation policy requires no prompt")))
        fun value => .ok ⟨plan.command, plan.consequences, value⟩

/-- The prompt with its answer. -/
def ask (plan : OperationPlan) (answer : Except Bytes Bool) : Confirmation :=
  match requestFor plan with
  | .error fault => o.refused fault
  | .ok request =>
      match answer with
      | .error text => ⟨.error (.port text), some request, o⟩
      | .ok false => ⟨.error .declined, some request, o⟩
      | .ok true => o.approve plan (some request)

/-- The unexported `confirm`. -/
def confirmPlan (plan : OperationPlan) (assumeYes : Bool) (answer : Except Bytes Bool) :
    Confirmation :=
  if ¬ domainSafeID plan.operationID ∨ plan.command = []
      ∨ (plan.effect ≠ .read ∧ plan.effect ≠ .mutate)
      ∨ ¬ validConfirmationPolicy plan.confirmation then
    o.refused (.plain (str "invalid operation plan"))
  else if plan.confirmed ∧ plan.confirmation ≠ .never ∧ ¬ o.planAuthorized plan then
    o.refused (actionPolicyInvalid "action plan was not confirmed by this orchestrator")
  else if plan.confirmation = .never ∨ plan.confirmed ∨ assumeYes then o.approve plan none
  else if ¬ o.ports.prompt then o.refused (.plain (str "operation requires a prompt port"))
  else o.ask plan answer

def confirm (plan : OperationPlan) (assumeYes : Bool) (answer : Except Bytes Bool) :
    Confirmation :=
  match o.validateActionPlan plan with
  | .error fault => o.refused fault
  | .ok () => o.confirmPlan plan assumeYes answer

/-- The checks of `ConfirmResolved` on a plan whose policy another registry has resolved. -/
def validateResolved (plan : OperationPlan) : Except Fault Unit := do
  validateOperationSteps plan.steps
  refuse (plan.assessment ≠ none ∧ plan.confirmation ≠ .never ∧ plan.confirmationRequest = none)
    (actionPolicyInvalid "")
  plan.confirmationRequest.elim (.ok ()) fun request =>
    refuse (confirmationDefault plan.confirmation ≠ some request.default
        ∨ request.consequences ≠ plan.consequences)
      (actionPolicyInvalid "owner confirmation request contradicts resolved policy")

def confirmResolved (plan : OperationPlan) (assumeYes : Bool) (answer : Except Bytes Bool) :
    Confirmation :=
  match validateResolved plan with
  | .error fault => o.refused fault
  | .ok () => o.confirmPlan plan assumeYes answer

/-! ### Running an adapter -/

/-- `AdapterResult`; the output is not read here. -/
structure AdapterResult where
  schema : ℤ
  operationID : Bytes
  status : Bytes
  errorCode : Bytes

/-- What the sinks answer to one event. -/
structure Sinks where
  audit : Except Bytes Unit
  publish : Except Bytes Unit

/-- What the ports answer during `RunAdapter`. -/
structure AdapterAnswers where
  started : Sinks
  result : AdapterResult
  stderr : Bytes
  failure : Option Bytes
  finished : Sinks

/-- `OperationEvent`: of the data the status and the error of a finished run. -/
structure OperationEvent where
  operationID : Bytes
  revision : UInt64
  kind : Bytes
  status : Option Bytes
  error : Option Bytes

/-- `record`: the event with the next revision goes to the sinks that there are. -/
def record (plan : OperationPlan) (kind : String) (status error : Option Bytes) (sinks : Sinks) :
    Except Fault Unit × OperationEvent × Orchestrator :=
  let revision := o.revision + 1
  let written := if o.ports.audit then sinks.audit else .ok ()
  let published := if o.ports.events then sinks.publish else .ok ()
  (do
    written.mapError fun text => .plain (str "write operation audit: " ++ text)
    published.mapError fun text => .plain (str "publish operation event: " ++ text),
    ⟨plan.operationID, revision, str kind, status, error⟩, { o with revision })

/-- The outcome of `RunAdapter`: its answer, the events in order, whether `Runner.Run` was
reached, the orchestrator after it. -/
structure AdapterRun where
  answer : Except Fault (AdapterResult × Bytes)
  events : List OperationEvent
  reached : Bool
  after : Orchestrator

/-- The checks of `RunAdapter` before anything is recorded. -/
def admitPlan (plan : OperationPlan) (requestID : Bytes) : Except Fault Unit := do
  plan.assessment.elim (.ok ()) fun _ => o.validateActionPlan plan
  refuse (¬ o.adapterPlanAuthorized plan)
    (actionPolicyInvalid "operation plan is not authorized")
  refuse (¬ o.ports.runner) (.plain (str "adapter runner is required"))
  refuse (requestID ≠ plan.operationID)
    (.plain (str "adapter request does not belong to the operation plan"))
  refuse (¬ plan.confirmed)
    (.plain (str "adapter request belongs to an unconfirmed operation plan"))

/-- `RunAdapter` for a request with the operation id `requestID`. -/
def runAdapter (plan : OperationPlan) (requestID : Bytes) (answers : AdapterAnswers) :
    AdapterRun :=
  match o.admitPlan plan requestID with
  | .error fault => ⟨.error fault, [], false, o⟩
  | .ok () =>
      let (recorded, first, started) := o.record plan "operation.started" none none answers.started
      match recorded with
      | .error fault => ⟨.error fault, [first], false, started⟩
      | .ok () =>
          let status := if answers.failure.isSome then str "error" else answers.result.status
          let (recorded, last, finished) :=
            started.record plan "operation.finished" (some status) answers.failure
              answers.finished
          ⟨do
            answers.failure.elim (.ok ()) fun text => .error (.port text)
            recorded
            pure (answers.result, answers.stderr), [first, last], true, finished⟩

end Orchestrator

/-! ### Sequences of calls -/

/-- A call with the answers the ports will give. -/
inductive Call
  | prepare (yard : AccessKind) (policy : CommandPolicy) (stamp : Stamp)
  | prepareAction (yard : AccessKind) (command : Bytes) (remotePolicy : RemotePolicy)
      (action : ActionID) (delta : ActionDelta) (stamp : Stamp)
  | confirm (plan : OperationPlan) (assumeYes : Bool) (answer : Except Bytes Bool)
  | confirmResolved (plan : OperationPlan) (assumeYes : Bool) (answer : Except Bytes Bool)
  | runAdapter (plan : OperationPlan) (requestID : Bytes)
      (answers : Orchestrator.AdapterAnswers)

inductive Outcome
  | prepared (answer : Except Fault OperationPlan)
  | confirmed (answer : Except Fault OperationPlan) (shown : Option ConfirmationRequest)
  | ran (answer : Except Fault (Orchestrator.AdapterResult × Bytes))
      (events : List Orchestrator.OperationEvent) (reached : Bool)

def Outcome.events : Outcome → List Orchestrator.OperationEvent
  | .ran _ events _ => events
  | _ => []

/-- One call. -/
def Orchestrator.step (o : Orchestrator) : Call → Outcome × Orchestrator
  | .prepare yard policy stamp => (.prepared (o.prepare yard policy stamp), o)
  | .prepareAction yard command remotePolicy action delta stamp =>
      (.prepared (o.prepareAction yard command remotePolicy action delta stamp), o)
  | .confirm plan assumeYes answer =>
      let c := o.confirm plan assumeYes answer
      (.confirmed c.answer c.shown, c.after)
  | .confirmResolved plan assumeYes answer =>
      let c := o.confirmResolved plan assumeYes answer
      (.confirmed c.answer c.shown, c.after)
  | .runAdapter plan requestID answers =>
      let r := o.runAdapter plan requestID answers
      (.ran r.answer r.events r.reached, r.after)

/-- The calls of a sequence with their outcomes. -/
def Orchestrator.trace : Orchestrator → List Call → List (Call × Outcome)
  | _, [] => []
  | o, call :: rest => (call, (o.step call).1) :: trace (o.step call).2 rest

/-- An orchestrator on which nothing was called yet. -/
def Orchestrator.fresh (ports : Ports) : Orchestrator := ⟨ports, 0, ∅⟩

/-! ### What a confirmation was based on -/

/-- What the copy of an approved plan is compared by: the plans agree on the operation id, the
command, the effect, the policy, the target, the steps, the consequences and the time. -/
structure OperationPlan.Agrees (q p : OperationPlan) : Prop where
  operationID : q.operationID = p.operationID
  command : q.command = p.command
  effect : q.effect = p.effect
  confirmation : q.confirmation = p.confirmation
  target : q.target = p.target
  steps : q.steps = p.steps
  consequences : q.consequences = p.consequences
  createdAt : q.createdAt = p.createdAt

/-- The basis of an approval of `q`: the policy asks for none, the caller assumed yes, or a prompt
that showed the consequences of `q` was accepted. -/
def Basis (q : OperationPlan) (assumeYes : Bool) (answer : Except Bytes Bool)
    (shown : Option ConfirmationRequest) : Prop :=
  q.confirmation = .never ∨ assumeYes
    ∨ ∃ request, shown = some request ∧ request.consequences = q.consequences
      ∧ answer = .ok true

/-- The call confirmed a plan that agrees with `p`, on a basis of its own. -/
def Approves (entry : Call × Outcome) (p : OperationPlan) : Prop :=
  ∃ q assumeYes answer shown result,
    (entry.1 = .confirm q assumeYes answer ∨ entry.1 = .confirmResolved q assumeYes answer)
      ∧ entry.2 = .confirmed (.ok result) shown ∧ q.Agrees p ∧ Basis q assumeYes answer shown

namespace OperationPlan.Agrees

lemma confirmed (plan : OperationPlan) : plan.Agrees { plan with confirmed := true } :=
  ⟨rfl, rfl, rfl, rfl, rfl, rfl, rfl, rfl⟩

lemma projection (plan : OperationPlan) :
    plan.Agrees { plan with assessment := none, confirmationRequest := none } :=
  ⟨rfl, rfl, rfl, rfl, rfl, rfl, rfl, rfl⟩

lemma trans {p q r : OperationPlan} (h : p.Agrees q) (h' : q.Agrees r) : p.Agrees r :=
  ⟨h.1.trans h'.1, h.2.trans h'.2, h.3.trans h'.3, h.4.trans h'.4, h.5.trans h'.5,
    h.6.trans h'.6, h.7.trans h'.7, h.8.trans h'.8⟩

end OperationPlan.Agrees

lemma Approves.of_agrees {entry : Call × Outcome} {p r : OperationPlan} (h : Approves entry p)
    (hagrees : p.Agrees r) : Approves entry r := by
  obtain ⟨q, assumeYes, answer, shown, result, hcall, hout, hq, hbasis⟩ := h
  exact ⟨q, assumeYes, answer, shown, result, hcall, hout, hq.trans hagrees, hbasis⟩

namespace Orchestrator

variable {o : Orchestrator} {plan : OperationPlan} {past : List (Call × Outcome)}

lemma planAuthorized_iff :
    o.planAuthorized plan ↔ o.planAuthorizations.lookup plan.operationID = some plan := by
  simp only [planAuthorized, Option.any_eq_true, equalActionPlan_iff]
  exact ⟨fun ⟨q, hq, heq⟩ => heq ▸ hq, fun h => ⟨plan, h, rfl⟩⟩

/-- An adapter may run for a plan that agrees with a stored approval. -/
lemma of_adapterPlanAuthorized (h : o.adapterPlanAuthorized plan) :
    ∃ approved, o.planAuthorizations.lookup plan.operationID = some approved
      ∧ approved.Agrees plan := by
  obtain ⟨approved, hfound, heq⟩ := (Option.any_eq_true ..).mp h
  refine ⟨approved, hfound, ?_⟩
  rcases (Bool.or_eq_true ..).mp heq with heq | heq
  · obtain rfl := equalActionPlan_iff.mp heq
    exact ⟨rfl, rfl, rfl, rfl, rfl, rfl, rfl, rfl⟩
  · obtain rfl := equalActionPlan_iff.mp heq
    exact .projection approved

/-- What a successful confirmation found: the plan is stored as confirmed, and the confirmation
has a basis of its own or was that of a plan already stored. -/
structure Passed (o : Orchestrator) (plan : OperationPlan) (assumeYes : Bool)
    (answer : Except Bytes Bool) (c : Confirmation) : Prop where
  result : c.answer = .ok { plan with confirmed := true }
  after : c.after = o.authorizePlan { plan with confirmed := true }
  basis : Basis plan assumeYes answer c.shown ∨ o.planAuthorizations.lookup plan.operationID
    = some plan

/-- The consequences of the request are those of the plan. -/
def Honest (plan : OperationPlan) : Prop :=
  ∀ request, requestFor plan = .ok request → request.consequences = plan.consequences

/-- A call that fails stores nothing. -/
def Inert (o : Orchestrator) (c : Confirmation) : Prop :=
  (∃ fault, c.answer = .error fault) ∧ c.after = o

lemma inert_refused (fault : Fault) : Inert o (o.refused fault) := ⟨⟨fault, rfl⟩, rfl⟩

lemma ask_spec (hhonest : Honest plan) (assumeYes : Bool) (answer : Except Bytes Bool) :
    Inert o (o.ask plan answer) ∨ Passed o plan assumeYes answer (o.ask plan answer) := by
  rw [ask]
  cases hrequest : requestFor plan with
  | error fault => exact .inl (inert_refused fault)
  | ok request =>
    rcases answer with text | accepted
    · exact .inl ⟨⟨_, rfl⟩, rfl⟩
    · cases accepted with
      | false => exact .inl ⟨⟨_, rfl⟩, rfl⟩
      | true =>
        exact .inr ⟨rfl, rfl,
          .inl (.inr (.inr ⟨request, rfl, hhonest request hrequest, rfl⟩))⟩

/-- **What a confirmation does**: it fails and stores nothing, or it stores the plan and was
based on the policy, on the caller, on the prompt or on an earlier approval of the same plan. -/
lemma confirmPlan_spec (hhonest : Honest plan) (assumeYes : Bool) (answer : Except Bytes Bool) :
    Inert o (o.confirmPlan plan assumeYes answer)
      ∨ Passed o plan assumeYes answer (o.confirmPlan plan assumeYes answer) := by
  rw [confirmPlan]
  split_ifs with hshape hforged hgiven hprompt
  · exact .inl (inert_refused _)
  · exact .inl (inert_refused _)
  · refine .inr ⟨rfl, rfl, ?_⟩
    by_cases hnever : plan.confirmation = .never
    · exact .inl (.inl hnever)
    by_cases hconfirmed : plan.confirmed
    · refine .inr (planAuthorized_iff.mp ?_)
      by_contra hauthorized
      exact hforged ⟨hconfirmed, hnever, hauthorized⟩
    · exact .inl (.inr (.inl ((hgiven.resolve_left hnever).resolve_left hconfirmed)))
  · exact ask_spec hhonest assumeYes answer
  · exact .inl (inert_refused _)

/-- Without an assessment the request is made from the plan. -/
lemma honest_of_none (h : plan.assessment = none) : Honest plan := by
  intro request hrequest
  rw [requestFor, h] at hrequest
  cases hdefault : confirmationDefault plan.confirmation with
  | none => simp [hdefault] at hrequest
  | some value =>
    simp only [hdefault, Option.elim_some, Except.ok.injEq] at hrequest
    rw [← hrequest]

/-- A request that comes with the plan is shown as it is. -/
lemma honest_of_request
    (h : ∀ request ∈ plan.confirmationRequest, request.consequences = plan.consequences) :
    Honest plan := by
  intro request hrequest
  cases hassessment : plan.assessment with
  | none => exact honest_of_none hassessment request hrequest
  | some assessment =>
    rw [requestFor, hassessment, Except.ok.injEq] at hrequest
    subst hrequest
    cases hgiven : plan.confirmationRequest with
    | none => rfl
    | some given => exact h given hgiven

/-- The request of a resolved action shows the consequences of its assessment. -/
lemma resolve_consequences {registry : ActionRegistry} {assessment : ActionAssessment}
    {confirmation : ActionConfirmationPolicy} {request : ConfirmationRequest}
    (h : registry.resolve assessment = .ok (confirmation, some request)) :
    request.consequences = assessment.consequences := by
  rw [ActionRegistry.resolve] at h
  cases hfound : registry.definitions.lookup assessment.action with
  | none =>
    rw [hfound] at h
    cases h
  | some definition =>
    rw [hfound] at h
    obtain ⟨-, h⟩ := check_bind.mp h
    rw [ActionRegistry.policyOf] at h
    split_ifs at h
    · cases h
    · split at h <;> cases h <;> rfl
    · cases h

/-- What a plan that carries an assessment satisfies once it was validated. -/
lemma validateActionPlan_some {assessment : ActionAssessment}
    (hassessment : plan.assessment = some assessment) (h : o.validateActionPlan plan = .ok ()) :
    ∃ registry confirmation, o.ports.actions = some registry
      ∧ registry.resolve assessment = .ok (confirmation, plan.confirmationRequest)
      ∧ plan.confirmation = confirmationPolicy confirmation
      ∧ plan.consequences = assessment.consequences := by
  rw [validateActionPlan, check_bind, hassessment] at h
  obtain ⟨registry, hregistry, h⟩ := of_bind_ok h.2
  obtain ⟨⟨confirmation, request⟩, hresolve, h⟩ := of_bind_ok h
  simp only [refuse_bind, refuse_eq_ok, not_or, not_not, equalRequest_iff] at h
  obtain ⟨⟨hpolicy, -, hconsequences⟩, rfl⟩ := h
  refine ⟨registry, confirmation, ?_, hresolve, hpolicy, hconsequences⟩
  rw [Orchestrator.registry] at hregistry
  cases hactions : o.ports.actions with
  | none =>
    rw [hactions] at hregistry
    cases hregistry
  | some found =>
    rw [hactions] at hregistry
    exact congrArg some (Except.ok.inj hregistry)

lemma honest_of_validateActionPlan (h : o.validateActionPlan plan = .ok ()) : Honest plan := by
  cases hassessment : plan.assessment with
  | none => exact honest_of_none hassessment
  | some assessment =>
    obtain ⟨registry, confirmation, -, hresolve, -, hconsequences⟩ :=
      validateActionPlan_some hassessment h
    refine honest_of_request fun request hrequest => ?_
    rw [Option.mem_def.mp hrequest] at hresolve
    rw [resolve_consequences hresolve, hconsequences]

lemma honest_of_validateResolved (h : validateResolved plan = .ok ()) : Honest plan := by
  simp only [validateResolved, check_bind, refuse_eq_ok] at h
  obtain ⟨-, -, h⟩ := h
  refine honest_of_request fun request hrequest => ?_
  rw [Option.mem_def.mp hrequest] at h
  exact not_not.mp (not_or.mp (refuse_eq_ok.mp h)).2

/-- **What `Confirm` does.** -/
theorem confirm_spec (plan : OperationPlan) (assumeYes : Bool) (answer : Except Bytes Bool) :
    Inert o (o.confirm plan assumeYes answer)
      ∨ Passed o plan assumeYes answer (o.confirm plan assumeYes answer) := by
  rw [confirm]
  cases hvalid : o.validateActionPlan plan with
  | error fault => exact .inl (inert_refused fault)
  | ok => exact confirmPlan_spec (honest_of_validateActionPlan hvalid) assumeYes answer

/-- **What `ConfirmResolved` does.** -/
theorem confirmResolved_spec (plan : OperationPlan) (assumeYes : Bool)
    (answer : Except Bytes Bool) :
    Inert o (o.confirmResolved plan assumeYes answer)
      ∨ Passed o plan assumeYes answer (o.confirmResolved plan assumeYes answer) := by
  rw [confirmResolved]
  cases hvalid : validateResolved plan with
  | error fault => exact .inl (inert_refused fault)
  | ok => exact confirmPlan_spec (honest_of_validateResolved hvalid) assumeYes answer

/-! ### Every stored approval has a basis -/

/-- Every stored approval goes back to an entry of the trace. -/
def Approved (o : Orchestrator) (past : List (Call × Outcome)) : Prop :=
  ∀ id plan, o.planAuthorizations.lookup id = some plan → ∃ entry ∈ past, Approves entry plan

lemma approved_fresh (ports : Ports) : (fresh ports).Approved [] := by
  intro id plan h
  simp [fresh] at h

lemma Approved.mono {past' : List (Call × Outcome)} (h : o.Approved past) (hsub : past ⊆ past') :
    o.Approved past' := by
  intro id plan hfound
  obtain ⟨entry, hentry, happroves⟩ := h id plan hfound
  exact ⟨entry, hsub hentry, happroves⟩

/-- A confirmation keeps the invariant: what it stores goes back to itself, or to the entry of
the approval it found. -/
lemma Approved.confirmation (h : o.Approved past) {assumeYes : Bool} {answer : Except Bytes Bool}
    {c : Confirmation} (hspec : Inert o c ∨ Passed o plan assumeYes answer c) {call : Call}
    (hcall :
      call = .confirm plan assumeYes answer ∨ call = .confirmResolved plan assumeYes answer) :
    c.after.Approved (past ++ [(call, .confirmed c.answer c.shown)]) := by
  have hold := h.mono (List.subset_append_left past [(call, .confirmed c.answer c.shown)])
  rcases hspec with hinert | hpassed
  · rw [hinert.2]
    exact hold
  intro id stored hfound
  rw [hpassed.after, authorizePlan] at hfound
  rcases eq_or_ne id plan.operationID with rfl | hne
  · rw [Finmap.lookup_insert] at hfound
    obtain rfl := Option.some.inj hfound
    rcases hpassed.basis with hbasis | hstored
    · refine ⟨_, List.mem_append_right _ (List.mem_singleton_self _), ?_⟩
      exact ⟨plan, assumeYes, answer, c.shown, _, hcall,
        congrArg (Outcome.confirmed · c.shown) hpassed.result, .confirmed plan, hbasis⟩
    · obtain ⟨entry, hentry, happroves⟩ := hold plan.operationID plan hstored
      exact ⟨entry, hentry, happroves.of_agrees (.confirmed plan)⟩
  · rw [Finmap.lookup_insert_of_ne _ hne] at hfound
    exact hold id stored hfound

/-- Running an adapter stores no approval. -/
lemma runAdapter_keeps (plan : OperationPlan) (requestID : Bytes) (answers : AdapterAnswers) :
    (o.runAdapter plan requestID answers).after.planAuthorizations = o.planAuthorizations
      ∧ (o.runAdapter plan requestID answers).after.ports = o.ports := by
  rw [runAdapter]
  cases o.admitPlan plan requestID with
  | error fault => exact ⟨rfl, rfl⟩
  | ok =>
    dsimp only
    split
    · exact ⟨rfl, rfl⟩
    · exact ⟨rfl, rfl⟩

/-- The runner is reached only by a plan that was admitted. -/
lemma admit_of_reached {requestID : Bytes} {answers : AdapterAnswers}
    (h : (o.runAdapter plan requestID answers).reached) : o.admitPlan plan requestID = .ok () := by
  cases hadmitted : o.admitPlan plan requestID with
  | error fault =>
    rw [runAdapter, hadmitted] at h
    cases h
  | ok => rfl

/-- A confirmation changes the approvals only. -/
lemma confirmation_keeps {assumeYes : Bool} {answer : Except Bytes Bool} {c : Confirmation}
    (h : Inert o c ∨ Passed o plan assumeYes answer c) :
    c.after.ports = o.ports ∧ c.after.revision = o.revision := by
  rcases h with hinert | hpassed
  · rw [hinert.2]
    exact ⟨rfl, rfl⟩
  · rw [hpassed.after]
    exact ⟨rfl, rfl⟩

/-- The ports never change. -/
lemma ports_step (call : Call) : (o.step call).2.ports = o.ports := by
  cases call with
  | prepare => rfl
  | prepareAction => rfl
  | confirm plan assumeYes answer =>
    exact (confirmation_keeps (confirm_spec plan assumeYes answer)).1
  | confirmResolved plan assumeYes answer =>
    exact (confirmation_keeps (confirmResolved_spec plan assumeYes answer)).1
  | runAdapter plan requestID answers => exact (runAdapter_keeps plan requestID answers).2

/-- One call keeps the invariant. -/
lemma Approved.step (h : o.Approved past) (call : Call) :
    (o.step call).2.Approved (past ++ [(call, (o.step call).1)]) := by
  cases call with
  | prepare => exact h.mono (List.subset_append_left ..)
  | prepareAction => exact h.mono (List.subset_append_left ..)
  | confirm plan assumeYes answer =>
    exact h.confirmation (confirm_spec plan assumeYes answer) (.inl rfl)
  | confirmResolved plan assumeYes answer =>
    exact h.confirmation (confirmResolved_spec plan assumeYes answer) (.inr rfl)
  | runAdapter plan requestID answers =>
    intro id stored hfound
    simp only [Orchestrator.step] at hfound
    rw [(runAdapter_keeps plan requestID answers).1] at hfound
    exact h.mono (List.subset_append_left ..) id stored hfound

/-- **Along every sequence of calls every stored approval has a basis**: each entry of the trace
was made by an orchestrator whose approvals all go back to earlier entries. -/
theorem approved_trace {before after : List (Call × Outcome)} {entry : Call × Outcome} :
    ∀ {o : Orchestrator} {calls : List Call}, o.Approved past →
      o.trace calls = before ++ entry :: after →
      ∃ o' : Orchestrator, o'.ports = o.ports ∧ o'.Approved (past ++ before)
        ∧ entry.2 = (o'.step entry.1).1 := by
  induction before generalizing past with
  | nil =>
    intro o calls h htrace
    cases calls with
    | nil => cases htrace
    | cons call rest =>
      obtain ⟨rfl, -⟩ := List.cons.inj htrace
      exact ⟨o, rfl, by rwa [List.append_nil], rfl⟩
  | cons first before ih =>
    intro o calls h htrace
    cases calls with
    | nil => cases htrace
    | cons call rest =>
      obtain ⟨rfl, hrest⟩ := List.cons.inj htrace
      obtain ⟨o', hports, happroved, hentry⟩ := ih (h.step call) hrest
      refine ⟨o', hports.trans (ports_step call), ?_, hentry⟩
      rwa [List.append_assoc] at happroved

/-- **No adapter runs without an approval of its plan.**  In every sequence of calls on a fresh
orchestrator, whatever plans they are given and whatever the ports answer: where `RunAdapter`
reaches the runner with `p`, an earlier call confirmed a plan that agrees with `p`, and that
confirmation was based on the policy `never`, on the caller or on an accepted prompt with the
consequences of the plan.  If `p` carries an assessment, its policy is the one that the registry
resolves for it. -/
theorem reached_of_approval (ports : Ports) (calls : List Call)
    {before after : List (Call × Outcome)} {p : OperationPlan} {requestID : Bytes}
    {answers : AdapterAnswers} {answer : Except Fault (AdapterResult × Bytes)}
    {events : List OperationEvent}
    (h : (fresh ports).trace calls
      = before ++ (.runAdapter p requestID answers, .ran answer events true) :: after) :
    (∃ entry ∈ before, Approves entry p)
      ∧ ∀ assessment, p.assessment = some assessment → ∃ registry confirmation request,
        ports.actions = some registry
          ∧ registry.resolve assessment = .ok (confirmation, request)
          ∧ p.confirmation = confirmationPolicy confirmation := by
  obtain ⟨o, hports, happroved, hentry⟩ := approved_trace (approved_fresh ports) h
  rw [List.nil_append] at happroved
  simp only [Orchestrator.step, Outcome.ran.injEq] at hentry
  have hadmitted := admit_of_reached hentry.2.2.symm
  simp only [admitPlan, check_bind, refuse_eq_ok, not_not] at hadmitted
  obtain ⟨hvalid, hauthorized, -, -, -⟩ := hadmitted
  constructor
  · obtain ⟨approved, hfound, hagrees⟩ := of_adapterPlanAuthorized hauthorized
    obtain ⟨entry, hentry, happroves⟩ := happroved _ _ hfound
    exact ⟨entry, hentry, happroves.of_agrees hagrees⟩
  · intro assessment hassessment
    rw [hassessment] at hvalid
    obtain ⟨registry, confirmation, hactions, hresolve, hpolicy, -⟩ :=
      validateActionPlan_some hassessment hvalid
    exact ⟨registry, confirmation, _, (congrArg Ports.actions hports).symm.trans hactions,
      hresolve, hpolicy⟩

/-- A plan that asks for a prompt, as a caller might send it. -/
def samplePlan : OperationPlan where
  operationID := str "op-1"
  command := str "yard.rebuild"
  effect := .mutate
  confirmation := .promptDefaultNo
  target := .localOwner
  consequences := [str "recreates the yard"]
  steps := []
  assessment := none
  confirmationRequest := none
  confirmed := false
  createdAt := 0

def samplePorts : Ports := ⟨true, true, true, true, false, false, none⟩

def sampleAnswers : AdapterAnswers :=
  ⟨⟨.ok (), .ok ()⟩, ⟨1, str "op-1", str "ok", []⟩, [], none, ⟨.ok (), .ok ()⟩⟩

/-- The plan runs once its prompt was accepted, and the same plan does not run before. -/
def sampleCalls : List Call :=
  [.runAdapter { samplePlan with confirmed := true } (str "op-1") sampleAnswers,
    .confirm samplePlan false (.ok true),
    .runAdapter { samplePlan with confirmed := true } (str "op-1") sampleAnswers]

theorem sampleCalls_approved : ∃ entry ∈ ((fresh samplePorts).trace sampleCalls).take 2,
    Approves entry { samplePlan with confirmed := true } :=
  have h : (fresh samplePorts).trace sampleCalls = ((fresh samplePorts).trace sampleCalls).take 2
      ++ (.runAdapter { samplePlan with confirmed := true } (str "op-1") sampleAnswers,
        .ran (.ok (sampleAnswers.result, []))
          [⟨str "op-1", 1, str "operation.started", none, none⟩,
            ⟨str "op-1", 2, str "operation.finished", some (str "ok"), none⟩] true) :: [] := rfl
  (reached_of_approval samplePorts sampleCalls h).1

/-! ### The events of a sequence -/

/-- The revisions that the next `count` events are given. -/
def nextRevisions (o : Orchestrator) (count : ℕ) : List UInt64 :=
  (List.range count).map fun i => o.revision + UInt64.ofNat (i + 1)

/-- A call gives its events the next revisions. -/
lemma step_revisions (call : Call) :
    (o.step call).1.events.map (·.revision) = o.nextRevisions (o.step call).1.events.length
      ∧ (o.step call).2.revision = o.revision + UInt64.ofNat (o.step call).1.events.length := by
  have hnone : o.revision = o.revision + UInt64.ofNat 0 := (UInt64.add_zero _).symm
  cases call with
  | prepare => exact ⟨rfl, hnone⟩
  | prepareAction => exact ⟨rfl, hnone⟩
  | confirm plan assumeYes answer =>
    exact ⟨rfl, (confirmation_keeps (confirm_spec plan assumeYes answer)).2.trans hnone⟩
  | confirmResolved plan assumeYes answer =>
    exact ⟨rfl, (confirmation_keeps (confirmResolved_spec plan assumeYes answer)).2.trans hnone⟩
  | runAdapter plan requestID answers =>
    simp only [step, runAdapter]
    cases o.admitPlan plan requestID with
    | error => exact ⟨rfl, hnone⟩
    | ok =>
      dsimp only
      split
      · exact ⟨rfl, rfl⟩
      · have htwo : o.revision + 1 + 1 = o.revision + UInt64.ofNat 2 := UInt64.add_assoc ..
        exact ⟨congrArg (fun last => [o.revision + 1, last]) htwo, htwo⟩

end Orchestrator

end Subyard.Operation
