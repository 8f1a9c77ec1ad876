import Subyard.Library.Interrupt
import Subyard.YardNetwork.Planner

/-!
The service that brings a host to its network policy.

* `Op`, `Host`: the calls of the host, and the host as policy, settings and power states.
* `Host.machine`: any call may also fail, and may have had its effect then.
* `prepare`, `checkApproved`, `applyLocked`: the service, as code that may be
  interrupted between any two calls.
-/

namespace Subyard.YardNetwork

open Text Fallible Ipv4 Interrupt
open Config (safeName)

/-! ### The host -/

/-- `EqualFold`, for texts in ASCII. -/
def equalFold (a b : Bytes) : Bool := toLower a = toLower b

namespace ObservedYard

def Running (y : ObservedYard) : Prop := y.instanceFound ∧ equalFold y.instanceInfo.status (str "running")

instance (y : ObservedYard) : Decidable y.Running := inferInstanceAs (Decidable (_ ∧ _))

/-- The yard with another network device; an instance takes it over from the profile. -/
def setNIC (y : ObservedYard) (nic : Settings) : ObservedYard :=
  { y with
    profileDevices := Finmap.insert eth0 nic y.profileDevices
    instanceInfo := if y.instanceFound then
      { y.instanceInfo with devices := Finmap.insert eth0 nic y.instanceInfo.devices }
      else y.instanceInfo }

/-- The yard with other networks its project may use. -/
def setAccess (y : ObservedYard) (access : Bytes) : ObservedYard :=
  { y with projectConfig := if access = [] then Finmap.erase accessKey y.projectConfig
      else Finmap.insert accessKey access y.projectConfig }

def setACL (y : ObservedYard) (acl : ACL) : ObservedYard := { y with acl := acl }

def setStatus (y : ObservedYard) (status : Bytes) : ObservedYard :=
  { y with instanceInfo := { y.instanceInfo with status := status } }

end ObservedYard

/-- The calls that the service makes. -/
inductive Op
  | readPolicy
  | inspectNetwork (yards : List Yard)
  | writePolicy (p : Policy)
  | networkPower (yard : Yard) (start : Bool)
  | writeProfileNIC (yard : Yard) (nic : Settings)
  | writeProjectNetworks (yard : Yard) (access : Bytes)
  | writeNetworkACL (yard : Yard) (acl : ACL)
  | deleteNetworkACL (yard : Yard)
  | guard

/-- What a call returns if it succeeds. -/
def Op.Answer : Op → Type
  | .readPolicy => StoredPolicy
  | .inspectNetwork _ => Snapshot
  | _ => Unit

abbrev Op.Reply (op : Op) : Type := Except Fault op.Answer

/-- A host: the stored policy, what it shows of each yard, and what the service cannot change. -/
structure Host where
  policy : Policy
  observed : Yard → ObservedYard
  firewall : Bytes
  clustered : Bool := false
  networks : Dict Bytes Network
  reservationClaims : Dict Bytes (Dict Bytes (List ReservationClaim)) := ∅
  /-- The host network safety guard; a service without one fails where it is required. -/
  guard : Except Fault Unit := .ok ()

namespace Host

/-- What is observed of a yard. -/
def observe (h : Host) (yard : Yard) : ObservedYard := { h.observed yard with yard := yard }

def stored (h : Host) : StoredPolicy := ⟨h.policy, []⟩

def snapshot (h : Host) (yards : List Yard) : Snapshot :=
  { firewall := h.firewall, clustered := h.clustered, yards := yards.map h.observe
    networks := h.networks, reservationClaims := h.reservationClaims }

/-- The host with one yard changed. -/
def modify (h : Host) (yard : Yard) (f : ObservedYard → ObservedYard) : Host :=
  { h with observed := Function.update h.observed yard (f (h.observe yard)) }

section Step

variable (size : Policy → ℕ)

/-- The effect of a call that does its work. -/
def step : (op : Op) → Host → op.Reply × Host
  | .readPolicy, h => (.ok h.stored, h)
  | .inspectNetwork yards, h => (.ok (h.snapshot yards), h)
  | .writePolicy p, h =>
      match encode size p with
      | .ok content => (.ok (), { h with policy := content })
      | .error e => (.error e, h)
  | .networkPower yard start, h =>
      if (h.observe yard).instanceFound then
        (.ok (), h.modify yard (·.setStatus (if start then str "Running" else str "Stopped")))
      else (.error (fault "instance not found"), h)
  | .writeProfileNIC yard nic, h =>
      if (h.observe yard).profileFound then (.ok (), h.modify yard (·.setNIC nic))
      else (.error (fault "profile not found"), h)
  | .writeProjectNetworks yard access, h =>
      if (h.observe yard).projectFound then (.ok (), h.modify yard (·.setAccess access))
      else (.error (fault "project not found"), h)
  | .writeNetworkACL yard acl, h => (.ok (), h.modify yard (·.setACL { acl with exists? := true }))
  | .deleteNetworkACL yard, h => (.ok (), h.modify yard (·.setACL { name := aclName yard }))
  | .guard, h => (h.guard, h)

/-- Any call may fail, and may have had its effect then. -/
def machine : Machine Host Op Op.Reply where
  effect op h r h' := (r, h') = step size op h
    ∨ (∃ e, r = .error e) ∧ (h' = h ∨ h' = (step size op h).2)
  torn op h h' := h' = (step size op h).2

end Step

end Host

/-! ### Approved boot ingress -/

/-- The device of an approved route. -/
def ApprovedIngress.proxyDevice (approved : ApprovedIngress) (b : Binding) : Settings :=
  (approved.proxy b).foldl (fun m entry => Finmap.insert entry.1 entry.2 m) ∅

/-- The contract that a route was approved for. -/
def ApprovedIngress.contract (approved : ApprovedIngress) : ProxyContract :=
  { profile := approved.device, resource := approved.device, device := approved.device
    connect := approved.transport ++ str ":guest:" ++ decimal approved.guestPort
    addressPolicy :=
      if approved.transport = str "udp" then .ownerIPv4UDP
      else if approved.transport = str "tcp" then .ownerIPv4TCP
      else .other (str "owner-ipv4-" ++ approved.transport)
    ownershipMetadata := true }

/-- One approved route of the loop of `applyApprovedBootIngress`: the route is still there. -/
def checkApprovedRoute (b : Binding) (y : ObservedYard) (approved : ApprovedIngress) :
    Except Fault ObservedYard := do
  let expected := approved.proxyDevice b
  let devices := y.instanceInfo.devices
  if approved.device = Preview.deviceName then do
    refuse (approved.transport ≠ str "tcp" ∨ approved.guestPort ≠ 8765
        ∨ ¬ ownedPreviewIngress y b ∨ devices.device approved.device ≠ expected)
      (.notConverged (str "approved static preview ingress for yard " ++ y.yard.name
        ++ str " changed"))
    pure y
  else do
    refuse (¬ y.instanceFound ∨ y.instanceInfo.kind ≠ .vm
        ∨ y.instanceInfo.localDevices.device approved.device ≠ expected
        ∨ devices.device approved.device ≠ expected
        ∨ y.instanceInfo.localConfig.value (str "user.subyard.resource." ++ approved.device)
          ≠ ownershipValue expected)
      (.notConverged (str "approved public ingress for yard " ++ y.yard.name ++ str " changed"))
    pure { y with ingressContracts := y.ingressContracts ++ [approved.contract] }

/-- A proxy into the yard that may have to be approved. -/
def hostIngress (b : Binding) (device : Settings) : Bool :=
  let starts (key : String) (start : Bytes) : Bool := start.isPrefixOf (device.value (str key))
  device.value (str "type") = str "proxy" && device.value (str "bind") ≠ str "instance"
    && (starts "listen" (str "udp:") || starts "connect" (str "udp:")
      || ((device.value (str "nat") = str "true" || starts "connect" (str "tcp:" ++ b.ipv4 ++ [58]))
        && (starts "listen" (str "tcp:") || starts "connect" (str "tcp:"))))

/-- The yard with the contracts of the routes that were approved for it. -/
def applyApprovedBootIngress (p : Policy) (y : ObservedYard) : Except Fault ObservedYard :=
  match p.bindings.reverse.find? (·.yard = y.yard) with
  | none => pure y
  | some b => do
      let routes := b.approvedIngress
      let devices := y.instanceInfo.devices
      let y ← routes.foldlM (checkApprovedRoute b) y
      refuse ((devices.device Preview.deviceName).value (str "nat") = str "true"
          ∧ Preview.deviceName ∉ routes.map (·.device))
        (.notConverged (str "unapproved static preview ingress in yard " ++ y.yard.name))
      refuse (routes ≠ [] ∧ ∃ entry ∈ devices.sorted,
          hostIngress b entry.2 ∧ entry.1 ∉ routes.map (·.device))
        (.notConverged (str "unapproved host ingress proxy in yard " ++ y.yard.name))
      pure y

/-! ### Plans -/

/-- One yard of `mergeYards`, which keeps the yards by their names. -/
def mergeYard (differs : Fault) (merged : List Yard) (y : Yard) : Except Fault (List Yard) :=
  match merged.find? (·.name = y.name) with
  | some old => do
      refuse (old ≠ y) differs
      pure merged
  | none => pure (merged ++ [y])

/-- The registered yards and those that are bound, in the order of their names. -/
def mergeYards (yards : List Yard) (p : Policy) : Except Fault (List Yard) := do
  let merged ← yards.foldlM (fun merged y => do
    refuse (¬ safeName y.name ∨ ¬ safeName y.project ∨ ¬ safeName y.inst ∨ ¬ safeName y.network)
      (fault "invalid local yard network identity")
    mergeYard (fault "ambiguous local yard name") merged y) []
  let merged ← p.bindings.foldlM (fun merged b =>
    mergeYard (yardFault b.yard.name " registration differs from its network binding") merged b.yard)
    merged
  pure (merged.insertionSort fun a b => a.name ≤ b.name)

section Service

variable (size : Policy → ℕ)

abbrev Work := Code Op Op.Reply Fault

def call (op : Op) : Work op.Answer := .act op fun reply => Code.lift reply

/-- A call whose error is put into a text of its own. -/
def callAs (op : Op) (before after : Bytes) : Work op.Answer :=
  .act op fun reply => Code.lift (reply.mapError (·.within before after))

/-- A plan for the yards.  With `boot` the routes are those that were approved before. -/
def prepare (boot : Bool) (yards : List Yard) (change : Change) : Work Plan := do
  let stored ← call .readPolicy
  let yards ← Code.lift (mergeYards yards stored.policy)
  let snapshot ← call (.inspectNetwork yards)
  let observed ← Code.lift (if boot then snapshot.yards.mapM (applyApprovedBootIngress stored.policy)
    else pure snapshot.yards)
  Code.lift (buildPlan size stored { snapshot with yards := observed } change)

def observe (yard : Yard) : Work ObservedYard := do
  let snapshot ← call (.inspectNetwork [yard])
  match snapshot.yards.find? (·.yard = yard) with
  | some observed => do
      Code.lift (validateACLOwner observed)
      pure observed
  | none => .fail (fault "network observation omitted target yard")

/-! ### The application of a plan -/

/-- The policy that is stored first: the yards that will be stopped are to be started again. -/
def Plan.intent (plan : Plan) : Policy :=
  if plan.physical then
    { plan.policy with pendingStart :=
        (plan.updates.foldl (fun pending u =>
          if u.yard.Running ∧ u.yard.yard.name ∉ pending then pending ++ [u.yard.yard.name]
          else pending) plan.policy.pendingStart).insertionSort (· ≤ ·) }
  else plan.policy

/-- The policy that is stored once the host agrees with it. -/
def Policy.settle (p : Policy) : Policy :=
  let q := p.removing.foldl Policy.forget
    { p with appliedRevision := p.revision, appliedIsolation := p.isolation }
  { q with removing := [], bindings := if p.isolation then q.bindings else [] }

def stopYard (u : Update) : Work Unit :=
  Code.when (u.yard.instanceFound ∧ ¬ equalFold u.yard.instanceInfo.status (str "stopped")) do
    callAs (.networkPower u.yard.yard false)
      (str "stop " ++ u.yard.yard.name ++ str " before changing network policy: ")
      (str "; run yard network reconcile")
    let observed ← observe u.yard.yard
    Code.refuse (¬ equalFold observed.instanceInfo.status (str "stopped"))
      (fault "network stop postcondition failed")

/-- An access list in use cannot be changed. -/
def detach (u : Update) : Work Unit := do
  let observed ← observe u.yard.yard
  Code.when (observed.nic.value aclKey ≠ [])
    (call (.writeProfileNIC u.yard.yard (Finmap.erase aclKey observed.nic)))

def writeSettings (u : Update) : Work Unit := do
  let observed ← observe u.yard.yard
  Code.when (¬ u.removeACL)
    (call (.writeNetworkACL u.yard.yard
      { u.acl with exists? := observed.acl.exists?, etag := observed.acl.etag }))
  Code.when (observed.projectFound ∧ observed.access ≠ u.access)
    (call (.writeProjectNetworks u.yard.yard u.access))
  Code.when (observed.profileFound ∧ observed.nic ≠ u.nic)
    (call (.writeProfileNIC u.yard.yard u.nic))
  Code.when (u.removeACL ∧ observed.acl.exists?)
    (call (.deleteNetworkACL u.yard.yard))

/-- The guard after a start; the yard is stopped again if it fails. -/
def guardStarted (target : Yard) : Work Unit :=
  .act .guard fun
    | .ok _ => .ret ()
    | .error e => .act (.networkPower target false) fun _ => .fail e

/-- Start the yards that are pending, one after the other. -/
def restart (yards : List Yard) (p : Policy) : List Bytes → Work Unit
  | [] => .ret ()
  | name :: rest =>
      match yards.find? (·.name = name) with
      | none => .fail (.plain (str "pending yard " ++ name ++ str " is not registered"))
      | some target => do
          call .guard
          let observed ← observe target
          Code.when (¬ equalFold observed.instanceInfo.status (str "running"))
            (callAs (.networkPower target true) (str "restart " ++ name ++ str ": ")
              (str "; run yard network reconcile"))
          let verified ← observe target
          Code.refuse (¬ equalFold verified.instanceInfo.status (str "running"))
            (fault "network restart postcondition failed")
          guardStarted target
          call (.writePolicy { p with pendingStart := rest })
          restart yards p rest

/-- The calls that change the settings of the yards. -/
def applyUpdates (updates : List Update) : Work Unit := do
  updates.forM stopYard
  updates.forM detach
  updates.forM writeSettings

def applyLocked (plan : Plan) : Work Unit := do
  Code.when (plan.physical ∧ ∃ u ∈ plan.updates, u.yard.instanceFound) (call .guard)
  call (.writePolicy plan.intent)
  Code.when plan.physical (applyUpdates plan.updates)
  let verification ← prepare size false plan.yards {}
  Code.refuse verification.physical
    (.notConverged (str "applied network settings differ from the plan"))
  call (.writePolicy plan.intent.settle)
  restart plan.yards plan.intent.settle plan.intent.settle.pendingStart

/-! ### Approval -/

/-- The part of a policy that is asked for. -/
def normalizedDesiredPolicy (p : Policy) : Policy :=
  { p with
    revision := 0, appliedRevision := 0, appliedIsolation := false, pendingStart := []
    removing := [], bindings := if p.isolation then p.bindings else [] }

/-- The devices without the settings that isolation owns. -/
def eraseOwned (devices : Devices) : Devices :=
  match devices.lookup eth0 with
  | some nic => Finmap.insert eth0 (ownedKeys.foldl (fun nic key => Finmap.erase key nic) nic) devices
  | none => devices

/-- What must not have changed of a yard.  The digest of it is compared. -/
def networkYardGuard (y : ObservedYard) : ObservedYard :=
  { y with
    projectETag := [], profileETag := [], acl := { name := [] }
    projectConfig := Finmap.erase accessKey y.projectConfig
    profileDevices := eraseOwned y.profileDevices
    instanceInfo := { y.instanceInfo with devices := eraseOwned y.instanceInfo.devices } }

/-- Every setting that is different from before is as desired. -/
def networkMapConverges (before fresh desired : Settings) : Bool :=
  (before.sorted ++ fresh.sorted).all fun entry =>
    before.lookup entry.1 = fresh.lookup entry.1 || fresh.lookup entry.1 = desired.lookup entry.1

namespace Plan

/-- What the plan has observed of a yard. -/
def observation (plan : Plan) (yard : Yard) : Option ObservedYard :=
  plan.snapshot.yards.reverse.find? (·.yard = yard)

/-- What the plan allows for a yard. -/
def allowed (plan : Plan) (yard : Yard) : Option Update :=
  plan.updates.reverse.find? (·.yard.yard = yard)

end Plan

def stale (detail : String) : Fault := .stale (str detail)

/-- The settings of a yard that have changed since are as the update has them. -/
def checkConverging (old y : ObservedYard) (u : Update) : Except Fault Unit := do
  refuse (¬ networkMapConverges old.nic y.nic u.nic
      ∨ ¬ networkMapConverges (old.instanceInfo.devices.device eth0)
        (y.instanceInfo.devices.device eth0) u.nic
      ∨ (old.access ≠ y.access ∧ y.access ≠ u.access))
    (stale "native network fields changed outside approved convergence")
  let aclChanged := old.acl.exists? ≠ y.acl.exists? ∨ old.acl.config ≠ y.acl.config
    ∨ old.acl.ingress ≠ y.acl.ingress ∨ old.acl.egress ≠ y.acl.egress
  refuse (aclChanged ∧ ¬ (¬ y.acl.exists? ∧ u.removeACL) ∧ ¬ sameACL y.acl u.acl)
    (stale "native network ACL changed outside approved convergence")
  refuse (¬ aclChanged ∧ old.acl.etag ≠ y.acl.etag)
    (stale "native ACL revision changed without approved convergence")

def checkYard (approved : Plan) (y : ObservedYard) : Except Fault Unit :=
  match approved.observation y.yard with
  | none => .error (stale "network yard ownership changed")
  | some old => do
      refuse (networkYardGuard old ≠ networkYardGuard y) (stale "network yard ownership changed")
      (approved.allowed y.yard).elim (pure ()) (checkConverging old y)
      refuse ((old.profileDevices = y.profileDevices ∧ old.profileETag ≠ y.profileETag)
          ∨ (old.projectConfig = y.projectConfig ∧ old.projectETag ≠ y.projectETag))
        (stale "native network target revision changed without approved convergence")

/-- The same work on a yard. -/
def Update.Same (u v : Update) : Prop :=
  u.access = v.access ∧ u.removeACL = v.removeACL ∧ u.nic = v.nic ∧ u.acl.config = v.acl.config
    ∧ u.acl.ingress = v.acl.ingress ∧ u.acl.egress = v.acl.egress

instance (u v : Update) : Decidable (u.Same v) := inferInstanceAs (Decidable (_ ∧ _))

def checkUpdate (approved : Plan) (u : Update) : Except Fault Unit :=
  match approved.allowed u.yard.yard with
  | none => .error (stale "network target needs unapproved work")
  | some old => refuse (¬ old.Same u) (stale "network target needs unapproved work")

def checkApproved (approved fresh : Plan) : Except Fault Unit :=
  if approved.fingerprint = fresh.fingerprint then pure ()
  else do
    refuse (¬ approved.changed) (stale "converged network observation changed")
    refuse (approved.yards ≠ fresh.yards
        ∨ normalizedDesiredPolicy approved.policy ≠ normalizedDesiredPolicy fresh.policy)
      (stale "network desired policy or yard set changed")
    refuse (approved.snapshot.firewall ≠ fresh.snapshot.firewall
        ∨ approved.snapshot.clustered ≠ fresh.snapshot.clustered
        ∨ approved.snapshot.networks ≠ fresh.snapshot.networks
        ∨ approved.snapshot.reservationClaims ≠ fresh.snapshot.reservationClaims)
      (stale "network infrastructure or address ownership changed")
    fresh.snapshot.yards.forM (checkYard approved)
    fresh.updates.forM (checkUpdate approved)

end Service

end Subyard.YardNetwork
