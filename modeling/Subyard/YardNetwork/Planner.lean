import Subyard.YardNetwork.Policy

/-!
The planner of the yard network: what has to change on the host for a policy to hold there.

* `Snapshot`, `ObservedYard`: what is observed of the host.
* `approvedPublicIngress`, `ownedPublicIngressRules`: the routes into a yard that its access list
  allows.
* `planBindings`: the addresses of the yards, kept or chosen.
* `Policy.desired`: the settings a bound yard should have.
* `buildPlan`: the plan, or the reason why there is none.
-/

namespace Subyard.YardNetwork

open Text Fallible Ipv4

/-! ### Observations -/

structure Rule where
  action : Bytes
  state : Bytes
  source : Bytes := []
  destination : Bytes := []
  protocol : Bytes := []
  destinationPort : Bytes := []
deriving DecidableEq

/-- An access list.  One that does not exist has a name only. -/
structure ACL where
  name : Bytes
  exists? : Bool := false
  etag : Bytes := []
  config : Settings := ∅
  ingress : List Rule := []
  egress : List Rule := []
deriving DecidableEq

inductive YardKind
  | container
  | vm
  | other (text : Bytes)
deriving DecidableEq

/-- Devices by their names. -/
abbrev Devices := Dict Bytes Settings

/-- The settings of a device; one that is absent has none. -/
def Devices.device (devices : Devices) (name : Bytes) : Settings := Dict.getD devices name ∅

/-- `InstanceInfo`: the expanded devices, and those set on the instance itself. -/
structure InstanceInfo where
  name : Bytes := []
  project : Bytes := []
  kind : YardKind := .other []
  status : Bytes := []
  config : Settings := ∅
  devices : Devices := ∅
  localConfig : Settings := ∅
  localDevices : Devices := ∅
deriving DecidableEq

inductive ProxyAddressPolicy
  | tailscaleOnly
  | loopbackOrTailscale
  | ownerIPv4UDP
  | ownerIPv4TCP
  | other (text : Bytes)
deriving DecidableEq

/-- A proxy that a profile may own, as far as the planner reads it. -/
structure ProxyContract where
  profile : Bytes
  resource : Bytes
  device : Bytes
  connect : Bytes
  addressPolicy : ProxyAddressPolicy
  ownershipMetadata : Bool
deriving DecidableEq

structure ObservedYard where
  yard : Yard
  ingressContracts : List ProxyContract := []
  projectFound : Bool := false
  projectETag : Bytes := []
  projectConfig : Settings := ∅
  profileFound : Bool := false
  profileETag : Bytes := []
  profileDevices : Devices := ∅
  profileUsedBy : List Bytes := []
  instanceFound : Bool := false
  instanceInfo : InstanceInfo := {}
  ipv4 : Bytes := []
  mac : Bytes := []
  acl : ACL
deriving DecidableEq

structure Network where
  name : Bytes := []
  type : Bytes := []
  managed : Bool := false
  config : Settings := ∅
deriving DecidableEq

structure ReservationClaim where
  project : Bytes
  inst : Bytes := []
  profile : Bytes := []
  mac : Bytes := []
deriving DecidableEq

structure Snapshot where
  firewall : Bytes
  clustered : Bool := false
  yards : List ObservedYard
  networks : Dict Bytes Network
  reservationClaims : Dict Bytes (Dict Bytes (List ReservationClaim)) := ∅
deriving DecidableEq

/-- The network with a name; one that is absent has no settings. -/
def Snapshot.network (s : Snapshot) (name : Bytes) : Network := Dict.getD s.networks name {}

/-- The claims on an address of a network. -/
def Snapshot.claims (s : Snapshot) (network ip : Bytes) : List ReservationClaim :=
  Dict.getD (Dict.getD s.reservationClaims network ∅) ip []

/-- The policy as it was read, with the revision of its place. -/
structure StoredPolicy where
  policy : Policy
  etag : Bytes := []
deriving DecidableEq

def aclName (yard : Yard) : Bytes :=
  str "subyard-yard-"
    ++ hex ((Sha256.sum256 (yard.project ++ [47] ++ yard.inst)).take 10)

abbrev eth0 : Bytes := str "eth0"

/-- The setting of a project that names the networks its yards may use. -/
abbrev accessKey : Bytes := str "restricted.networks.access"

abbrev aclKey : Bytes := str "security.acls"

abbrev addressKey : Bytes := str "ipv4.address"

namespace ObservedYard

/-- The network device of the default profile. -/
def nic (y : ObservedYard) : Settings := y.profileDevices.device eth0

def access (y : ObservedYard) : Bytes := y.projectConfig.value accessKey

end ObservedYard

/-! ### Owned routes -/

/-- The value without a text it begins with. -/
def cut (start value : Bytes) : Option Bytes :=
  if start.isPrefixOf value then some (value.drop start.length) else none

/-- The text before the first colon, and the text after it if there is one. -/
def cutColon (value : Bytes) : Bytes × Option Bytes :=
  (value.takeWhile (· ≠ 58), if 58 ∈ value then some ((value.dropWhile (· ≠ 58)).drop 1) else none)

/-- The number of a text without superfluous zeros. -/
def plainNumber (text : Bytes) : Option ℕ := (parseDigits text).filter (decimal · = text)

namespace ProxyContract

def ownershipKey (contract : ProxyContract) : Bytes :=
  str "user.subyard.resource." ++ contract.device

/-- The protocol and the guest port; `host-port` follows the port of the owner. -/
def guestEndpoint (contract : ProxyContract) (hostPort : ℕ) : Option (Bytes × ℕ) :=
  let endpoint (protocol : Bytes) : Option (Bytes × ℕ) :=
    (cut (protocol ++ str ":guest:") contract.connect).bind fun text =>
      ((if text = str "host-port" then some hostPort else plainNumber text).filter
        fun port => 1 ≤ port ∧ port ≤ 65535).map fun port => (protocol, port)
  match contract.addressPolicy with
  | .ownerIPv4UDP => endpoint (str "udp")
  | .ownerIPv4TCP => endpoint (str "tcp")
  | _ => none

end ProxyContract

/-- The mark of a device that a resource owns: a digest of all its settings. -/
def ownershipValue (device : Settings) : Bytes :=
  str "v1:" ++ hex (Sha256.sum256
    (str "v1\n" ++ device.sorted.flatMap fun entry => entry.1 ++ [61] ++ entry.2 ++ [10]))

namespace Preview

abbrev key : Bytes := str "user.subyard.preview_proxy"

abbrev deviceName : Bytes := str "subyard-preview"

/-- The device of a preview route; without a guest address it goes to the loopback of the yard. -/
def device (host port guest : Bytes) : Settings :=
  if guest = [] then
    ((((∅ : Settings).insert (str "type") (str "proxy")).insert (str "bind") (str "host")).insert
      (str "listen") (str "tcp:" ++ host ++ [58] ++ port)).insert (str "connect")
        (str "tcp:127.0.0.1:8765")
  else
    (((((∅ : Settings).insert (str "type") (str "proxy")).insert (str "bind") (str "host")).insert
      (str "listen") (str "tcp:" ++ host ++ [58] ++ port)).insert (str "nat") (str "true")).insert
        (str "connect") (str "tcp:" ++ guest ++ str ":8765")

/-- The private addresses and those of the Tailscale network. -/
def address (host : Bytes) : Bool :=
  (parseAddr host).any fun address => address.isPrivate || address.lead 10 = 100 * 4 + 1

/-- The host, the port and whether the route is ready, if the mark describes the device. -/
def owned (marker : Bytes) (current : Settings) : Option (Bytes × Bytes × Bool) :=
  match cutColon marker with
  | (_, none) => none
  | (version, some value) =>
      let pending := (str "pending:").isPrefixOf value
      let value := (cut (str "pending:") value).getD value
      let result (host port guest : Bytes) : Option (Bytes × Bytes × Bool) :=
        if address host ∧ (plainNumber port).any (fun n => 1024 ≤ n && n ≤ 65535)
            ∧ current = device host port guest
        then some (host, port, !pending) else none
      if version = str "v1" then
        match value.splitOn 58 with
        | [host, port] => result host port []
        | _ => none
      else if version = str "v2" then
        match value.splitOn 58 with
        | [host, port, guest] =>
            if (parseAddr guest).any (·.isPrivate) then result host port guest else none
        | _ => none
      else none

end Preview

def ownedPreviewIngress (y : ObservedYard) (b : Binding) : Bool :=
  let device := y.instanceInfo.devices.device Preview.deviceName
  match Preview.owned (y.instanceInfo.localConfig.value Preview.key) device with
  | none => false
  | some (host, port, ready) =>
      y.instanceFound && y.instanceInfo.kind = .vm && ready
        && (y.instanceInfo.devices.device eth0).value addressKey = b.ipv4
        && device = y.instanceInfo.localDevices.device Preview.deviceName
        && device = Preview.device host port b.ipv4

def ownedPublicIngress (y : ObservedYard) (b : Binding) (contract : ProxyContract)
    (protocol : Bytes) (guestPort : ℕ) : Bool :=
  let device := y.instanceInfo.localDevices.device contract.device
  device.keys = {str "type", str "listen", str "connect", str "nat", str "bind"}
    && device.value (str "type") = str "proxy" && device.value (str "nat") = str "true"
    && device.value (str "bind") = str "host"
    && device.value (str "connect") = protocol ++ [58] ++ b.ipv4 ++ [58] ++ decimal guestPort
    && device = y.instanceInfo.devices.device contract.device
    && ((cut (protocol ++ [58]) (device.value (str "listen"))).bind parseAddrPort).any
      (fun endpoint => explicitOwnerIPv4 endpoint.1 && endpoint.2 ≠ 0
        && device.value (str "listen") = protocol ++ [58] ++ addrPortText endpoint)
    && y.instanceInfo.localConfig.value contract.ownershipKey = ownershipValue device

/-- The route of a contract, if the yard owns it. -/
def contractIngress (y : ObservedYard) (b : Binding) (contract : ProxyContract) :
    Option ApprovedIngress :=
  let device := y.instanceInfo.localDevices.device contract.device
  let listen := device.value (str "listen")
  match (cutColon listen).2.bind parseAddrPort with
  | none => none
  | some endpoint =>
      match contract.guestEndpoint endpoint.2 with
      | none => none
      | some (protocol, guestPort) =>
          if (cutColon listen).1 = protocol ∧ contract.ownershipMetadata ∧ contract.profile ≠ []
              ∧ contract.resource ≠ [] ∧ contract.device ≠ []
              ∧ ownedPublicIngress y b contract protocol guestPort
          then some
            { device := contract.device, listen := listen, guestPort := guestPort
              protocol := if protocol = str "udp" then [] else protocol }
          else none

def approvedPublicIngress (y : ObservedYard) (b : Binding) : List ApprovedIngress :=
  if !y.instanceFound || y.instanceInfo.kind ≠ .vm then []
  else
    let preview : List ApprovedIngress :=
      if ownedPreviewIngress y b then
        [{ device := Preview.deviceName, protocol := str "tcp", guestPort := 8765
           listen := (y.instanceInfo.devices.device Preview.deviceName).value (str "listen") }]
      else []
    if y.yard.name = [] || y.yard.name = str "default" then preview
    else ApprovedIngress.sort (preview ++ y.ingressContracts.filterMap (contractIngress y b))

/-- The rule that lets a route in. -/
def ApprovedIngress.rule (approved : ApprovedIngress) : Rule :=
  { action := str "allow", state := str "enabled", protocol := approved.transport
    destinationPort := decimal approved.guestPort }

/-- Take out the elements in the order in which they stand in the second list, then the others. -/
def inOrder {α : Type} [DecidableEq α] (rules : List α) : List α → List α
  | [] => rules
  | current :: rest =>
      if current ∈ rules then current :: inOrder (rules.erase current) rest
      else inOrder rules rest

/-- The first occurrences. -/
def distinct {α : Type} [DecidableEq α] (l : List α) : List α :=
  l.foldl (fun acc x => if x ∈ acc then acc else acc ++ [x]) []

/-- The rules of the owned routes.  Rules that are already there keep their order. -/
def ownedPublicIngressRules (y : ObservedYard) (b : Binding) : List Rule :=
  inOrder (distinct ((approvedPublicIngress y b).map ApprovedIngress.rule)) y.acl.ingress

/-! ### Checks of a yard -/

def sameACL (a b : ACL) : Bool :=
  a.exists? && a.config = b.config && a.ingress = b.ingress && a.egress = b.egress

def bridgePrefix (n : Network) : Except Fault Block :=
  let failure := fault "isolation needs a managed IPv4 bridge with DHCP and usable addresses"
  match parsePrefix (n.config.value addressKey) with
  | none => .error failure
  | some block => do
      refuse (¬ n.managed ∨ n.type ≠ str "bridge" ∨ 29 < block.bits
        ∨ n.config.value (str "ipv4.dhcp") = str "false") failure
      pure block

def validateACLOwner (y : ObservedYard) : Except Fault Unit :=
  refuse (y.acl.exists? ∧ (y.acl.config.value (str "user.subyard.managed") ≠ str "true"
      ∨ y.acl.config.value (str "user.subyard.yard") ≠ y.yard.name))
    (yardFault y.yard.name " ACL name is owned by another policy")

/-- The settings of a network device that isolation owns. -/
def ownedKeys : List Bytes :=
  [str "name", str "hwaddr", addressKey, str "security.mac_filtering",
    str "security.ipv4_filtering", aclKey, str "security.acls.default.ingress.action",
    str "security.acls.default.egress.action"]

/-- No other instance uses the profile. -/
def ownUser (y : ObservedYard) (user : Bytes) : Bool :=
  decide (str "/instances/" ++ y.yard.inst ++ [63] <:+: user)
    || decide (str "/instances/" ++ y.yard.inst <:+ user)

/-- Outside the owned settings each of one map is in the other; one that is absent is empty there. -/
def carries (a b : Settings) : Prop :=
  ∀ entry ∈ a.sorted, entry.1 ∉ ownedKeys → b.value entry.1 = entry.2

instance (a b : Settings) : Decidable (carries a b) :=
  inferInstanceAs (Decidable (∀ entry ∈ a.sorted, entry.1 ∉ ownedKeys → b.value entry.1 = entry.2))

def validateYard (y : ObservedYard) (b : Binding) : Except Fault Unit := do
  refuse (y.projectConfig.value (str "restricted") ≠ str "true")
    (yardFault y.yard.name " must use a restricted project")
  refuse (y.nic.value (str "type") ≠ str "nic" ∨ y.nic.value (str "network") ≠ y.yard.network
      ∨ (y.nic.value (str "name") ≠ [] ∧ y.nic.value (str "name") ≠ eth0))
    (yardFault y.yard.name " has an unsupported primary NIC")
  refuse (∃ entry ∈ y.profileDevices.sorted,
      entry.2.value (str "type") = str "nic" ∧ entry.1 ≠ eth0)
    (yardFault y.yard.name " has an extra profile NIC")
  refuse (∃ entry ∈ y.instanceInfo.localDevices.sorted,
      entry.1 = eth0 ∨ entry.2.value (str "type") = str "nic")
    (yardFault y.yard.name " has a local NIC override")
  refuse (∃ entry ∈ y.instanceInfo.devices.sorted,
      entry.2.value (str "type") = str "nic" ∧ entry.1 ≠ eth0)
    (yardFault y.yard.name " has an extra expanded NIC")
  validateACLOwner y
  refuse (y.nic.value aclKey ≠ [] ∧ y.nic.value aclKey ≠ aclName y.yard)
    (yardFault y.yard.name " has foreign NIC ACLs")
  refuse (∃ user ∈ y.profileUsedBy, ¬ ownUser y user)
    (yardFault y.yard.name " profile is shared with another instance")
  refuse (¬ carries y.nic b.originalNIC ∨ ¬ carries b.originalNIC y.nic)
    (yardFault y.yard.name
      " profile changed outside its recorded policy; restore it before reconciling")

/-! ### Bindings -/

/-- The binding of a name. -/
def bound (bindings : List Binding) (name : Bytes) : Option Binding :=
  bindings.find? (·.yard.name = name)

/-- An address that somebody claims or that is bound. -/
def reserved (s : Snapshot) (bindings : List Binding) (network ip : Bytes) : Bool :=
  ip ∈ (Dict.getD s.reservationClaims network ∅).keys
    || bindings.any fun b => b.yard.network = network && b.ipv4 = ip

/-- The first address from `candidate` on that can be given to a yard. -/
def freeAddress (block : Block) (taken : Bytes → Bool) : ℕ → Option Addr → Bytes
  | 0, _ => []
  | _, none => []
  | n + 1, some candidate =>
      if ¬ block.Contains candidate then []
      else if candidate ≠ block.addr ∧ ¬ taken candidate.text ∧ block.ContainsNext candidate
      then candidate.text
      else freeAddress block taken n candidate.next

/-- The hardware address of a yard that has none. -/
def defaultMAC (yard : Yard) : Bytes :=
  macText (2 :: (Sha256.sum256 (yard.project ++ [47] ++ yard.inst)).take 5)

/-- The text, or another one if it is empty. -/
def orElse (text other : Bytes) : Bytes := if text = [] then other else text

/-- The binding of a yard that has none. -/
def newBinding (s : Snapshot) (bindings : List Binding) (y : ObservedYard) :
    Except Fault Binding := do
  let block ← (bridgePrefix (s.network y.yard.network)).mapError fun _ =>
    yardFault y.yard.name " needs a managed IPv4 bridge with DHCP and usable addresses"
  refuse (¬ y.profileFound) (yardFault y.yard.name " default profile is missing")
  refuse (y.nic.value aclKey ≠ []) (yardFault y.yard.name " has foreign NIC ACLs")
  let ip := orElse (y.nic.value addressKey) <| orElse y.ipv4 <|
    freeAddress block (reserved s bindings y.yard.network) 65536 block.first.next
  refuse (¬ (parseAddr ip).any fun address => block.Usable address)
    (yardFault y.yard.name " has no usable fixed IPv4 address")
  let mac := orElse (y.nic.value (str "hwaddr")) <| orElse y.mac <| defaultMAC y.yard
  refuse (¬ (parseMAC mac).any isUnicast)
    (yardFault y.yard.name " has an invalid NIC MAC address")
  let b : Binding :=
    { yard := y.yard, ipv4 := ip, mac := toLower mac, originalNIC := y.nic
      originalAccess := y.access }
  let b := { b with approvedIngress := approvedPublicIngress y b }
  validateYard y b
  match bindings.find? fun other =>
      other.yard.network = y.yard.network && (other.ipv4 = b.ipv4 || other.mac = b.mac) with
  | some other => .error (.plain (str "yard " ++ y.yard.name
      ++ str " network identity collides with " ++ other.yard.name))
  | none => pure b

/-- The routes of the binding of a yard, as they are now. -/
def approve (yard : Yard) (routes : List ApprovedIngress) : List Binding → List Binding
  | [] => []
  | b :: rest =>
      if b.yard = yard then { b with approvedIngress := routes } :: rest
      else b :: approve yard routes rest

/-- One yard of the loop of `planBindings`; `p` is the policy before the loop. -/
def bindYard (p : Policy) (s : Snapshot) (bindings : List Binding) (y : ObservedYard) :
    Except Fault (List Binding) := do
  refuse (p.isolation ∧ y.yard.name ∉ p.removing
      ∧ y.projectConfig.value (str "features.networks") = str "true")
    (yardFault y.yard.name " must use the default project's managed bridge namespace")
  match bound p.bindings y.yard.name with
  | some b => do
      refuse (b.yard ≠ y.yard) (yardFault y.yard.name
        " identity changed; reconcile its registration before changing isolation")
      if p.isolation ∧ y.yard.name ∉ p.removing then do
        let block ← (bridgePrefix (s.network y.yard.network)).mapError fun _ =>
          yardFault y.yard.name
            ": isolation needs a managed IPv4 bridge with DHCP and usable addresses"
        refuse (¬ (parseAddr b.ipv4).any fun address => block.Usable address)
          (yardFault y.yard.name " fixed IPv4 no longer belongs to its bridge")
      pure (approve y.yard (approvedPublicIngress y b) bindings)
  | none =>
      if p.isolation ∧ y.projectFound then do
        let b ← newBinding s bindings y
        pure (bindings ++ [b])
      else pure bindings

def planBindings (p : Policy) (s : Snapshot) : Except Fault (List Binding) := do
  let bindings ← s.yards.foldlM (bindYard p s) p.bindings
  pure (Binding.sort bindings)

/-! ### Desired settings -/

structure Update where
  yard : ObservedYard
  nic : Settings
  access : Bytes
  acl : ACL
  removeACL : Bool
deriving DecidableEq

/-- The settings of an isolated network device. -/
def pins (yard : Yard) (b : Binding) : List (Bytes × Bytes) :=
  [(str "name", eth0), (str "hwaddr", b.mac), (addressKey, b.ipv4),
    (str "security.mac_filtering", str "true"), (str "security.ipv4_filtering", str "true"),
    (aclKey, aclName yard), (str "security.acls.default.ingress.action", str "drop"),
    (str "security.acls.default.egress.action", str "allow")]

def pinned (yard : Yard) (b : Binding) : Settings :=
  (pins yard b).foldl (fun nic pin => Finmap.insert pin.1 pin.2 nic) b.originalNIC

/-- The rule for everything that an address sends. -/
def sourceRule (ip : Bytes) : Rule :=
  { action := str "allow", state := str "enabled", source := ip ++ str "/32" }

/-- The rule for the gateway, which reaches the yard by SSH only. -/
def gatewayRule (n : Network) : Rule :=
  { sourceRule (((parsePrefix (n.config.value addressKey)).map (·.addr.text)).getD
      (str "invalid IP")) with
    protocol := str "tcp", destinationPort := str "22" }

def managedConfig (name : Bytes) : Settings :=
  ((∅ : Settings).insert (str "user.subyard.managed") (str "true")).insert
    (str "user.subyard.yard") name

namespace Policy

/-- The yard is to be isolated. -/
def Isolates (p : Policy) (y : ObservedYard) : Prop := p.isolation ∧ y.yard.name ∉ p.removing

instance (p : Policy) (y : ObservedYard) : Decidable (p.Isolates y) :=
  inferInstanceAs (Decidable (_ ∧ _))

/-- The rules of an isolated yard: its peers, its own routes and the gateway. -/
def ingress (p : Policy) (s : Snapshot) (y : ObservedYard) (b : Binding) : List Rule :=
  ((p.peers y.yard.name).filterMap fun peer =>
      (bound p.bindings peer).map fun other => sourceRule other.ipv4)
    ++ ownedPublicIngressRules y b ++ [gatewayRule (s.network y.yard.network)]

/-- The settings a bound yard should have. -/
def desired (p : Policy) (s : Snapshot) (y : ObservedYard) (b : Binding) : Update :=
  if p.Isolates y then
    { yard := y, nic := pinned y.yard b, access := y.yard.network, removeACL := false
      acl := { y.acl with
        name := aclName y.yard, config := managedConfig y.yard.name
        ingress := p.ingress s y b
        egress := [{ action := str "allow", state := str "enabled" }] } }
  else
    { yard := y, nic := b.originalNIC, access := b.originalAccess, acl := y.acl
      removeACL := true }

end Policy

/-- The yard does not have the settings yet. -/
def Update.Differs (u : Update) (y : ObservedYard) : Prop :=
  (y.profileFound ∧ y.nic ≠ u.nic) ∨ (y.projectFound ∧ y.access ≠ u.access)
    ∨ (¬ u.removeACL ∧ ¬ sameACL y.acl u.acl) ∨ (u.removeACL ∧ y.acl.exists?)

instance (u : Update) (y : ObservedYard) : Decidable (u.Differs y) :=
  inferInstanceAs (Decidable (_ ∨ _ ∨ _ ∨ _))

/-- The checks of a bound yard, and the change it needs if there is one. -/
def planUpdate (p : Policy) (s : Snapshot) (y : ObservedYard) : Except Fault (Option Update) :=
  match bound p.bindings y.yard.name with
  | none => pure none
  | some b => do
      validateACLOwner y
      refuse (y.yard.name ∈ p.removing ∧ y.instanceFound)
        (yardFault y.yard.name " teardown is incomplete")
      refuse ((¬ y.projectFound ∨ ¬ y.profileFound) ∧ y.yard.name ∉ p.removing)
        (yardFault y.yard.name " is missing its project/profile; restore it or complete teardown")
      if y.profileFound then validateYard y b
      pure (if (p.desired s y b).Differs y then some (p.desired s y b) else none)

/-- The claim is one of the yard itself. -/
def ReservationClaim.Own (claim : ReservationClaim) (b : Binding) : Prop :=
  claim.project = b.yard.project ∧ (claim.inst = b.yard.inst
    ∨ (claim.inst = [] ∧ claim.profile = str "default")
    ∨ (claim.inst = [] ∧ claim.profile = [] ∧ claim.mac = b.mac))

instance (claim : ReservationClaim) (b : Binding) : Decidable (claim.Own b) :=
  inferInstanceAs (Decidable (_ ∧ _))

/-- One binding of the check that all isolated yards share a bridge; `bridge` is empty before the
first one. -/
def checkBridge (p : Policy) (s : Snapshot) (bridge : Bytes) (b : Binding) : Except Fault Bytes := do
  if b.yard.name ∈ p.removing then pure bridge
  else
    refuse (bridge ≠ [] ∧ bridge ≠ b.yard.network)
      (fault "yard isolation requires all yards on the same managed bridge")
    refuse (∃ claim ∈ s.claims b.yard.network b.ipv4,
        ¬ claim.Own b ∨ (claim.mac ≠ [] ∧ claim.mac ≠ b.mac))
      (yardFault b.yard.name " fixed IPv4 is reserved by another network identity")
    pure b.yard.network

/-! ### The plan -/

structure Change where
  link : Option Link := none
  unlink : Option Link := none
  isolation : Option Bool := none
deriving DecidableEq

/-- What the fingerprint of a plan is the digest of. -/
structure Fingerprint where
  stored : StoredPolicy
  snapshot : Snapshot
  change : Change
deriving DecidableEq

structure Plan where
  before : StoredPolicy
  policy : Policy
  updates : List Update
  changed : Bool
  physical : Bool
  fingerprint : Fingerprint
  change : Change
  yards : List Yard
  snapshot : Snapshot
deriving DecidableEq

/-- The policy with the changes that were asked for, and without the links of yards that are being
removed. -/
def Policy.amend (p : Policy) (change : Change) : Except Fault Policy := do
  let p ← change.link.elim (pure p) fun link => p.link link.a link.b
  let p ← change.unlink.elim (pure p) fun link => p.unlink link.a link.b
  pure { p with
    isolation := change.isolation.getD p.isolation
    links := p.links.filter fun link => p.removing.all fun name => !link.touches name }

/-- The bindings of the policy and the changes its yards need. -/
def planYards (p : Policy) (s : Snapshot) : Except Fault (Policy × List Update) := do
  refuse (s.clustered ∨ s.firewall ≠ str "nftables")
    (fault "yard isolation requires a standalone Incus host using nftables")
  let bindings ← planBindings p s
  let p := { p with bindings := bindings }
  if p.isolation then
    let _ ← p.bindings.foldlM (checkBridge p s) []
  let updates ← s.yards.mapM (planUpdate p s)
  pure (p, updates.reduceOption)

/-- Without isolation and without bindings nothing is planned for the yards. -/
def planAny (p : Policy) (s : Snapshot) : Except Fault (Policy × List Update) :=
  if p.isolation ∨ p.bindings ≠ [] then planYards p s else pure (p, [])

section Content

variable (size : Policy → ℕ)

def buildPlan (stored : StoredPolicy) (snapshot : Snapshot) (change : Change) :
    Except Fault Plan := do
  let content ← encode size stored.policy
  let p ← decode size content
  let known := snapshot.yards.map (·.yard.name)
  refuse (∃ link ∈ change.link.toList ++ change.unlink.toList, link.a ∉ known ∨ link.b ∉ known)
    (fault "both endpoints must be registered local yards")
  let p ← p.amend change
  let (p, updates) ← planAny p snapshot
  let encoded ← encode size p
  let physical : Bool := updates ≠ []
  let changed : Bool := physical || content ≠ encoded || p.appliedRevision ≠ p.revision
    || p.appliedIsolation ≠ p.isolation || p.pendingStart ≠ [] || p.removing ≠ []
  refuse (changed ∧ p.revision + 1 = 0) (fault "network policy revision exhausted")
  pure
    { before := stored, updates := updates, changed := changed, physical := physical
      policy := if changed then { p with revision := p.revision + 1 } else p
      fingerprint := ⟨stored, snapshot, change⟩, change := change
      yards := snapshot.yards.map (·.yard), snapshot := snapshot }

end Content

end Subyard.YardNetwork
