import Subyard.Config.Envfile
import Subyard.Library.Dict
import Subyard.Library.Ipv4
import Subyard.Library.Sha256

/-!
The host-wide network policy: the links between yards, and the settings that isolation has replaced.

* `Policy`, `Binding`, `Link`: what is stored.
* `Policy.link`, `Policy.unlink`, `Policy.forget`, `Policy.peers`: its operations.
* `Policy.normalize`: the checks of a policy and its normal form.
* `encode`, `decode`: the stored content.  It stands for the normal form it is the text of, and
  `size` is the length of that text.
-/

namespace Subyard.YardNetwork

open Text Fallible Ipv4
open Config (safeName)

/-! ### Failures -/

/-- An error: of its own, or one that wraps `ErrNotConverged` or `ErrPlanStale`. -/
inductive Fault
  | plain (text : Bytes)
  | notConverged (detail : Bytes)
  | stale (detail : Bytes)
deriving DecidableEq

def fault (text : String) : Fault := .plain (str text)

/-- The errors that name a yard first. -/
def yardFault (name : Bytes) (text : String) : Fault :=
  .plain (str "yard " ++ name ++ str text)

/-- The error within a longer text. -/
def Fault.within (before after : Bytes) : Fault → Fault
  | .plain text => .plain (before ++ text ++ after)
  | .notConverged detail => .notConverged detail
  | .stale detail => .stale detail

/-- The decimal text of a number with a sign. -/
def signed (n : ℤ) : Bytes := (if n < 0 then [45] else []) ++ decimal n.natAbs

/-! ### The policy -/

/-- A map from texts to texts, such as the settings of a device. -/
abbrev Settings := Dict Bytes Bytes

/-- The value of a setting; one that is absent is empty. -/
def Settings.value (s : Settings) (key : Bytes) : Bytes := Dict.getD s key []

structure Link where
  a : Bytes
  b : Bytes
deriving DecidableEq

/-- A resolved local instance. -/
structure Yard where
  name : Bytes
  project : Bytes
  inst : Bytes
  network : Bytes
deriving DecidableEq

/-- A route that the policy has allowed into a yard.  An empty protocol is that of older policies. -/
structure ApprovedIngress where
  device : Bytes
  protocol : Bytes := []
  listen : Bytes
  guestPort : ℕ
deriving DecidableEq

/-- The address of a yard, and the settings that isolation has replaced. -/
structure Binding where
  yard : Yard
  ipv4 : Bytes
  mac : Bytes
  originalNIC : Settings
  originalAccess : Bytes
  approvedIngress : List ApprovedIngress := []
deriving DecidableEq

structure Policy where
  schema : ℤ
  isolation : Bool := false
  links : List Link := []
  revision : UInt64 := 0
  appliedRevision : UInt64 := 0
  bindings : List Binding := []
  appliedIsolation : Bool := false
  pendingStart : List Bytes := []
  removing : List Bytes := []
deriving DecidableEq

def schemaVersion : ℤ := 1

def maxPolicySize : ℕ := 2 ^ 20

/-- The policy of a host on which none is stored. -/
def Policy.initial : Policy := { schema := schemaVersion }

/-! ### Links -/

def canonicalLink (a b : Bytes) : Except Fault Link := do
  refuse (¬ safeName a ∨ ¬ safeName b ∨ a = b)
    (fault "a network link requires two distinct local yard names")
  pure (if b < a then ⟨b, a⟩ else ⟨a, b⟩)

/-- The order of links. -/
def Link.before (l r : Link) : Prop := l.a < r.a ∨ l.a = r.a ∧ l.b ≤ r.b

instance : DecidableRel Link.before := fun l r =>
  inferInstanceAs (Decidable (l.a < r.a ∨ l.a = r.a ∧ l.b ≤ r.b))

def sortLinks (links : List Link) : List Link := links.insertionSort Link.before

/-- A link with an end at `name`. -/
def Link.touches (link : Link) (name : Bytes) : Bool := link.a = name || link.b = name

namespace Policy

def link (p : Policy) (a b : Bytes) : Except Fault Policy := do
  let link ← canonicalLink a b
  pure (if link ∈ p.links then p else { p with links := sortLinks (p.links ++ [link]) })

def unlink (p : Policy) (a b : Bytes) : Except Fault Policy := do
  let link ← canonicalLink a b
  pure { p with links := p.links.filter (· ≠ link) }

def forget (p : Policy) (name : Bytes) : Policy :=
  { p with
    links := p.links.filter fun link => !link.touches name
    bindings := p.bindings.filter fun binding => binding.yard.name ≠ name }

/-- The other end of a link, if `name` is one. -/
def peer (name : Bytes) (link : Link) : Option Bytes :=
  if link.a = name then some link.b else if link.b = name then some link.a else none

/-- The yards that `name` is linked with. -/
def peers (p : Policy) (name : Bytes) : List Bytes :=
  (p.links.filterMap (peer name)).insertionSort (· ≤ ·)

end Policy

/-! ### Hardware addresses -/

def hexValue (b : UInt8) : Option ℕ :=
  if isDigit b then some (b.toNat - 48)
  else if 97 ≤ b ∧ b ≤ 102 then some (b.toNat - 87)
  else if 65 ≤ b ∧ b ≤ 70 then some (b.toNat - 55)
  else none

/-- The octets that pairs of hexadecimal digits denote. -/
def unhex : Bytes → Option Bytes
  | [] => some []
  | [_] => none
  | high :: low :: rest => do
      let high ← hexValue high
      let low ← hexValue low
      let rest ← unhex rest
      some (UInt8.ofNat (16 * high + low) :: rest)

/-- The octets of `count` groups of `width` digits with a separator between them. -/
def macGroups (separator : UInt8) (width count : ℕ) (text : Bytes) : Option Bytes :=
  let groups := text.splitOn separator
  if groups.length = count ∧ ∀ group ∈ groups, group.length = width then unhex groups.flatten
  else none

/-- The six octets of a hardware address: pairs with colons or hyphens, or three groups of four
digits with dots. -/
def parseMAC (text : Bytes) : Option Bytes :=
  (macGroups 58 2 6 text).orElse fun _ =>
    (macGroups 45 2 6 text).orElse fun _ => macGroups 46 4 3 text

/-- The text of a hardware address. -/
def macText (octets : Bytes) : Bytes := [58].intercalate (octets.map fun octet => hex [octet])

/-- The address of a single station. -/
def isUnicast (octets : Bytes) : Bool := octets.head?.all fun octet => octet &&& 1 = 0

def lowerByte (b : UInt8) : UInt8 := if isUpper b then b + 32 else b

def toLower (text : Bytes) : Bytes := text.map lowerByte

/-! ### Normal form -/

/-- `ExplicitOwnerIPv4`. -/
def explicitOwnerIPv4 (address : Addr) : Bool :=
  address.isGlobalUnicast && !address.isLoopback && !address.isLinkLocalUnicast

namespace ApprovedIngress

/-- The transport; older policies have UDP routes only. -/
def transport (approved : ApprovedIngress) : Bytes :=
  if approved.protocol = [] then str "udp" else approved.protocol

/-- The device of the route. -/
def proxy (approved : ApprovedIngress) (binding : Binding) : List (Bytes × Bytes) :=
  [(str "type", str "proxy"), (str "listen", approved.listen),
    (str "connect",
      approved.transport ++ [58] ++ binding.ipv4 ++ [58] ++ decimal approved.guestPort),
    (str "bind", str "host"), (str "nat", str "true")]

/-- The form that is stored. -/
def stored (approved : ApprovedIngress) : ApprovedIngress :=
  if approved.protocol = str "udp" then { approved with protocol := [] } else approved

/-- The endpoint of a listener is an address of the owner and a port, in its one text. -/
def listens (approved : ApprovedIngress) : Bool :=
  (approved.transport ++ [58]).isPrefixOf approved.listen
    && (parseAddrPort (approved.listen.drop (approved.transport ++ [58]).length)).any fun endpoint =>
      explicitOwnerIPv4 endpoint.1 && endpoint.2 ≠ 0
        && approved.transport ++ [58] ++ addrPortText endpoint = approved.listen

/-- The check of a route after those of the binding before it. -/
def check (earlier : List ApprovedIngress) (approved : ApprovedIngress) :
    Except Fault (List ApprovedIngress) := do
  let approved := approved.stored
  refuse (¬ safeName approved.device ∨ approved.device ∈ earlier.map device
      ∨ (approved.transport ≠ str "udp" ∧ approved.transport ≠ str "tcp")
      ∨ approved.guestPort < 1 ∨ 65535 < approved.guestPort ∨ ¬ approved.listens)
    (fault "network policy contains an invalid approved resource ingress")
  pure (earlier ++ [approved])

/-- The routes in the order of their devices. -/
def sort (routes : List ApprovedIngress) : List ApprovedIngress :=
  routes.insertionSort fun a b => a.device ≤ b.device

end ApprovedIngress

namespace Binding

/-- A binding as such. -/
def Valid (b : Binding) : Prop :=
  safeName b.yard.name ∧ safeName b.yard.project ∧ safeName b.yard.inst ∧ safeName b.yard.network
    ∧ (parseAddr b.ipv4).isSome ∧ (parseMAC b.mac).any isUnicast
    ∧ b.originalNIC.value (str "type") = str "nic"
    ∧ b.originalNIC.value (str "network") = b.yard.network

instance (b : Binding) : Decidable b.Valid :=
  inferInstanceAs (Decidable (_ ∧ _ ∧ _ ∧ _ ∧ _ ∧ _ ∧ _ ∧ _))

def identity (b : Binding) : Bytes := b.yard.project ++ [47] ++ b.yard.inst

def address (b : Binding) : Bytes := b.yard.network ++ [47] ++ b.ipv4

def macIdentity (b : Binding) : Bytes :=
  b.yard.network ++ [47] ++ ((parseMAC b.mac).map macText).getD []

/-- The check of a binding after the ones before it. -/
def check (earlier : List Binding) (b : Binding) : Except Fault (List Binding) := do
  refuse (¬ b.Valid ∨ b.yard.name ∈ earlier.map (·.yard.name))
    (fault "network policy contains an invalid or duplicate yard binding")
  refuse (b.identity ∈ earlier.map identity ∨ b.address ∈ earlier.map address
      ∨ b.macIdentity ∈ earlier.map macIdentity)
    (fault "network policy contains colliding yard identities")
  let routes ← b.approvedIngress.foldlM ApprovedIngress.check []
  pure (earlier ++ [{ b with approvedIngress := ApprovedIngress.sort routes }])

/-- The bindings in the order of the yards' names. -/
def sort (bindings : List Binding) : List Binding :=
  bindings.insertionSort fun a b => a.yard.name ≤ b.yard.name

end Binding

namespace Policy

/-- The check of a link after the ones before it. -/
def checkLink (earlier : List Link) (candidate : Link) : Except Fault (List Link) := do
  let link ← canonicalLink candidate.a candidate.b
  refuse (link ∈ earlier) (fault "network policy contains a duplicate link")
  pure (earlier ++ [link])

/-- The check of a name after the ones before it. -/
def checkName (earlier : List Bytes) (name : Bytes) : Except Fault (List Bytes) := do
  refuse (¬ safeName name ∨ name ∈ earlier)
    (fault "network policy contains invalid pending yard names")
  pure (earlier ++ [name])

def normalize (p : Policy) : Except Fault Policy := do
  refuse (p.schema ≠ schemaVersion)
    (.plain (str "unsupported network policy schema " ++ signed p.schema))
  refuse (p.revision < p.appliedRevision)
    (fault "network policy applied revision exceeds its desired revision")
  let links ← p.links.foldlM checkLink []
  let bindings ← p.bindings.foldlM Binding.check []
  let _ ← p.pendingStart.foldlM checkName []
  let _ ← p.removing.foldlM checkName []
  refuse (∃ name ∈ p.removing, name ∈ p.pendingStart)
    (fault "network policy cannot restart a yard being removed")
  pure { p with links := sortLinks links, bindings := Binding.sort bindings }

end Policy

/-! ### The stored content -/

section Content

variable (size : Policy → ℕ)

def decode (content : Policy) : Except Fault Policy := do
  refuse (maxPolicySize < size content) (fault "network policy exceeds its size bound")
  content.normalize

def encode (p : Policy) : Except Fault Policy := do
  let content ← p.normalize
  refuse (maxPolicySize < size content) (fault "network policy exceeds its size bound")
  pure content

end Content

end Subyard.YardNetwork
