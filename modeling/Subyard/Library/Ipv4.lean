import Mathlib.Tactic
import Subyard.Library.Text

/-!
Addresses of the Internet protocol, version 4, and blocks of them.

* `Addr`: an address; `Addr.text` is its dotted text and `parseAddr` reads it.
* `parseAddr_text`: an address is read back from its text.
* `Block`: an address with the length of its network part, as `parsePrefix` reads it; `Contains`,
  `first` are the addresses of the network and the lowest of them.
* `Block.Usable`: the addresses a host of the network can have; `Block.Usable.ne_last`: the
  broadcast address is none of them.
-/

namespace Ipv4

open Text

/-- An address. -/
structure Addr where
  value : ℕ
  lt : value < 2 ^ 32
deriving DecidableEq

namespace Addr

/-- The four octets, the first one leading. -/
def octets (a : Addr) : List ℕ :=
  [a.value / 2 ^ 24, a.value / 2 ^ 16 % 256, a.value / 2 ^ 8 % 256, a.value % 256]

/-- The dotted text of an address. -/
def text (a : Addr) : Bytes := [46].intercalate (a.octets.map decimal)

/-- The address after this one, if it is not the last. -/
def next (a : Addr) : Option Addr :=
  if h : a.value + 1 < 2 ^ 32 then some ⟨a.value + 1, h⟩ else none

/-- The first octets of an address, as a number. -/
def lead (a : Addr) (bits : ℕ) : ℕ := a.value / 2 ^ (32 - bits)

def isLoopback (a : Addr) : Bool := a.lead 8 = 127

def isMulticast (a : Addr) : Bool := a.lead 4 = 14

def isLinkLocalUnicast (a : Addr) : Bool := a.lead 16 = 169 * 256 + 254

def isPrivate (a : Addr) : Bool :=
  a.lead 8 = 10 || a.lead 12 = 172 * 16 + 1 || a.lead 16 = 192 * 256 + 168

def isGlobalUnicast (a : Addr) : Bool :=
  a.value ≠ 0 && a.value ≠ 2 ^ 32 - 1 && !a.isLoopback && !a.isMulticast && !a.isLinkLocalUnicast

end Addr

/-- The number of a field without superfluous zeros. -/
def parseOctet (field : Bytes) : Option ℕ :=
  (parseDigits field).filter fun n => n ≤ 255 ∧ decimal n = field

/-- The address with four octets. -/
def ofOctets : List ℕ → Option Addr
  | [a, b, c, d] =>
      if h : ((a * 256 + b) * 256 + c) * 256 + d < 2 ^ 32
      then some ⟨((a * 256 + b) * 256 + c) * 256 + d, h⟩ else none
  | _ => none

/-- The address of a dotted text. -/
def parseAddr (text : Bytes) : Option Addr := ((text.splitOn 46).mapM parseOctet).bind ofOctets

/-! ### An address and its text -/

lemma parseOctet_decimal {n : ℕ} (h : n ≤ 255) : parseOctet (decimal n) = some n := by
  rw [parseOctet, parseDigits_decimal]
  simp [h]

lemma dot_notMem_decimal (n : ℕ) : (46 : UInt8) ∉ decimal n := by
  intro h
  have hdigits := parseDigits_decimal n
  rw [parseDigits] at hdigits
  split at hdigits
  · next hall =>
      have := List.all_eq_true.mp hall.2 46 h
      revert this
      decide
  · cases hdigits

lemma Addr.octets_le (a : Addr) : ∀ n ∈ a.octets, n ≤ 255 := by
  have hlt := a.lt
  intro n hn
  simp only [Addr.octets, List.mem_cons, List.not_mem_nil, or_false] at hn
  omega

lemma ofOctets_octets (a : Addr) : ofOctets a.octets = some a := by
  have hlt := a.lt
  have hvalue : ((a.value / 2 ^ 24 * 256 + a.value / 2 ^ 16 % 256) * 256 + a.value / 2 ^ 8 % 256)
      * 256 + a.value % 256 = a.value := by omega
  simp only [Addr.octets, ofOctets, hvalue]
  rw [dif_pos hlt]

/-- **The address of its text.** -/
theorem parseAddr_text (a : Addr) : parseAddr a.text = some a := by
  have hsplit : a.text.splitOn 46 = a.octets.map decimal := by
    refine List.splitOn_intercalate 46 (fun field hfield => ?_) (by simp [Addr.octets])
    obtain ⟨n, _, rfl⟩ := List.mem_map.mp hfield
    exact dot_notMem_decimal n
  have hfields : ∀ ns : List ℕ, (∀ n ∈ ns, n ≤ 255) →
      (ns.map decimal).mapM parseOctet = some ns := by
    intro ns hns
    induction ns with
    | nil => rfl
    | cons n ns ih =>
      rw [List.map_cons, List.mapM_cons, parseOctet_decimal (hns n (by simp)),
        ih fun m hm => hns m (by simp [hm])]
      rfl
  rw [parseAddr, hsplit, hfields _ a.octets_le]
  exact ofOctets_octets a

/-! ### Blocks -/

/-- An address and the length of its network part. -/
structure Block where
  addr : Addr
  bits : ℕ
deriving DecidableEq

/-- The block of an address, a slash and a length without superfluous zeros. -/
def parsePrefix (text : Bytes) : Option Block :=
  match text.splitOn 47 with
  | [addr, length] => do
      let addr ← parseAddr addr
      let bits ← (parseDigits length).filter fun n => n ≤ 32 ∧ decimal n = length
      some ⟨addr, bits⟩
  | _ => none

namespace Block

/-- An address of the network of the block. -/
def Contains (p : Block) (a : Addr) : Prop := a.lead p.bits = p.addr.lead p.bits

instance (p : Block) (a : Addr) : Decidable (p.Contains a) :=
  inferInstanceAs (Decidable (a.lead p.bits = p.addr.lead p.bits))

/-- The address of the network itself. -/
def first (p : Block) : Addr where
  value := p.addr.lead p.bits * 2 ^ (32 - p.bits)
  lt := (Nat.div_mul_le_self _ _).trans_lt p.addr.lt

lemma size_dvd (p : Block) : 2 ^ (32 - p.bits) ∣ 2 ^ 32 := pow_dvd_pow 2 (Nat.sub_le 32 p.bits)

/-- The broadcast address of the network. -/
def last (p : Block) : Addr where
  value := p.addr.lead p.bits * 2 ^ (32 - p.bits) + (2 ^ (32 - p.bits) - 1)
  lt := by
    obtain ⟨n, hn⟩ := p.size_dvd
    have hpos : 0 < 2 ^ (32 - p.bits) := by positivity
    have hlead : p.addr.lead p.bits < n := Nat.div_lt_of_lt_mul (hn ▸ p.addr.lt)
    have hmul := Nat.mul_le_mul_left (2 ^ (32 - p.bits)) hlead
    rw [← hn, Nat.succ_eq_add_one, Nat.mul_add, Nat.mul_comm] at hmul
    omega

/-- The address after `a` is also one of the network. -/
def ContainsNext (p : Block) (a : Addr) : Prop := ∃ b ∈ a.next, p.Contains b

instance (p : Block) (a : Addr) : Decidable (p.ContainsNext a) :=
  inferInstanceAs (Decidable (∃ b ∈ a.next, p.Contains b))

/-- An address for a host: of the network, and neither the block's own address nor the first or the
last one of the network. -/
def Usable (p : Block) (a : Addr) : Prop :=
  p.Contains a ∧ a ≠ p.addr ∧ a ≠ p.first ∧ p.ContainsNext a

instance (p : Block) (a : Addr) : Decidable (p.Usable a) :=
  inferInstanceAs (Decidable (_ ∧ _ ∧ _ ∧ _))

/-- The broadcast address has no address of the network after it. -/
lemma Usable.ne_last {p : Block} {a : Addr} (h : p.Usable a) : a ≠ p.last := by
  rintro rfl
  obtain ⟨b, hb, hnext⟩ := h.2.2.2
  have hpos : 0 < 2 ^ (32 - p.bits) := by positivity
  have hvalue : b.value = (p.addr.lead p.bits + 1) * 2 ^ (32 - p.bits) := by
    rw [Addr.next, Option.mem_def] at hb
    split at hb
    · cases hb
      show p.addr.lead p.bits * 2 ^ (32 - p.bits) + (2 ^ (32 - p.bits) - 1) + 1 = _
      rw [Nat.add_mul, Nat.one_mul]
      omega
    · cases hb
  rw [Contains, Addr.lead, hvalue, Nat.mul_div_cancel _ hpos] at hnext
  omega

end Block

/-! ### Addresses with a port -/

/-- The address and the port of a text with one colon. -/
def parseAddrPort (text : Bytes) : Option (Addr × ℕ) :=
  match text.splitOn 58 with
  | [addr, port] => do
      let port ← (parseDigits port).filter (· < 2 ^ 16)
      let addr ← parseAddr addr
      some (addr, port)
  | _ => none

/-- The text of an address and a port. -/
def addrPortText (endpoint : Addr × ℕ) : Bytes := endpoint.1.text ++ [58] ++ decimal endpoint.2

end Ipv4
