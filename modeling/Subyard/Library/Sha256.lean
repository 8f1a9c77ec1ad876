import Subyard.Library.Text

/-!
SHA-256 (FIPS 180-4) over octet lists.  Words are natural numbers below `2^32`, so that the
arithmetic of a block is reduced modulo `2^32` where the standard adds.  The only fact later
proofs use is the width of a digest, `length_sum256`.
-/

namespace Sha256

open Text (Bytes)

/-- Rotation of a 32-bit word to the right. -/
def rotr (x n : ℕ) : ℕ := (x >>> n) ||| ((x <<< (32 - n)) % 2 ^ 32)

def bigSigma0 (x : ℕ) : ℕ := rotr x 2 ^^^ rotr x 13 ^^^ rotr x 22

def bigSigma1 (x : ℕ) : ℕ := rotr x 6 ^^^ rotr x 11 ^^^ rotr x 25

def smallSigma0 (x : ℕ) : ℕ := rotr x 7 ^^^ rotr x 18 ^^^ (x >>> 3)

def smallSigma1 (x : ℕ) : ℕ := rotr x 17 ^^^ rotr x 19 ^^^ (x >>> 10)

/-- The constants of the sixty-four rounds. -/
def roundConstants : List ℕ :=
  [0x428a2f98, 0x71374491, 0xb5c0fbcf, 0xe9b5dba5, 0x3956c25b, 0x59f111f1, 0x923f82a4, 0xab1c5ed5,
   0xd807aa98, 0x12835b01, 0x243185be, 0x550c7dc3, 0x72be5d74, 0x80deb1fe, 0x9bdc06a7, 0xc19bf174,
   0xe49b69c1, 0xefbe4786, 0x0fc19dc6, 0x240ca1cc, 0x2de92c6f, 0x4a7484aa, 0x5cb0a9dc, 0x76f988da,
   0x983e5152, 0xa831c66d, 0xb00327c8, 0xbf597fc7, 0xc6e00bf3, 0xd5a79147, 0x06ca6351, 0x14292967,
   0x27b70a85, 0x2e1b2138, 0x4d2c6dfc, 0x53380d13, 0x650a7354, 0x766a0abb, 0x81c2c92e, 0x92722c85,
   0xa2bfe8a1, 0xa81a664b, 0xc24b8b70, 0xc76c51a3, 0xd192e819, 0xd6990624, 0xf40e3585, 0x106aa070,
   0x19a4c116, 0x1e376c08, 0x2748774c, 0x34b0bcb5, 0x391c0cb3, 0x4ed8aa4a, 0x5b9cca4f, 0x682e6ff3,
   0x748f82ee, 0x78a5636f, 0x84c87814, 0x8cc70208, 0x90befffa, 0xa4506ceb, 0xbef9a3f7, 0xc67178f2]

/-- The chaining value: eight words. -/
structure State where
  a : ℕ
  b : ℕ
  c : ℕ
  d : ℕ
  e : ℕ
  f : ℕ
  g : ℕ
  h : ℕ

def initial : State :=
  ⟨0x6a09e667, 0xbb67ae85, 0x3c6ef372, 0xa54ff53a, 0x510e527f, 0x9b05688c, 0x1f83d9ab, 0x5be0cd19⟩

/-- One round, on a round constant and a word of the schedule. -/
def round (s : State) (kw : ℕ × ℕ) : State :=
  let t₁ := s.h + bigSigma1 s.e + ((s.e &&& s.f) ^^^ ((s.e ^^^ (2 ^ 32 - 1)) &&& s.g)) + kw.1 + kw.2
  let t₂ := bigSigma0 s.a + ((s.a &&& s.b) ^^^ (s.a &&& s.c) ^^^ (s.b &&& s.c))
  ⟨(t₁ + t₂) % 2 ^ 32, s.a, s.b, s.c, (s.d + t₁) % 2 ^ 32, s.e, s.f, s.g⟩

/-- The message schedule, `n` words from a window of the next sixteen. -/
def schedule : ℕ → List ℕ → List ℕ
  | 0, _ => []
  | n + 1, w =>
      let next :=
        (smallSigma1 (w.getD 14 0) + w.getD 9 0 + smallSigma0 (w.getD 1 0) + w.getD 0 0) % 2 ^ 32
      w.getD 0 0 :: schedule n (w.drop 1 ++ [next])

/-- The compression function on one block of sixteen words. -/
def compress (s : State) (block : List ℕ) : State :=
  let t := (roundConstants.zip (schedule 64 block)).foldl round s
  ⟨(s.a + t.a) % 2 ^ 32, (s.b + t.b) % 2 ^ 32, (s.c + t.c) % 2 ^ 32, (s.d + t.d) % 2 ^ 32,
   (s.e + t.e) % 2 ^ 32, (s.f + t.f) % 2 ^ 32, (s.g + t.g) % 2 ^ 32, (s.h + t.h) % 2 ^ 32⟩

/-- The last `n` octets of a number, most significant first. -/
def bigEndian (n x : ℕ) : Bytes :=
  (List.range n).map fun i => UInt8.ofNat (x >>> (8 * (n - 1 - i)))

/-- The padding of a message of `len` octets. -/
def padding (len : ℕ) : Bytes :=
  0x80 :: List.replicate ((119 - len % 64) % 64) 0 ++ bigEndian 8 (8 * len)

/-- The big-endian words of a text. -/
def words : Bytes → List ℕ
  | a :: b :: c :: d :: rest =>
      (((a.toNat * 256 + b.toNat) * 256 + c.toNat) * 256 + d.toNat) :: words rest
  | _ => []

def blocks : ℕ → List ℕ → List (List ℕ)
  | 0, _ => []
  | n + 1, ws => ws.take 16 :: blocks n (ws.drop 16)

/-- The SHA-256 digest of a message. -/
def sum256 (message : Bytes) : Bytes :=
  let padded := words (message ++ padding message.length)
  let s := (blocks (padded.length / 16) padded).foldl compress initial
  [s.a, s.b, s.c, s.d, s.e, s.f, s.g, s.h].flatMap (bigEndian 4)

/-- A digest is thirty-two octets wide. -/
@[simp] lemma length_sum256 (message : Bytes) : (sum256 message).length = 32 := by
  simp [sum256, bigEndian]

/-- In hexadecimal it has sixty-four digits. -/
lemma hex_sum256 (message : Bytes) :
    (Text.hex (sum256 message)).length = 64 ∧ (Text.hex (sum256 message)).all Text.isHex := by
  have hdigit : ∀ n < 16, Text.isHex (Text.hexDigit n) := by decide
  refine ⟨by simp, List.all_eq_true.mpr fun x hx => ?_⟩
  obtain ⟨b, -, hb⟩ := List.mem_flatMap.mp hx
  have hlt := b.toNat_lt
  simp only [List.mem_cons, List.not_mem_nil, or_false] at hb
  rcases hb with rfl | rfl
  · exact hdigit _ (by omega)
  · exact hdigit _ (by omega)

-- The one-block test vector of the standard.
example : (sum256 (Text.str "abc")).take 8 = [0xba, 0x78, 0x16, 0xbf, 0x8f, 0x01, 0xcf, 0xea] := by
  decide +kernel

end Sha256
