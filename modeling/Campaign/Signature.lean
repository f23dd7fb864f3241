import Campaign.Address
import Campaign.Keyring
import Campaign.Kind
import Campaign.Scale
import Campaign.Value.Access

/-!
# Overlord signatures

The overlord signs two kinds of messages. An overlord message is the 32 bytes of an account id and
one byte for the purpose; metadata is a row of bytes after its compact length.
-/

namespace Campaign.Signature

/-- What an address holds. -/
def content : Value → Except Fault Address.Content
  | .text address => (Address.read address).mapError .address
  | .bytes _ => .error (.foreign "TypeError"
      "startswith first arg must be bytes or a tuple of bytes, not str")
  | v => .error (.noAttribute v.typeName "startswith")

/-- An account id and a purpose as bytes. The address is read first, then the purpose, and only
then is the id measured. -/
def overlordMessage (address purpose : Value) : Except Fault (List UInt8) := do
  let content ← content address
  let purpose : Purpose ← Kind.ofValue purpose
  let id ← content.accountId.mapError .address
  return id ++ [purpose.index]

/-- The overlord's signature for an account and a purpose, as text. -/
def signOverlordMessage (overlord : Key) (address purpose : Value) : Except Fault String := do
  return Text.Hex.marked (overlord.sign (← overlordMessage address purpose))

/-- A number as a byte. -/
def byte (v : Value) : Except Fault UInt8 :=
  match v with
  | .bool b => .ok (if b then 1 else 0)
  | .int n => if 0 ≤ n ∧ n < 256 then .ok (UInt8.ofNat n.toNat) else .error .byteRange
  | v => .error (.notByte v.typeName)

/-- The bytes that metadata stands for. -/
def metadataBytes : Value → Except Fault (List UInt8)
  | .text s => .ok s.toUTF8.toList
  | .bytes data => .ok data
  | .list items => items.mapM byte
  | v => .error (.notEncodable v.typeName)

/-- Metadata as a row of bytes after its length. -/
def metadata (v : Value) : Except Fault (List UInt8) := (metadataBytes v).map Scale.bytes

/-- A signature over metadata. -/
structure Signed where
  signature : String
  encoded : String
  valid : Bool

/-- The overlord's signature over metadata, what was signed, and whether it passes the check. -/
def signMetadata (overlord : Key) (v : Value) : Except Fault Signed := do
  let encoded ← metadata v
  let signature := overlord.sign encoded
  return ⟨Text.Hex.marked signature, Text.Hex.marked encoded, overlord.verify encoded signature⟩

end Campaign.Signature
