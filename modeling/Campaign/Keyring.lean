import Campaign.Value.Access

/-!
# Keys

A key signs for one address. A keyring derives keys from secret texts; the development accounts are
always in it. `Keyring.key` asks it on behalf of a role and says whose key material is missing or
bad.
-/

namespace Campaign

/-- A key that signs for an address. -/
structure Key where
  address : String
  /-- Whether its own signatures pass its check. -/
  verifies : Bool := true
  deriving DecidableEq, Repr

namespace Key

/-- The signature of a message: the address, a bar, the message. -/
def sign (key : Key) (message : List UInt8) : List UInt8 :=
  key.address.toUTF8.toList ++ 0x7c :: message

/-- Whether a signature is the key's own for a message. -/
def verify (key : Key) (message signature : List UInt8) : Bool :=
  key.verifies && signature = key.sign message

end Key

/-- Keys by role. -/
abbrev Roster := Table String Key

/-- The key of a role, if it has one; what is no text is no role. -/
def Roster.key? (accounts : Roster) (role : Value) : Except Fault (Option Key) := do
  role.keyable
  return role.text?.bind accounts.get?

/-- What a keyring has for a secret text. -/
inductive Secret where
  | key (k : Key)
  | failure (fault : Fault)

/-- Secrets by their texts. -/
structure Keyring where
  secrets : Table String Secret := .empty

namespace Keyring

/-- The development accounts. -/
def development : Table String Secret := ⟨[
  ("//Alice", .key ⟨"5GrwvaEF5zXb26Fz9rcQpDWS57CtERHpNehXCPcNoHGKutQY", true⟩),
  ("//Bob", .key ⟨"5FHneW46xGXgs5mUiveU4sbTyGBzmstUspZC92UhjJM694ty", true⟩),
  ("//Charlie", .key ⟨"5FLSigC9HGRKVhB9FiEo4Y3koPsNmBmLJbpXg2mp1hXcS59Y", true⟩),
  ("//Dave", .key ⟨"5DAAnrj7VHTznn2AWBemMuyBwZWs6FNFjdyVXUeYum3PTXFy", true⟩),
  ("//Eve", .key ⟨"5HGjWAeFDfFCWPsjFQdVV2Msvz2XtMktvgocEZcCj68kUMaw", true⟩),
  ("//Ferdie", .key ⟨"5CiPPseXPECbkjWCa6MnjNokrgYjMqmKndv2rSnekmSK2DjL", true⟩)]⟩

/-- The key of a secret text. -/
def derive (ring : Keyring) (secret : Value) : Except Fault Key := do
  secret.keyable
  match secret.text?.bind fun s => (ring.secrets.get? s).or (development.get? s) with
  | some (.key k) => return k
  | some (.failure fault) => throw fault
  | none => throw (.foreign "ValueError" "Invalid mnemonic")

/-- Whether a derivation failed because of the secret text. -/
def blamesSecret (fault : Fault) : Bool :=
  fault.isA "ValueError" || fault.isA "TypeError"

/-- The key of a role's secret text, which must not be empty. -/
def key (ring : Keyring) (secret role : Value) : Except Fault Key :=
  if !secret.truthy then .error (.noKeyMaterial role.shown)
  else
    match ring.derive secret with
    | .ok k => .ok k
    | .error fault =>
      .error (if blamesSecret fault then .badKeyMaterial role.shown fault.message else fault)

end Keyring

end Campaign
