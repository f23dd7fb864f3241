import Campaign.Command.Basic
import Campaign.Signature

/-!
# Signing

The command that prints the overlord's signature over metadata and, for an account, the signature
that this account needs to redeem a spirit or to buy on the whitelist. It does not connect.
-/

namespace Campaign.Command.Sign

variable {ν τ : Type} [Seconds τ]

/-- The command line. -/
def grammar : Grammar where
  program := "signer.py"
  switches := [
    { names := ["--metadata"], key := "metadata", default := .text "I am Spirit" },
    { names := ["--account"], key := "account" },
    { names := ["--purpose"], key := "purpose", choices := some (Kind.values Purpose),
      default := .text (Kind.value Purpose.redeemSpirit) }]

/-- Prints signatures. -/
def perform (host : Host ν τ) : Act (World ν τ) Unit := do
  let args ← Act.ofExcept (grammar.parse host.arguments)
  let settings ← hostSettings host args
  let overlord ← Act.ofExcept (loadAccount host.keyring settings "overlord")
  World.print ("🛡️  Overlord: " ++ overlord.address)
  let signed ← Act.ofExcept (Signature.signMetadata overlord (argument args "metadata"))
  World.print signed.signature
  World.print (signed.encoded ++ " is " ++ if signed.valid then "valid" else "invalid")
  match textArgument? args "account" with
  | none => return ()
  | some account => do
    let purpose := argument args "purpose"
    World.print ("\n✍️  " ++ purpose.shown ++ " for " ++ account ++ ":")
    World.print (← Act.ofExcept (Signature.signOverlordMessage overlord account purpose))

end Campaign.Command.Sign
