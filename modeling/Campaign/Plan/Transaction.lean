import Campaign.Arguments
import Campaign.Plan.Sale

/-!
# Single transactions

A transaction is one call of the sale, named by a command with its arguments. Some need the
overlord's signature and so its key beside the signer's.
-/

namespace Campaign.Plan

/-- A call of the sale by the name of its command. -/
inductive Transaction where
  | claimSpirit
  | redeemSpirit
  | buyRare (type race career : Value)
  | buyPrime (race career : Value)
  | preorder (race career : Value)
  | claimChosen
  | claimRefund
  | setStatus (status enabled : Value)
  | setPreorderStatus (id status : Value)
  | feed (collection nft : Value)
  | hatch (owner collection nft source : Value)
  | setShellCollection (collection : Value)

namespace Transaction

/-- An argument. -/
def field (args : Arguments) (name : String) : Except Fault Value :=
  match args.get? name with
  | some v => .ok v
  | none => .error (.noAttribute "Namespace" name)

/-- The transaction of a command. -/
def ofCommand (command : String) (args : Arguments) : Except Fault Transaction := do
  match command with
  | "claim-spirit" => return claimSpirit
  | "redeem-spirit" => return redeemSpirit
  | "buy-rare" => return buyRare (← field args "type") (← field args "race") (← field args "career")
  | "buy-prime" => return buyPrime (← field args "race") (← field args "career")
  | "preorder" => return preorder (← field args "race") (← field args "career")
  | "claim-chosen" => return claimChosen
  | "claim-refund" => return claimRefund
  | "set-status" =>
    return setStatus (← field args "status_type") (.bool !(← field args "disable").truthy)
  | "set-preorder-status" =>
    return setPreorderStatus (← field args "preorder_id") (← field args "status")
  | "feed" => return feed (← field args "collection_id") (← field args "nft_id")
  | "hatch" =>
    return hatch (← field args "owner") (← field args "collection_id") (← field args "nft_id")
      (← field args "resource_src")
  | "set-shell-collection-id" => return setShellCollection (← field args "collection_id")
  | other => throw (.unknownCommand other)

/-- Whether a command needs the overlord's key beside the signer's. -/
def needsOverlord (command : String) : Bool := command = "redeem-spirit" || command = "buy-prime"

/-- The call of a transaction, signed by a role where it is not the overlord's. -/
def step (pallets : Pallets) (accounts : Roster) (role : Value) :
    Transaction → Except Fault Submit
  | .claimSpirit => .ok (Plan.claimSpirit pallets role)
  | .redeemSpirit => .ok (Plan.redeemSpirit pallets accounts role)
  | .buyRare type race career => buyRareNamed pallets role type race career
  | .buyPrime race career => buyPrimeNamed pallets accounts role race career
  | .preorder race career => preorderNamed pallets role race career
  | .claimChosen => .ok (Plan.claimChosen pallets role)
  | .claimRefund => .ok (Plan.claimRefund pallets role)
  | .setStatus status enabled => setStatusNamed pallets status enabled
  | .setPreorderStatus id status => setPreorderStatusNamed pallets id status
  | .feed collection nft => .ok (Plan.feed pallets role collection nft)
  | .hatch owner collection nft source => .ok (Plan.hatch pallets owner collection nft source)
  | .setShellCollection collection => .ok (Plan.setShellCollection pallets collection)

/-- The role that signs: the chosen one, or the overlord where there is no choice. -/
def roleOf (args : Arguments) : Value := (args.get? "role").getD "overlord"

/-- The step that arguments ask for. -/
def stepOf (pallets : Pallets) (accounts : Roster) (args : Arguments) : Except Fault Submit := do
  let transaction ← ofCommand (← field args "cmd").shown args
  transaction.step pallets accounts (roleOf args)

end Transaction

end Campaign.Plan
