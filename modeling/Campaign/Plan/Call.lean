import Campaign.Settings
import Campaign.Signature
import Campaign.Step

/-!
# The calls of the sale

Each call that a campaign submits, as a step. What a call needs an overlord signature for is signed
only when the call is submitted. A call whose kinds are given by name reads them first.
-/

namespace Campaign.Plan

/-- The key of a role in a roster. -/
def keyOf (accounts : Roster) (role : Value) : Except Fault Key := do
  match ← accounts.key? role with
  | some k => return k
  | none => throw (.missingKey role)

/-- The overlord's signature for the account of a role. -/
def overlordSignature (accounts : Roster) (role : Value) (purpose : Purpose) :
    Except Fault String := do
  let overlord ← keyOf accounts "overlord"
  let account ← keyOf accounts role
  Signature.signOverlordMessage overlord account.address (.text (Kind.value purpose))

/-- A member of a closed choice as a parameter. -/
def kindValue {α : Type} [Kind α] (m : α) : Value := .text (Kind.value m)

/-- Opens or closes a status of the sale. -/
def setStatus (pallets : Pallets) (status : SaleStatus) (enabled : Value) : Submit where
  account := "overlord"
  pallet := pallets.sale
  function := "set_status_type"
  params := .given (.object [("status", enabled), ("status_type", kindValue status)])

/-- `setStatus` with the status given by name. -/
def setStatusNamed (pallets : Pallets) (status enabled : Value) : Except Fault Submit := do
  return setStatus pallets (← Kind.ofValue status) enabled

/-- Buys a rare origin of shell. -/
def buyRare (pallets : Pallets) (account : Value) (type : ShellType) (race : Race)
    (career : Career) : Submit where
  account := account
  pallet := pallets.sale
  function := "buy_rare_origin_of_shell"
  params := .given (.object [("origin_of_shell_type", kindValue type), ("race", kindValue race),
    ("career", kindValue career)])

/-- `buyRare` with the kinds given by name. -/
def buyRareNamed (pallets : Pallets) (account type race career : Value) : Except Fault Submit := do
  return buyRare pallets account (← Kind.ofValue type) (← Kind.ofValue race) (← Kind.ofValue career)

/-- Buys a prime origin of shell, with the overlord's signature for the buyer. -/
def buyPrime (pallets : Pallets) (accounts : Roster) (account : Value) (race : Race)
    (career : Career) : Submit where
  account := account
  pallet := pallets.sale
  function := "buy_prime_origin_of_shell"
  params := .deferred fun _ => do
    let signature ← overlordSignature accounts account .buyPrime
    return .object [("signature", .text signature), ("race", kindValue race),
      ("career", kindValue career)]

/-- `buyPrime` with the kinds given by name. -/
def buyPrimeNamed (pallets : Pallets) (accounts : Roster) (account race career : Value) :
    Except Fault Submit := do
  return buyPrime pallets accounts account (← Kind.ofValue race) (← Kind.ofValue career)

/-- Preorders a prime origin of shell. -/
def preorder (pallets : Pallets) (account : Value) (race : Race) (career : Career) : Submit where
  account := account
  pallet := pallets.sale
  function := "preorder_origin_of_shell"
  params := .given (.object [("race", kindValue race), ("career", kindValue career)])

/-- `preorder` with the kinds given by name. -/
def preorderNamed (pallets : Pallets) (account race career : Value) : Except Fault Submit := do
  return preorder pallets account (← Kind.ofValue race) (← Kind.ofValue career)

/-- Claims a spirit. -/
def claimSpirit (pallets : Pallets) (account : Value) : Submit where
  account := account
  pallet := pallets.sale
  function := "claim_spirit"

/-- Redeems a spirit, with the overlord's signature for the account. -/
def redeemSpirit (pallets : Pallets) (accounts : Roster) (account : Value) : Submit where
  account := account
  pallet := pallets.sale
  function := "redeem_spirit"
  params := .deferred fun _ => do
    let signature ← overlordSignature accounts account .redeemSpirit
    return .object [("signature", .text signature)]

/-- Feeds an origin of shell. -/
def feed (pallets : Pallets) (account collection nft : Value) : Submit where
  account := account
  pallet := pallets.incubation
  function := "feed_origin_of_shell"
  params := .given (.object [("collection_id", collection), ("nft_id", nft)])

/-- An origin of shell by collection and number, and the seconds taken off its hatch time. -/
structure Reduction where
  collection : Value
  nft : Value
  seconds : Value

/-- The parts of a reduction as a value. -/
def Reduction.ofValue (v : Value) : Except Fault Reduction := do
  let (shell, seconds) ← v.pair
  let (collection, nft) ← shell.pair
  return { collection, nft, seconds }

/-- A reduction as a parameter. -/
def Reduction.toValue (r : Reduction) : Value := .tuple [.tuple [r.collection, r.nft], r.seconds]

/-- Shortens hatch times. -/
def updateIncubationTime (pallets : Pallets) (reductions : List Reduction) : Submit where
  account := "overlord"
  pallet := pallets.incubation
  function := "update_incubation_time"
  params := .given (.object [("origin_of_shells", .list (reductions.map Reduction.toValue))])

/-- `updateIncubationTime` with the reductions as a value. -/
def updateIncubationTimeNamed (pallets : Pallets) (reductions : Value) : Except Fault Submit := do
  return updateIncubationTime pallets (← (← reductions.items).mapM Reduction.ofValue)

/-- Hatches an origin of shell. -/
def hatch (pallets : Pallets) (owner collection nft source : Value) : Submit where
  account := "overlord"
  pallet := pallets.incubation
  function := "hatch_origin_of_shell"
  params := .given (.object [("owner", owner), ("collection_id", collection), ("nft_id", nft),
    ("resource_src", source)])

/-- Registers the collection of shells. -/
def setShellCollection (pallets : Pallets) (collection : Value) : Submit where
  account := "overlord"
  pallet := pallets.incubation
  function := "set_shell_collection_id"
  params := .given (.object [("collection_id", collection)])

/-- Resolves one preorder, one way or the other. -/
def setPreorderStatus (pallets : Pallets) (id : Value) (status : PreorderStatus) :
    Except Fault Submit :=
  match status with
  | .pending => .error .pendingStatus
  | _ => .ok {
      account := "overlord"
      pallet := pallets.sale
      function := "set_preorder_status"
      params := .given (.object [("preorder_id", id), ("status", kindValue status)]) }

/-- `setPreorderStatus` with the status given by name. -/
def setPreorderStatusNamed (pallets : Pallets) (id status : Value) : Except Fault Submit := do
  setPreorderStatus pallets id (← Kind.ofValue status)

/-- Claims what was chosen in the drawing. -/
def claimChosen (pallets : Pallets) (account : Value) : Submit where
  account := account
  pallet := pallets.sale
  function := "claim_chosen_preorders"

/-- Claims back what was paid for preorders that were not chosen. -/
def claimRefund (pallets : Pallets) (account : Value) : Submit where
  account := account
  pallet := pallets.sale
  function := "claim_refund_preorders"

/-- A phase of one call and a barrier behind it. -/
def single {τ : Type} (name : Value) (step : Submit) : List (Phase τ) :=
  [⟨name, [.submit step, .barrier { account := step.account }]⟩]

end Campaign.Plan
