import Campaign.Amount
import Campaign.Plan.Call

/-!
# The sale

Two plans. `preparation` funds and appoints the overlord, opens spirit claims and creates the
collections; nothing is done as the overlord before a strict barrier has seen the appointment.
`population` walks the test accounts through the statuses of the sale; what needs a status waits
until the overlord's change of it is on chain.
-/

namespace Campaign.Plan

/-- The id of the collection of spirits. -/
def spiritCollection : Int := 0

/-- The id of the collection of origins of shell. -/
def shellCollection : Int := 1

/-- Tokens that the overlord is given. -/
def overlordFunding : Int := 1000000

variable {τ : Type}

/-- What the preparation may vary. -/
structure Preparation where
  funding : Value := .int overlordFunding
  spiritCollection : Value := .int Plan.spiritCollection
  shellCollection : Value := .int Plan.shellCollection

/-- A call without parameters. -/
def bare (account pallet function : Value) : Step τ := .submit { account, pallet, function }

/-- A call with parameters. -/
def call (account pallet function : Value) (fields : List (String × Value)) : Step τ :=
  .submit { account, pallet, function, params := .given (.object fields) }

/-- A barrier that may run out of time. -/
def wait (account : Value) : Step τ := .barrier { account }

/-- The overlord is funded, then appointed with the highest rights. -/
def appointment (pallets : Pallets) (overlord : String) (funding : Int) : Phase τ where
  name := "Appointing overlord"
  steps := [
    call "root" "Balances" "transfer" [("dest", .text overlord), ("value", .int funding)],
    wait "root",
    .submit {
      account := "root"
      pallet := pallets.sale
      function := "set_overlord"
      params := .given (.object [("new_overlord", .text overlord)])
      asRoot := .bool true },
    .barrier { account := "root", strict := .bool true }]

/-- The overlord starts the clock of the sale and opens spirit claims. -/
def opening (pallets : Pallets) : Phase τ where
  name := "Starting world clock and spirit claims"
  steps := [
    bare "overlord" pallets.sale "initialize_world_clock",
    .submit (setStatus pallets .claimSpirits (.bool true))]

/-- The overlord creates a collection. -/
def createCollection (symbol : String) : Step τ :=
  call "overlord" "RmrkCore" "create_collection"
    [("metadata", .text "0x"), ("max", .null), ("symbol", .text symbol)]

/-- The overlord creates and registers the two collections. -/
def collections (pallets : Pallets) (spirits shells : Value) : Phase τ where
  name := "Creating collections"
  steps := [
    createCollection "PWSPRT",
    call "overlord" pallets.sale "set_spirit_collection_id" [("collection_id", spirits)],
    createCollection "PWOAS",
    call "overlord" pallets.sale "set_origin_of_shell_collection_id"
      [("collection_id", shells)],
    bare "overlord" pallets.sale "init_origin_of_shell_type_counts",
    wait "overlord"]

/-- The phases of the preparation. -/
def preparation (accounts : Roster) (pallets : Pallets) (p : Preparation) :
    Except Fault (List (Phase τ)) := do
  let overlord ← keyOf accounts "overlord"
  let funding ← Amount.ofValue p.funding
  return [appointment pallets overlord.address funding, opening pallets,
    collections pallets p.spiritCollection p.shellCollection]

/-- The rare origins of shell that are bought. -/
def rarePurchases : List (String × ShellType × Race × Career) := [
  ("user", .legendary, .cyborg, .hackerWizard),
  ("root", .legendary, .aiSpectre, .web3Monk),
  ("charlie", .magic, .pandroid, .roboWarrior),
  ("david", .magic, .xGene, .tradeNegotiator)]

/-- The prime origins of shell that are bought on the whitelist. -/
def primePurchases : List (String × Race × Career) := [
  ("ferdie", .cyborg, .hackerWizard),
  ("eve", .xGene, .web3Monk)]

/-- The preorders, in rounds; each account sends at most one in a round. -/
def preorderRounds : List (List (String × Race × Career)) := [
  [("ferdie", .pandroid, .hackerWizard), ("root", .aiSpectre, .web3Monk),
    ("user", .pandroid, .roboWarrior), ("charlie", .cyborg, .web3Monk),
    ("david", .cyborg, .hardwareDruid), ("eve", .xGene, .tradeNegotiator)],
  [("ferdie", .xGene, .hackerWizard), ("root", .aiSpectre, .hackerWizard),
    ("user", .xGene, .roboWarrior), ("charlie", .pandroid, .hardwareDruid),
    ("david", .aiSpectre, .tradeNegotiator), ("eve", .pandroid, .web3Monk)],
  [("ferdie", .cyborg, .hackerWizard), ("eve", .pandroid, .tradeNegotiator)]]

/-- Rounds of steps with a barrier between each two. -/
def inRounds (barrier : Step τ) (rounds : List (List (Step τ))) : List (Step τ) :=
  [barrier].intercalate rounds

/-- The overlord opens a status and waits until that is on chain. -/
def openStatus (pallets : Pallets) (status : SaleStatus) : List (Step τ) :=
  [.submit (setStatus pallets status (.bool true)), wait "overlord"]

/-- Spirits are claimed, and one is redeemed. -/
def claims (accounts : Roster) (pallets : Pallets) : Phase τ where
  name := "Claiming Spirits"
  steps := ["root", "user", "charlie", "david", "eve"].map
      (fun r => .submit (claimSpirit pallets r))
    ++ [.submit (redeemSpirit pallets accounts "ferdie"), wait "root"]

/-- Rare origins of shell are bought. -/
def raresBought (pallets : Pallets) : Phase τ where
  name := "Purchase Rare Origin of Shells"
  steps := openStatus pallets .purchaseRare
    ++ rarePurchases.map (fun (r, t, race, career) => .submit (buyRare pallets r t race career))
    ++ [wait "user"]

/-- Prime origins of shell are bought on the whitelist. -/
def primesBought (accounts : Roster) (pallets : Pallets) : Phase τ where
  name := "Purchase Prime Origin of Shells Whitelist"
  steps := openStatus pallets .purchasePrime
    ++ primePurchases.map fun (r, race, career) => .submit (buyPrime pallets accounts r race career)

/-- Preorders are sent in rounds. -/
def preordersSent (pallets : Pallets) : Phase τ where
  name := "Preorder Prime Origin of Shells Non-Whitelist"
  steps := openStatus pallets .preorder
    ++ inRounds (wait "ferdie") (preorderRounds.map fun round => round.map
      fun (r, race, career) => .submit (preorder pallets r race career))

/-- The phases of the population. -/
def population (accounts : Roster) (pallets : Pallets) : List (Phase τ) :=
  [claims accounts pallets, raresBought pallets, primesBought accounts pallets,
    preordersSent pallets]

end Campaign.Plan
