import Campaign.Command.Basic
import Campaign.Plan.Sale

/-!
# Initializing the sale

The command that funds and appoints the overlord and prepares the sale: opens spirit claims, creates
the collections and sets up the inventory.
-/

namespace Campaign.Command.Initialize

variable {ν τ : Type} [Seconds τ]

/-- The command line. -/
def grammar : Grammar where
  program := "init.py"
  switches := [
    endpointSwitch,
    { names := ["--funding"], key := "funding", whole := true,
      default := .int Plan.overlordFunding }]

/-- The address of a loaded role. -/
def addressOf (accounts : Roster) (role : String) : Except Fault String :=
  (Plan.keyOf accounts role).map Key.address

/-- The phases to run. -/
def phases (settings : Settings τ) (accounts : Roster) (args : Arguments) :
    Except Fault (List (Phase τ)) :=
  Plan.preparation accounts settings.pallets { funding := argument args "funding" }

/-- Initializes the sale. -/
def perform (host : Host ν τ) : Act (World ν τ) Unit := do
  let args ← Act.ofExcept (grammar.parse host.arguments)
  let settings ← hostSettings host args
  banner "PHALA WORLD - Initialize NFT Sale"
  let accounts ← Act.ofExcept (loadAccounts host.keyring settings ["root", "overlord"])
  World.print ("👑 Root: " ++ (← Act.ofExcept (addressOf accounts "root")))
  World.print ("🛡️  Overlord: " ++ (← Act.ofExcept (addressOf accounts "overlord")))
  withSession host settings do
    let count ← play (scriptFor host.node settings accounts) (phases settings accounts args)
    say s!"\n✅ Sale initialized ({count} extrinsics submitted)"

end Campaign.Command.Initialize
