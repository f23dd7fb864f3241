import Campaign.Command.Basic
import Campaign.Plan.Sale

/-!
# Populating the sale

The command that walks the test accounts through every status of the sale.
-/

namespace Campaign.Command.Populate

variable {ν τ : Type} [Seconds τ]

/-- The command line. -/
def grammar : Grammar where
  program := "populate_dummy_data.py"
  switches := [endpointSwitch]

/-- A role and its address in columns. -/
def row (role address : String) : String :=
  "   " ++ role ++ String.ofList (List.replicate (9 - role.length) ' ') ++ " " ++ address

/-- The phases to run. -/
def phases (settings : Settings τ) (accounts : Roster) : List (Phase τ) :=
  Plan.population accounts settings.pallets

/-- Populates the sale. -/
def perform (host : Host ν τ) : Act (World ν τ) Unit := do
  let args ← Act.ofExcept (grammar.parse host.arguments)
  let settings ← hostSettings host args
  banner "PHALA WORLD - Populate Dummy Data"
  let accounts ← Act.ofExcept (loadAccounts host.keyring settings (roles.map .text))
  accounts.entries.forM fun (role, key) => World.print (row role key.address)
  withSession host settings do
    let count ← play (scriptFor host.node settings accounts) (.ok (phases settings accounts))
    say s!"\n🎉 Done ({count} extrinsics submitted)"

end Campaign.Command.Populate
