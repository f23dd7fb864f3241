import Campaign.Command.Basic
import Campaign.Plan.Incubation

/-!
# Incubating

The command that opens incubation, has the test accounts feed each other's origins of shell and
shortens hatch times.
-/

namespace Campaign.Command.Incubate

variable {ν τ : Type} [Seconds τ]

/-- The command line. -/
def grammar : Grammar where
  program := "incubation_process.py"
  switches := [
    endpointSwitch,
    { names := ["--collection-id"], key := "collection_id", whole := true,
      default := .int Plan.shellCollection }]

/-- The phases to run. -/
def phases (settings : Settings τ) (args : Arguments) : List (Phase τ) :=
  Plan.incubation settings.pallets (argument args "collection_id")

/-- Runs the incubation. -/
def perform (host : Host ν τ) : Act (World ν τ) Unit := do
  let args ← Act.ofExcept (grammar.parse host.arguments)
  let settings ← hostSettings host args
  banner "PHALA WORLD - Incubation Process"
  let accounts ← Act.ofExcept (loadAccounts host.keyring settings (roles.map .text))
  withSession host settings do
    let count ← play (scriptFor host.node settings accounts) (.ok (phases settings args))
    say s!"\n🥚 Incubation started ({count} extrinsics submitted)"

end Campaign.Command.Incubate
