import Campaign.Command.Basic
import Campaign.Draw.Split
import Campaign.Inquiry
import Campaign.Plan.Drawing
import Campaign.Value.Json

/-!
# Drawing preorders

The command that mints chosen preorders and refunds the others. The ids are given, or winners are
drawn among the pending preorders on chain. A dry run only prints how the ids are divided.
-/

namespace Campaign.Command.Drawing

variable {ν τ : Type} [Seconds τ]

/-- The command line. -/
def grammar : Grammar where
  program := "preorder_drawing.py"
  switches := [
    endpointSwitch,
    { names := ["--chosen"], key := "chosen", takes := .many, whole := true },
    { names := ["--not-chosen"], key := "not_chosen", takes := .many, whole := true },
    { names := ["--winners"], key := "winners", whole := true },
    { names := ["--seed"], key := "seed" },
    { names := ["--dry-run"], key := "dry_run", takes := .nothing, default := .bool false }]

/-- Ids among the arguments, or standard ones. -/
def idsOf (args : Arguments) (key : String) (standard : List Int) : Value :=
  match argument args key with
  | .null => .list (standard.map .int)
  | ids => ids

/-- The ids to mint and the ids to refund. -/
def division (host : Host ν τ) (pallets : Pallets) (args : Arguments) :
    Act (Session ν τ) (Value × Value) := do
  match argument args "winners" with
  | .null =>
    return (idsOf args "chosen" Plan.chosenPreorders,
      idsOf args "not_chosen" Plan.notChosenPreorders)
  | winners =>
    let pending ← Session.inWorld (Inquiry.pendingPreorders host.node pallets)
    let count := pending.keys.length
    say s!"📋 {count} pending preorders"
    let (chosen, notChosen) ← Act.ofExcept
      (Draw.split pending.keys winners (argument args "seed") host.entropy)
    return (.list chosen, .list notChosen)

/-- A division as JSON text. -/
def divisionText (chosen notChosen : Value) : Except Fault String :=
  Value.Json.strictText (.object [("chosen", chosen), ("not_chosen", notChosen)])

/-- Resolves preorders. -/
def perform (host : Host ν τ) : Act (World ν τ) Unit := do
  let args ← Act.ofExcept (grammar.parse host.arguments)
  let settings ← hostSettings host args
  banner "PHALA WORLD - Preorder Drawing"
  withSession host settings do
    let (chosen, notChosen) ← division host settings.pallets args
    say (← Act.ofExcept (divisionText chosen notChosen))
    let phases ← Act.ofExcept (Plan.drawing chosen notChosen settings.pallets)
    if (argument args "dry_run").truthy then say "ℹ️  Dry run, nothing submitted"
    else do
      let accounts ← Act.ofExcept (loadAccounts host.keyring settings ["overlord"])
      let _ ← play (scriptFor host.node settings accounts) (.ok phases)
      say "✅ Preorders resolved"

end Campaign.Command.Drawing
