import Campaign.Command.Basic
import Campaign.Report
import Campaign.Value.Json

/-!
# Querying

The command that prints the report on an account as JSON, and writes it to a file if one is named.
Without an account, it is the user's.
-/

namespace Campaign.Command.Query

variable {ν τ : Type} [Seconds τ]

/-- The command line. -/
def grammar : Grammar where
  program := "queries.py"
  switches := [
    endpointSwitch,
    { names := ["--account"], key := "account" },
    { names := ["--output"], key := "output" }]

/-- The address to report on. -/
def addressFor (host : Host ν τ) (settings : Settings τ) (args : Arguments) :
    Except Fault String :=
  match textArgument? args "account" with
  | some address => .ok address
  | none => (loadAccount host.keyring settings "user").map Key.address

/-- Writes a text to a file. What goes out of the tree leaves no trace. -/
def save (files : Files) (path text : String) : Act (World ν τ) Unit := do
  match ← Act.ofExcept (files.place path) with
  | some place => World.record (.wrote place text)
  | none => return ()

/-- Prints the report. -/
def perform (host : Host ν τ) : Act (World ν τ) Unit := do
  let args ← Act.ofExcept (grammar.parse host.arguments)
  let settings ← hostSettings host args
  banner "PHALA WORLD - Queries"
  let address ← Act.ofExcept (addressFor host settings args)
  World.print ("📍 Account: " ++ address)
  Client.withConnection host.node settings.endpoint host.obstacle do
    let report ← Report.ofChain host.node settings.pallets address
    let text ← Act.ofExcept (Value.Json.text report.toValue)
    World.print text
    match textArgument? args "output" with
    | none => return ()
    | some path => do
      save host.files path (text ++ "\n")
      World.print ("\n💾 Report saved to: " ++ path)

end Campaign.Command.Query
