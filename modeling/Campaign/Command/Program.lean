import Campaign.Command.Drawing
import Campaign.Command.Incubate
import Campaign.Command.Initialize
import Campaign.Command.Populate
import Campaign.Command.Query
import Campaign.Command.Sign
import Campaign.Command.Transact

/-!
# Programs

The commands by the names of their programs, and how a program ends for whoever started it: with a
status and, if its command line could not be read, with a complaint.
-/

namespace Campaign.Command

variable {ν τ : Type} [Seconds τ]

/-- The programs. -/
def programs : List (String × (Host ν τ → Act (World ν τ) Unit)) := [
  ("init", Initialize.perform),
  ("populate_dummy_data", Populate.perform),
  ("incubation_process", Incubate.perform),
  ("preorder_drawing", Drawing.perform),
  ("queries", Query.perform),
  ("signer", Sign.perform),
  ("transactions", Transact.perform)]

/-- How a program ends. -/
structure Ending where
  status : Nat
  /-- What was wrong with the command line. -/
  complaint : Option String := none
  deriving DecidableEq, Repr

/-- The ending for the outcome of a run: a complaint has status 2, help counts as success, and any
other request to exit as failure. -/
def Ending.ofOutcome : Except Fault Nat → Ending
  | .ok status => { status }
  | .error (.usage complaint) => { status := 2, complaint := some complaint }
  | .error .helpShown => { status := 0 }
  | .error _ => { status := 1 }

/-- Starts a program by name in a world, whose log shows notices from `debug` on until the program
sets it up; gives the ending and the world it leaves. -/
def start? (name : String) (host : Host ν τ) (w : World ν τ) : Option (Ending × World ν τ) :=
  (programs.lookup name).map fun perform =>
    let (outcome, w) := (run (perform host)).runOn w
    (.ofOutcome outcome, w)

end Campaign.Command
