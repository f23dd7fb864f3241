import Campaign.Command.Program
import Campaign.Node.Sequential

/-!
# Command line

`campaign PROGRAM ARGUMENT...` starts a program against a node in memory, on a clock that moves only
when the program sleeps. The binding file of the working directory, the variables that it or the
settings refer to, and random words for a draw without a seed are read first. What was printed goes
to standard output, the log to standard error, and a written file to its place.
-/

open Campaign

/-- The text of a file, if it can be read. -/
def readText? (path : String) : IO (Option String) := do
  try
    return some (← IO.FS.readFile path)
  catch _ => return none

/-- The variables of some names. -/
def readVariables (names : List String) : IO Environment := do
  let mut env : Environment := .empty
  for name in names do
    if let some text ← IO.getEnv name then
      env := env.put name text
  return env

/-- Random words, as many as a generator has words of state. -/
def readEntropy : IO (List UInt32) := do
  let data ← IO.getRandomBytes (4 * Draw.Twister.size).toUSize
  return (List.range Draw.Twister.size).map fun i =>
    UInt32.ofNat (Draw.Seed.ofBytes (data.extract (4 * i) (4 * i + 4)).toList)

/-- Carries out what a program left in its journal. -/
def deliver (journal : List (Event Value)) : IO Unit := do
  IO.print (Event.printedText journal)
  for notice in Event.shown (some Level.debug.severity) journal do
    IO.eprintln s!"{notice.level.name} | {notice.text}"
  for event in journal do
    if let .wrote path text := event then
      IO.FS.writeFile path text

/-- Starts a program. -/
def main (arguments : List String) : IO UInt32 := do
  let found ← readText? ".env"
  let environment ← readVariables
    (Settings.variables ++ Environment.Reference.names (found.getD "").toList)
  let host : Command.Host Sequential.State Value := {
    arguments := arguments.drop 1
    environment
    files := { texts := .ofList ((found.map fun text => (".env", text)).toList) }
    keyring := {}
    node := Sequential.node {}
    obstacle := none
    entropy := ← readEntropy }
  match Command.start? (arguments.headD "") host { node := {}, clock := { now := .float 0 } } with
  | none =>
    let names := ", ".intercalate (Command.programs (ν := Unit) (τ := Value) |>.map (·.1))
    IO.eprintln s!"usage: campaign PROGRAM ARGUMENT...; programs: {names}"
    return 2
  | some (ending, world) =>
    deliver world.journal.reverse
    if let some complaint := ending.complaint then IO.eprintln complaint
    return ending.status.toUInt32
