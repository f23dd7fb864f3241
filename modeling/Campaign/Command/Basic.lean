import Campaign.Arguments
import Campaign.Session
import Campaign.Settings

/-!
# What all commands share

A command reads its settings, sets up the log, loads the keys of the accounts it needs, connects and
works. `run` turns the way it ends into an exit status: 0 for a result, 130 for an interruption, 1
for an error, which it reports. A request to exit passes through.
-/

namespace Campaign.Command

variable {ν τ : Type} [Seconds τ]

/-- What a command finds around it. -/
structure Host (ν τ : Type) where
  arguments : List String
  environment : Environment
  files : Files
  keyring : Keyring
  node : Node ν τ
  /-- What is in the way of connecting to the node. -/
  obstacle : Option Fault
  /-- The random words that the system gives a draw without a seed. -/
  entropy : List UInt32 := []

/-- The option that names the endpoint of the node. -/
def endpointSwitch : Switch := { names := ["--endpoint"], key := "endpoint" }

/-- An argument, or nothing. -/
def argument (args : Arguments) (key : String) : Value := (args.get? key).getD .null

/-- A text among the arguments that is there and not empty. -/
def textArgument? (args : Arguments) (key : String) : Option String :=
  match argument args key with
  | .text s => if s.isEmpty then none else some s
  | _ => none

/-- Prints a title between two rules. -/
def banner (title : Value) : Act (World ν τ) Unit := do
  let rule := String.ofList (List.replicate 60 '=')
  World.print rule
  World.print ("  " ++ title.shown)
  World.print rule

/-- Sets up the log to show notices from a named level on. For a name that is no level, nothing is
shown any more. -/
def setUpLog (level : String) : Act (World ν τ) Unit := do
  World.record (.logging none)
  match Level.threshold? level with
  | none => throw (.unknownLevel level)
  | some t => World.record (.logging (some t))

/-- Settings from the surroundings, with an endpoint from the arguments if one is given, and the log
set up by them. -/
def settingsFor (environment : Environment) (files : Files) (endpoint : Value) :
    Act (World ν τ) (Settings τ) := do
  let settings : Settings τ ← Act.ofExcept (Settings.load environment files true).2
  let settings := if endpoint.truthy then { settings with endpoint } else settings
  setUpLog settings.logLevel.shown
  return settings

/-- The settings of a command with its arguments. -/
def hostSettings (host : Host ν τ) (args : Arguments) : Act (World ν τ) (Settings τ) :=
  settingsFor host.environment host.files (argument args "endpoint")

/-- The key of one role. -/
def loadAccount (keyring : Keyring) (settings : Settings τ) (role : Value) : Except Fault Key := do
  keyring.key (← settings.secret role) role

/-- The keys of some roles, in order. -/
def loadAccounts (keyring : Keyring) (settings : Settings τ) (roles : List Value) :
    Except Fault Roster :=
  roles.foldlM (fun (loaded : Roster) role => do
    return loaded.put role.shown (← loadAccount keyring settings role)) .empty

/-- A script with the waiting times of the settings. -/
def scriptFor (node : Node ν τ) (settings : Settings τ) (accounts : Roster) : Script ν τ where
  node := node
  accounts := accounts
  barrierTimeout := settings.barrierTimeout
  pollInterval := settings.pollInterval

/-- Prints a line in a session. -/
def say (line : String) : Act (Session ν τ) Unit := Session.inWorld (World.print line)

/-- Runs phases on all accounts of a script, and gives how many extrinsics were sent. -/
def play (script : Script ν τ) (phases : Except Fault (List (Phase τ))) :
    Act (Session ν τ) Nat := do
  let _ ← script.start
  return (← script.run (← Act.ofExcept phases)).length

/-- Runs a command and gives its exit status. -/
def run {α : Type} (body : Act (World ν τ) α) : Act (World ν τ) Nat := do
  match ← Act.attempt body with
  | .ok _ => return 0
  | .error (.interrupted _) =>
    World.note .interrupted
    return 130
  | .error fault =>
    if fault.isError then
      World.note (.failed fault.kind fault.message)
      return 1
    else throw fault

/-- A command with a session of its own between connecting and closing. -/
def withSession {α : Type} (host : Host ν τ) (settings : Settings τ)
    (body : Act (Session ν τ) α) : Act (World ν τ) α :=
  Client.withConnection host.node settings.endpoint host.obstacle fun w =>
    match body { world := w } with
    | .ok a s => .ok a s.world
    | .error f s => .error f s.world

end Campaign.Command
