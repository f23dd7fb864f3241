import Campaign.Environment.Load
import Campaign.Seconds
import Campaign.Text.Upper
import Campaign.Value.Access

/-!
# Settings

What an environment says about endpoint, keys, waiting, pallets and logging. A variable that is
absent or empty means the default. The overlord's key has an older name, which counts when the
newer one is absent or empty. Secrets are not looked at here: a bad one shows when a key is derived.

The variables of a process are texts, but settings may be read from any values by name: times from
whatever is a number, and the level of the log from what has letters.
-/

namespace Campaign

/-- The endpoint of a node on this machine. -/
def localNode : String := "ws://127.0.0.1:9944"

/-- The variables that hold the secrets of the roles. -/
def keyVariables : List (String × String) :=
  [("root", "ROOT_PRIVKEY"), ("user", "USER_PRIVKEY"), ("overlord", "OVERLORD_PRIVKEY"),
    ("ferdie", "FERDIE_PRIVKEY"), ("charlie", "CHARLIE_PRIVKEY"), ("david", "DAVID_PRIVKEY"),
    ("eve", "EVE_PRIVKEY")]

/-- Older names of such variables. -/
def olderKeyVariables : List (String × String) := [("overlord", "OVERLOAD_PRIVKEY")]

/-- The variables that say something. -/
def Settings.variables : List String :=
  ["ENDPOINT", "PW_BARRIER_TIMEOUT", "PW_POLL_INTERVAL", "PW_NFT_SALE_PALLET",
    "PW_INCUBATION_PALLET", "LOG_LEVEL", Environment.switch] ++
    (keyVariables ++ olderKeyVariables).map (·.2)

/-- The roles that have a key. -/
def roles : List String := keyVariables.map (·.1)

/-- The names of the pallets that the campaign calls. -/
structure Pallets where
  sale : Value := "PwNftSale"
  incubation : Value := "PwIncubation"

/-- What an environment says. -/
structure Settings (τ : Type) where
  endpoint : Value
  /-- The secret of each role, or nothing. -/
  secrets : Table String Value
  barrierTimeout : τ
  pollInterval : τ
  pallets : Pallets
  logLevel : Value

namespace Settings

variable {τ : Type} [Seconds τ]

/-- How long a barrier waits by default. -/
def defaultBarrierTimeout : τ := Seconds.ofReading (.decimal false 60 0)

/-- How long a wait pauses between two looks by default. -/
def defaultPollInterval : τ := Seconds.ofReading (.decimal false 1 (-1))

/-- The value of a variable, or nothing. -/
def given (env : Table String Value) (name : String) : Value := (env.get? name).getD .null

/-- The value of a variable that is there and not empty, else a default. -/
def filled (env : Table String Value) (name : String) (default : Value) : Value :=
  let v := given env name
  if v.truthy then v else default

/-- The secret of a role, or nothing. -/
def secretOf (env : Table String Value) (role name : String) : Value :=
  filled env name
    (match olderKeyVariables.lookup role with
      | some older => filled env older .null
      | none => .null)

/-- The number that a value stands for, if it is a number or the text of one. -/
def reading? : Value → Except Fault (Option Decimal.Reading)
  | .text s => .ok (Decimal.Reading.ofText? s)
  | .bytes data => .ok (Decimal.Reading.ofText? (String.ofList (Value.asciiOf data)))
  | v =>
    match v.number? with
    | none => .error (.noSeconds v.typeName)
    | some n =>
      match n.toFloat? with
      | none => .error .tooLarge
      | some x => .ok (Decimal.Reading.ofText? (Decimal.floatText x))

/-- A number of seconds. Only an absent variable and an empty text mean the default. -/
def secondsOf (env : Table String Value) (name : String) (default : τ) : Except Fault τ :=
  match given env name with
  | .null | .text "" => .ok default
  | v => do
    match ← reading? v with
    | some r => return Seconds.ofReading r
    | none => throw (.notNumber name v)

/-- A value with its letters in upper case, if it has letters. -/
def upper : Value → Except Fault Value
  | .text s => .ok (.text (Text.upper s))
  | .bytes data => .ok (.bytes (data.map fun b => if 97 ≤ b && b ≤ 122 then b - 32 else b))
  | v => .error (.noAttribute v.typeName "upper")

/-- The settings that values by name give. -/
def ofVariables (env : Table String Value) : Except Fault (Settings τ) := do
  let barrierTimeout ← secondsOf env "PW_BARRIER_TIMEOUT" defaultBarrierTimeout
  let pollInterval ← secondsOf env "PW_POLL_INTERVAL" defaultPollInterval
  let logLevel ← upper (filled env "LOG_LEVEL" "INFO")
  return {
    endpoint := filled env "ENDPOINT" localNode
    secrets := ⟨keyVariables.map fun (role, name) => (role, secretOf env role name)⟩
    barrierTimeout
    pollInterval
    pallets := {
      sale := filled env "PW_NFT_SALE_PALLET" "PwNftSale"
      incubation := filled env "PW_INCUBATION_PALLET" "PwIncubation" }
    logLevel }

/-- The settings of an environment. -/
def ofEnvironment (env : Environment) : Except Fault (Settings τ) := ofVariables (env.map .text)

/-- The secret of a role, or nothing. -/
def secret (s : Settings τ) (role : Value) : Except Fault Value := do
  role.keyable
  return (role.text?.bind s.secrets.get?).getD .null

/-- Loads the nearest binding file, unless told not to, and reads the settings; also gives the
environment that this leaves. -/
def load (env : Environment) (files : Files) (withFile : Bool) :
    Environment × Except Fault (Settings τ) :=
  let (env, fault) := if withFile then env.load files else (env, none)
  match fault with
  | some fault => (env, .error fault)
  | none => (env, ofEnvironment env)

end Settings

end Campaign
