import Campaign.Node
import Campaign.Seconds

/-!
# The journal

What a run does is written down as it happens: the notices it gives, its calls to the node with
their outcomes, connections, printed text and written files. `Notice.text` and `Notice.level` say
how a notice reads and how grave it is; `Event.shown` keeps the notices that reach the log.
-/

namespace Campaign

/-- How grave a notice is. -/
inductive Level where
  | debug | info | success | warning | error
  deriving DecidableEq, Repr

namespace Level

/-- The name of a level. -/
def name : Level → String
  | .debug => "DEBUG"
  | .info => "INFO"
  | .success => "SUCCESS"
  | .warning => "WARNING"
  | .error => "ERROR"

/-- The severity of a level. -/
def severity : Level → Nat
  | .debug => 10
  | .info => 20
  | .success => 25
  | .warning => 30
  | .error => 40

/-- The severity from which on a log with a named threshold shows notices. -/
def threshold? : String → Option Nat
  | "TRACE" => some 5
  | "DEBUG" => some 10
  | "INFO" => some 20
  | "SUCCESS" => some 25
  | "WARNING" => some 30
  | "ERROR" => some 40
  | "CRITICAL" => some 50
  | _ => none

end Level

/-- What a run tells of itself. -/
inductive Notice (τ : Type) where
  | connecting (url : Value)
  | connected (description : String)
  | submitted (hash : Option String) (nonce : Int)
  | nonceRead (address : Value) (nonce : Int)
  | waiting (target address : Value) (timeout : τ)
  | reached (target address : Value)
  | timedOut (timeout : τ) (target address : Value)
  | starting (role : Value) (address : String) (nonce : Int)
  | sending (role : Value) (call : String) (nonce : Int)
  | pausing (seconds : τ)
  | phaseBegun (name : Value)
  | phaseDone (name : Value)
  | phaseFailed (name : Value) (index count : Nat) (step : String)
  | interrupted
  | failed (kind message : String)

namespace Notice

variable {τ : Type}

/-- How grave a notice is. -/
def level : Notice τ → Level
  | .submitted _ _ | .nonceRead _ _ | .waiting _ _ _ | .reached _ _ | .pausing _ => .debug
  | .connecting _ | .connected _ | .starting _ _ _ | .sending _ _ _ | .phaseBegun _ => .info
  | .phaseDone _ => .success
  | .timedOut _ _ _ | .interrupted => .warning
  | .phaseFailed _ _ _ _ | .failed _ _ => .error

/-- The wording of a notice. -/
def text [Seconds τ] : Notice τ → String
  | .connecting url => "Connecting to " ++ url.shown ++ "..."
  | .connected description => "Connected to " ++ description
  | .submitted hash nonce =>
    let shown := hash.getD "None"
    s!"Submitted {shown} (nonce {nonce})"
  | .nonceRead address nonce => "Nonce for " ++ address.shown ++ s!" initialized at {nonce}"
  | .waiting target address timeout =>
    "Waiting for nonce " ++ target.shown ++ " on " ++ address.shown ++
      " (timeout " ++ Seconds.text timeout ++ "s)"
  | .reached target address => "Nonce " ++ target.shown ++ " reached on " ++ address.shown
  | .timedOut timeout target address =>
    "Timed out after " ++ Seconds.text timeout ++ "s waiting for nonce " ++ target.shown ++
      " on " ++ address.shown
  | .starting role address nonce => role.shown ++ s!": {address} nonce {nonce}"
  | .sending role call nonce => role.shown ++ s!" -> {call} (nonce {nonce})"
  | .pausing seconds => "Pausing " ++ Seconds.text seconds ++ "s"
  | .phaseBegun name => name.shown ++ "..."
  | .phaseDone name => name.shown ++ "...Done"
  | .phaseFailed name index count step =>
    name.shown ++ s!": failed at step {index}/{count} ({step})"
  | .interrupted => "Interrupted"
  | .failed kind message => s!"❌ {kind}: {message}"

end Notice

/-- Something that happened. -/
inductive Event (τ : Type) where
  | noticed (notice : Notice τ)
  | queried (pallet storage params : Value) (answer : Except Fault (Option Value))
  | mapQueried (pallet storage params : Value) (answer : Except Fault (List (Value × Value)))
  | composed (pallet function params : Value) (answer : Except Fault Value)
  | signed (extrinsic : Extrinsic) (answer : Except Fault Unit)
  | submitted (extrinsic : Extrinsic) (answer : Except Fault (Option String))
  | connected (url : Value)
  | closed
  | printed (text : String)
  | wrote (path text : String)
  /-- The log was set up anew: with a threshold, or so that it shows nothing. -/
  | logging (threshold : Option Nat)

namespace Event

variable {τ : Type}

/-- The notices that reach the log, in order, when the log starts out with a threshold. -/
def shown : Option Nat → List (Event τ) → List (Notice τ)
  | _, [] => []
  | _, .logging threshold :: rest => shown threshold rest
  | threshold, .noticed n :: rest =>
    match threshold with
    | some t => if t ≤ n.level.severity then n :: shown threshold rest else shown threshold rest
    | none => shown threshold rest
  | threshold, _ :: rest => shown threshold rest

/-- The text printed, in order. -/
def printedText (events : List (Event τ)) : String :=
  String.join (events.filterMap fun
    | .printed text => some text
    | _ => none)

end Event

end Campaign
