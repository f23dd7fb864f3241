import Campaign.Kind
import Campaign.Seconds
import Campaign.Table

/-!
# Steps and phases

A campaign is a list of phases, a phase a list of steps: submit a call, wait at a barrier until an
account's extrinsics are on chain, or pause. The parameters of a call may be worked out only when it
is submitted, from the nonces tracked by then. Roles name the accounts. Roles, names and flags are
values, since a plan may come from outside: a text is a name, and a flag counts as it is true or
false.

`Step.text` writes a step inside a message.
-/

namespace Campaign

/-- The next nonce of each tracked account. -/
abbrev Tracker := Table Value Int

/-- Parameters of a call. -/
inductive Params where
  | absent
  | given (v : Value)
  /-- Worked out when the call is submitted. -/
  | deferred (make : Tracker → Except Fault Value)

/-- A call to sign and submit. -/
structure Submit where
  account : Value
  pallet : Value
  function : Value
  params : Params := .absent
  /-- Whether the call runs with the highest rights. -/
  asRoot : Value := .bool false

/-- A wait until an account's submissions are on chain. -/
structure Barrier (τ : Type) where
  account : Value
  /-- How long to wait, where it is not the default. -/
  timeout : Option τ := none
  /-- Whether the run fails when time runs out. -/
  strict : Value := .bool false

/-- A step of a run. -/
inductive Step (τ : Type) where
  | submit (s : Submit)
  | barrier (b : Barrier τ)
  | pause (seconds : τ)
  /-- Something that is no step. -/
  | other (v : Value)

/-- Steps under a name. -/
structure Phase (τ : Type) where
  name : Value
  steps : List (Step τ) := []

namespace Params

/-- The parameters at the time of submission, nothing if there are none. -/
def resolve (tracker : Tracker) : Params → Except Fault Value
  | .absent => .ok .null
  | .given v => .ok v
  | .deferred make => make tracker

/-- Parameters inside a message. -/
def text : Params → String
  | .absent => "None"
  | .given v => v.written
  | .deferred _ => "<callable>"

end Params

/-- The name of a call in notices and in the record of a run. -/
def Submit.callName (s : Submit) : String :=
  let name := s.pallet.shown ++ "." ++ s.function.shown
  if s.asRoot.truthy then "Sudo(" ++ name ++ ")" else name

/-- A submission inside a message. -/
def Submit.text (s : Submit) : String :=
  "Submit(account=" ++ s.account.written ++ ", module=" ++ s.pallet.written ++
    ", function=" ++ s.function.written ++ ", params=" ++ s.params.text ++
    ", sudo=" ++ s.asRoot.written ++ ")"

variable {τ : Type} [Seconds τ]

/-- A barrier inside a message. -/
def Barrier.text (b : Barrier τ) : String :=
  "Barrier(account=" ++ b.account.written ++ ", timeout=" ++
    (b.timeout.map Seconds.written).getD "None" ++ ", strict=" ++ b.strict.written ++ ")"

/-- A step inside a message. -/
def Step.text : Step τ → String
  | .submit s => s.text
  | .barrier b => b.text
  | .pause seconds => "Pause(seconds=" ++ Seconds.written seconds ++ ")"
  | .other v => v.shown

end Campaign
