import Campaign.Client
import Campaign.Step

/-!
# Sessions

A session runs steps against one node. It tracks the next nonce of each account itself, so that
extrinsics go out back to back: the chain is read once per account, then the count moves on with
each extrinsic that the node has accepted, and only then. Nothing here notices that somebody else
has used a nonce; the node refuses the extrinsic instead, and a refusal ends the run.

A barrier waits until the nonce on chain has reached the tracked one, that is, until every extrinsic
accepted from the account is on chain.
-/

namespace Campaign

/-- What a run needs beside its phases. -/
structure Script (ν τ : Type) where
  node : Node ν τ
  accounts : Roster
  /-- How long a barrier waits that does not say so itself. -/
  barrierTimeout : τ
  /-- How long a wait pauses between two looks. -/
  pollInterval : τ

/-- An accepted extrinsic in the record of a run. -/
structure Sent where
  role : Value
  call : String
  nonce : Int
  hash : Option String

/-- The world, the tracked nonces, and the record of accepted extrinsics. -/
structure Session (ν τ : Type) where
  world : World ν τ
  nonces : Tracker := .empty
  sent : List Sent := []

/-- Whether an account is tracked. -/
def Tracker.contains (t : Tracker) (address : Value) : Except Fault Bool := do
  address.keyable
  return t.has address

/-- The next nonce of a tracked account. -/
def Tracker.peek (t : Tracker) (address : Value) : Except Fault Int := do
  address.keyable
  match t.get? address with
  | some nonce => return nonce
  | none => throw (.untracked address.shown)

namespace Session

variable {ν τ : Type}

/-- An action on the world. -/
def inWorld {α : Type} (act : Act (World ν τ) α) : Act (Session ν τ) α :=
  Act.within Session.world (fun w s => { s with world := w }) act

/-- Sets the next nonce of an account. -/
def track (address : Value) (nonce : Int) : Act (Session ν τ) Unit := do
  Act.ofExcept address.keyable
  modify fun s => { s with nonces := s.nonces.put address nonce }

/-- Reads the nonce of an account on chain and tracks it from there. -/
def startTracking (node : Node ν τ) (address : Value) : Act (Session ν τ) Int := do
  let nonce ← inWorld (Client.accountNonce node address)
  track address nonce
  inWorld (World.note (.nonceRead address nonce))
  return nonce

/-- The next nonce of an account, which stays. -/
def peekNonce (address : Value) : Act (Session ν τ) Int := do
  Act.ofExcept ((← get).nonces.peek address)

/-- The next nonce of an account, which moves on. -/
def takeNonce (address : Value) : Act (Session ν τ) Int := do
  let nonce ← peekNonce address
  track address (nonce + 1)
  return nonce

end Session

namespace Script

variable {ν τ : Type}

/-- The key of a role. -/
def key (script : Script ν τ) (role : Value) : Except Fault Key := do
  match ← script.accounts.key? role with
  | some k => return k
  | none => throw (.unknownRole role.shown)

/-- The address of a role. -/
def address (script : Script ν τ) (role : Value) : Except Fault String :=
  (script.key role).map Key.address

/-- Tracks one role from its nonce on chain. -/
def startRole (script : Script ν τ) (role : Value) : Act (Session ν τ) Int := do
  let address ← Act.ofExcept (script.address role)
  let nonce ← Session.startTracking script.node address
  Session.inWorld (World.note (.starting role address nonce))
  return nonce

/-- Tracks some roles in order, and gives the nonces they start from. -/
def startRoles (script : Script ν τ) (started : Table Value Int) :
    List Value → Act (Session ν τ) (Table Value Int)
  | [] => return started
  | role :: rest => do
    let nonce ← script.startRole role
    startRoles script (started.put role nonce) rest

/-- Tracks all roles. -/
def start (script : Script ν τ) : Act (Session ν τ) (Table Value Int) :=
  script.startRoles .empty (script.accounts.keys.map .text)

/-- Tracks the roles that a value holds. -/
def startSome (script : Script ν τ) (roles : Value) : Act (Session ν τ) (Table Value Int) := do
  script.startRoles .empty (← Act.ofExcept roles.items)

/-- Composes the call of a step. -/
def composeCall (script : Script ν τ) (s : Submit) (params : Value) : Act (World ν τ) Value := do
  let call ← Client.compose script.node s.pallet s.function params
  if s.asRoot.truthy then Client.asRoot script.node call else return call

/-- Tracks an account that is not tracked yet. -/
def ensureTracked (script : Script ν τ) (address : String) : Act (Session ν τ) Unit := do
  unless (← get).nonces.has address do
    let _ ← Session.startTracking script.node address

/-- Composes, signs and sends one extrinsic, and gives its hash. The tracked nonce moves on, and the
record grows, only when the node has accepted it. -/
def submit (script : Script ν τ) (s : Submit) : Act (Session ν τ) (Option String) := do
  let address ← Act.ofExcept (script.address s.account)
  script.ensureTracked address
  let params ← Act.ofExcept (s.params.resolve (← get).nonces)
  let call ← Session.inWorld (script.composeCall s params)
  let nonce ← Session.peekNonce address
  Session.inWorld (World.note (.sending s.account s.callName nonce))
  let hash ← Session.inWorld (Client.submit script.node { address, nonce, call })
  let _ ← Session.takeNonce address
  modify fun st => { st with sent := st.sent ++ [⟨s.account, s.callName, nonce, hash⟩] }
  return hash

section

variable [Seconds τ]

/-- Waits until everything accepted from an account is on chain; says whether it came to that. -/
def wait (script : Script ν τ) (b : Barrier τ) : Act (Session ν τ) Bool := do
  let address ← Act.ofExcept (script.address b.account)
  let target ← Session.peekNonce address
  let timeout := b.timeout.getD script.barrierTimeout
  let ok ← Session.inWorld
    (Client.waitForNonce script.node address (.int target) timeout script.pollInterval none)
  if !ok && b.strict.truthy then
    throw (.barrierTimeout b.account.shown target (Seconds.text timeout))
  return ok

/-- What a step ends with. -/
inductive Result where
  | receipt (hash : Option String)
  | reached (ok : Bool)
  | paused
  deriving DecidableEq, Repr

/-- Runs one step. -/
def execute (script : Script ν τ) : Step τ → Act (Session ν τ) Result
  | .submit s => return .receipt (← script.submit s)
  | .barrier b => return .reached (← script.wait b)
  | .pause seconds => do
    Session.inWorld do
      World.note (.pausing seconds)
      World.sleep seconds
    return .paused
  | .other v => throw (.unsupportedStep v)

/-- Runs the steps of a phase from an index on. An error is noted with the place it came from. -/
def runSteps (script : Script ν τ) (phase : Phase τ) (index : Nat) :
    List (Step τ) → Act (Session ν τ) Unit
  | [] => return ()
  | step :: rest => do
    match ← Act.attempt (script.execute step) with
    | .ok _ => runSteps script phase (index + 1) rest
    | .error fault =>
      if fault.isError then
        Session.inWorld
          (World.note (.phaseFailed phase.name index phase.steps.length step.text))
      throw fault

/-- Runs a phase. -/
def runPhase (script : Script ν τ) (phase : Phase τ) : Act (Session ν τ) Unit := do
  Session.inWorld (World.note (.phaseBegun phase.name))
  script.runSteps phase 1 phase.steps
  Session.inWorld (World.note (.phaseDone phase.name))

/-- Runs phases in order, up to the first that fails, and gives the record of the session. -/
def run (script : Script ν τ) : List (Phase τ) → Act (Session ν τ) (List Sent)
  | [] => return (← get).sent
  | phase :: rest => do
    script.runPhase phase
    run script rest

end

end Script

end Campaign
