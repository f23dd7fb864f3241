import Campaign.Keyring
import Campaign.Value.Access
import Campaign.World

/-!
# The client

What a run asks of the node: stored values and maps, the nonce of an account, calls and their
submission. A refusal by the node becomes a rejection that names signer, nonce and call; any other
fault of the node passes through. `Client.waitForNonce` waits until an account's nonce on chain has
reached a target.
-/

namespace Campaign.Client

variable {ν τ : Type}

/-- Parameters, or something empty in place of false ones. -/
def orEmpty (params empty : Value) : Value := if params.truthy then params else empty

/-- Asks for a stored value. -/
def find? (node : Node ν τ) (pallet storage params : Value) : Act (World ν τ) (Option Value) :=
  World.call (fun now => node.query now pallet storage params) (.queried pallet storage params)

/-- A stored value, or nothing. -/
def query (node : Node ν τ) (pallet storage params : Value) : Act (World ν τ) Value := do
  let found ← find? node pallet storage (orEmpty params (.list []))
  return found.getD .null

/-- The entries of a stored map. -/
def queryMap (node : Node ν τ) (pallet storage params : Value) :
    Act (World ν τ) (List (Value × Value)) :=
  let params := orEmpty params (.list [])
  World.call (fun now => node.queryMap now pallet storage params)
    (.mapQueried pallet storage params)

/-- The nonce in the record of an account. -/
def nonceOf (account : Option Value) : Except Fault Int :=
  match account with
  | none => .error (.noAttribute "NoneType" "value")
  | some record => do (← record.item "nonce").whole

/-- Reads the nonce of an account on chain. -/
def accountNonce (node : Node ν τ) (address : Value) : Act (World ν τ) Int := do
  let account ← find? node "System" "Account" (.list [address])
  Act.ofExcept (nonceOf account)

/-- Composes a call. -/
def compose (node : Node ν τ) (pallet function params : Value) : Act (World ν τ) Value :=
  let params := orEmpty params (.dict [])
  World.call (fun _ => node.compose pallet function params) (.composed pallet function params)

/-- Wraps a call so that it runs with the highest rights. -/
def asRoot (node : Node ν τ) (call : Value) : Act (World ν τ) Value :=
  compose node "Sudo" "sudo" (.object [("call", call)])

/-- How a fault of a submission is reported. -/
def rejection (e : Extrinsic) : Fault → Fault
  | .refused reason => .rejected e.address e.nonce e.call reason
  | fault => fault

/-- Signs a call with a nonce and hands it to the node; gives its hash. Does not wait. -/
def submit (node : Node ν τ) (e : Extrinsic) : Act (World ν τ) (Option String) := do
  World.call (fun _ => node.sign e) (.signed e)
  match ← Act.attempt (World.call (fun _ => node.submit e) (.submitted e)) with
  | .ok hash =>
    World.note (.submitted hash e.nonce)
    return hash
  | .error fault => throw (rejection e fault)

section

variable [Seconds τ]

/-- Whether an account's nonce on chain reaches a target before a time has passed or, if one is
given, a deadline has expired. A nonce past the target counts as well. -/
def waitForNonce (node : Node ν τ) (address target : Value) (timeout interval : τ)
    (deadline : Option (World ν τ → Deadline τ)) : Act (World ν τ) Bool := do
  World.note (.waiting target address timeout)
  let reached : Act (World ν τ) Bool := do
    let nonce ← accountNonce node address
    Act.ofExcept (Value.atLeast (.int nonce) target)
  let ok ← match deadline with
    | none => World.waitFor timeout interval reached
    | some d => World.waitUntil d interval reached
  World.note (if ok then .reached target address else .timedOut timeout target address)
  return ok

end

/-- Opens a connection, unless something is in the way. -/
def connect (node : Node ν τ) (url : Value) (obstacle : Option Fault) :
    Act (World ν τ) Unit := do
  World.note (.connecting url)
  match obstacle with
  | some fault => throw fault
  | none =>
    World.record (.connected url)
    World.note (.connected node.describe)

/-- Closes the connection. -/
def close : Act (World ν τ) Unit := World.record .closed

/-- Runs a body between connecting and closing; the connection is closed however the body ends. -/
def withConnection {α : Type} (node : Node ν τ) (url : Value) (obstacle : Option Fault)
    (body : Act (World ν τ) α) : Act (World ν τ) α := do
  connect node url obstacle
  let outcome ← Act.attempt body
  close
  Act.ofExcept outcome

end Campaign.Client
