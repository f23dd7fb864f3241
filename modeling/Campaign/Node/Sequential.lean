import Campaign.Keyring
import Campaign.Node
import Campaign.Seconds
import Campaign.Value.Access

/-!
# A node that takes nonces in sequence

This node keeps, for each address, the nonce of its next extrinsic in the pool and the nonce that is
included on chain. It takes an extrinsic exactly when its nonce is the pool's next one. What it has
taken is included at once, or after a number of reads of account records.

Beside that it can be set up to refuse or fail at given attempts, to have foreign uses of a nonce
happen just before an attempt (`bump`), to show other nonces from given times on, and to answer with
records of its own.
-/

namespace Campaign.Sequential

/-- How a node is set up. -/
structure Setup (τ : Type) where
  chain : Value := "Development"
  version : Value := "1.0.0"
  /-- How many reads pass before an extrinsic is included. -/
  includeAfter : Int := 0
  /-- Records shown in place of the node's own. -/
  records : Table String Value := .empty
  /-- Nonces shown from a time on. -/
  schedule : List (τ × String × Int) := []
  /-- How given attempts fail. -/
  failures : List (Int × Fault) := []
  /-- Addresses whose next nonce is used by somebody else just before an attempt. -/
  bumps : List (Int × String) := []
  /-- Whether receipts carry a hash. -/
  hashes : Bool := true
  storage : List (Value × Value × Value × Value) := []
  maps : List (Value × Value × Value × List (Value × Value)) := []

/-- An extrinsic that is in the pool and not yet on chain. -/
structure Waiting where
  reads : Int
  address : String
  nonce : Int
  deriving DecidableEq, Repr

/-- The state of a node. -/
structure State where
  included : Table String Int := .empty
  pool : Table String Int := .empty
  waiting : List Waiting := []
  attempts : Nat := 0
  reads : Nat := 0
  accepted : List Extrinsic := []

/-- A node at the beginning: what is included is what the pool has. -/
def State.ofNonces (nonces : Table String Int) : State := { included := nonces, pool := nonces }

variable {τ : Type}

/-- Entries by time, then address, then nonce. -/
def byTime [Seconds τ] (schedule : List (τ × String × Int)) : List (τ × String × Int) :=
  let before (a b : τ) : Bool :=
    match Seconds.lt a b with
    | .ok less => less
    | .error _ => false
  schedule.mergeSort fun a b =>
    if before a.1 b.1 then true
    else if before b.1 a.1 then false
    else if a.2.1 ≠ b.2.1 then a.2.1 < b.2.1
    else a.2.2 ≤ b.2.2

/-- Somebody else uses the next nonce of an address. -/
def bump (address : String) (s : State) : State :=
  let next := (s.pool.get? address).getD 0 + 1
  { s with pool := s.pool.put address next, included := s.included.put address next }

/-- Counts an attempt, after the foreign uses just before it. -/
def beginAttempt (setup : Setup τ) (s : State) : State :=
  let foreign := setup.bumps.filter fun b => b.1 = (s.attempts : Int)
  foreign.foldl (fun s b => bump b.2 s) { s with attempts := s.attempts + 1 }

/-- Includes an extrinsic. -/
def includeOne (included : Table String Int) (w : Waiting) : Table String Int :=
  included.put w.address (max ((included.get? w.address).getD 0) (w.nonce + 1))

/-- Counts a read, and includes what has waited long enough. -/
def countRead (s : State) : State :=
  let waiting := s.waiting.map fun w => { w with reads := w.reads - 1 }
  let (due, rest) := waiting.partition fun w => w.reads ≤ 0
  { s with reads := s.reads + 1, waiting := rest, included := due.foldl includeOne s.included }

/-- The nonce shown for an address at a time. -/
def shownNonce [Seconds τ] (setup : Setup τ) (now : τ) (address : String) (s : State) :
    Except Fault Int :=
  (setup.schedule.filter fun e => e.2.1 = address).foldlM
    (fun shown e => do return if ← Seconds.reached now e.1 then e.2.2 else shown)
    ((s.included.get? address).getD 0)

/-- The node's own record of an account with a nonce. -/
def ownRecord (nonce : Int) : Value :=
  .object [("nonce", .int nonce), ("data", .object [("free", .int 0)])]

/-- The record of an account; what is no text is an account that nobody uses. -/
def record [Seconds τ] (setup : Setup τ) (now : τ) (address : Value) (s : State) :
    Except Fault Value := do
  address.keyable
  match address with
  | .text a =>
    match setup.records.get? a with
    | some v => return v
    | none => return ownRecord (← shownNonce setup now a s)
  | _ => return ownRecord 0

/-- The first thing in a value. -/
def first : Value → Except Fault Value
  | .list (v :: _) | .tuple (v :: _) => .ok v
  | .list [] => .error (.foreign "IndexError" "list index out of range")
  | .tuple [] => .error (.foreign "IndexError" "tuple index out of range")
  | .text s =>
    match s.toList with
    | c :: _ => .ok (.text (String.singleton c))
    | [] => .error (.foreign "IndexError" "string index out of range")
  | .bytes (b :: _) => .ok (.int b.toNat)
  | .bytes [] => .error (.foreign "IndexError" "index out of range")
  | .dict entries =>
    match Table.find? (.int 0) entries with
    | some v => .ok v
    | none => .error (.missingKey (.int 0))
  | v => .error (.notIndexable v.typeName)

/-- What is kept under a pallet, a storage and parameters. -/
def kept? {α : Type} (entries : List (Value × Value × Value × α)) (pallet storage params : Value) :
    Option α :=
  (entries.find? fun e =>
    e.1.identical pallet && e.2.1.identical storage && e.2.2.1.identical params).map (·.2.2.2)

/-- Answers a query. -/
def query [Seconds τ] (setup : Setup τ) (now : τ) (pallet storage params : Value) :
    Act State (Option Value) :=
  match pallet, storage with
  | .text "System", .text "Account" => do
    let address ← Act.ofExcept (first params)
    modify countRead
    return some (← Act.ofExcept (record setup now address (← get)))
  | _, _ => return kept? setup.storage pallet storage params

/-- Answers a query for a map. -/
def queryMap (setup : Setup τ) (pallet storage params : Value) : Act State (List (Value × Value)) :=
  return (kept? setup.maps pallet storage params).getD []

/-- A call is its names and its arguments. -/
def composed (pallet function params : Value) : Value :=
  .object [("module", pallet), ("function", function), ("args", params)]

/-- Why the pool refuses a nonce. -/
def poolRefusal (outdated : Bool) : Value :=
  .object [("code", .int 1010), ("message", .text "Invalid Transaction"),
    ("data", .text (if outdated then "Transaction is outdated"
      else "Transaction is not yet valid"))]

/-- The hash of the `n`-th extrinsic taken. -/
def hash (n : Nat) : String := "0x" ++ String.ofList (Text.Hex.padded 64 n)

/-- Takes an extrinsic whose nonce is the pool's next one. -/
def accept (setup : Setup τ) (e : Extrinsic) : Act State (Option String) := fun s =>
  let accepted := s.accepted ++ [e]
  let s := { s with pool := s.pool.put e.address (e.nonce + 1), accepted }
  let s :=
    if setup.includeAfter > 0 then
      { s with waiting := s.waiting ++ [⟨setup.includeAfter, e.address, e.nonce⟩] }
    else { s with included := s.included.put e.address (e.nonce + 1) }
  .ok (if setup.hashes then some (hash accepted.length) else none) s

/-- Takes or refuses an extrinsic. -/
def submit (setup : Setup τ) (e : Extrinsic) : Act State (Option String) := do
  let attempt := (← get).attempts
  modify (beginAttempt setup)
  match setup.failures.lookup (attempt : Int) with
  | some fault => throw fault
  | none =>
    let next := ((← get).pool.get? e.address).getD 0
    if e.nonce ≠ next then throw (.refused (poolRefusal (e.nonce < next)))
    else accept setup e

/-- The node of a setup. -/
def node [Seconds τ] (setup : Setup τ) : Node State τ :=
  let setup := { setup with schedule := byTime setup.schedule }
  { chain := setup.chain
    version := setup.version
    query := query setup
    queryMap := fun _ => queryMap setup
    compose := fun pallet function params => return composed pallet function params
    sign := fun _ => return ()
    submit := submit setup }

end Campaign.Sequential
