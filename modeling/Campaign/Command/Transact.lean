import Campaign.Command.Basic
import Campaign.Plan.Transaction

/-!
# Single transactions

The command that sends one extrinsic, signed by a chosen role, and waits until it is on chain. Its
subcommands are the transactions; those of the overlord leave no choice of the role.
-/

namespace Campaign.Command.Transact

variable {ν τ : Type} [Seconds τ]

/-- The option for the role that signs. -/
def roleSwitch : Switch := {
  names := ["--as"], key := "role", choices := some (roles.mergeSort fun a b => decide (a ≤ b)),
  default := .text "user" }

/-- A required option that allows certain values. -/
def choice (name key : String) (choices : List String) : Switch := {
  names := [name], key, choices := some choices, required := true }

/-- Race and career. -/
def bodySwitches : List Switch := [
  choice "--race" "race" (Kind.values Race),
  choice "--career" "career" (Kind.values Career)]

/-- The types that are rare. -/
def rareTypes : List String := (Kind.all.filter fun t : ShellType => t ≠ .prime).map Kind.value

/-- The statuses that a preorder can be set to. -/
def finalStatuses : List String :=
  [PreorderStatus.chosen, .notChosen].map Kind.value

/-- A required option for a whole number. -/
def number (name key : String) : Switch := { names := [name], key, whole := true, required := true }

/-- The option for a collection, which is the one of the origins of shell by default. -/
def collectionSwitch : Switch := {
  names := ["--collection-id"], key := "collection_id", whole := true,
  default := .int Plan.shellCollection }

/-- The transactions with their options. -/
def subcommands : List (String × List Switch) := [
  ("claim-spirit", [roleSwitch]),
  ("redeem-spirit", [roleSwitch]),
  ("buy-rare", roleSwitch :: choice "--type" "type" rareTypes :: bodySwitches),
  ("buy-prime", roleSwitch :: bodySwitches),
  ("preorder", roleSwitch :: bodySwitches),
  ("claim-chosen", [roleSwitch]),
  ("claim-refund", [roleSwitch]),
  ("set-status", [
    choice "--status-type" "status_type" (Kind.values SaleStatus),
    { names := ["--disable"], key := "disable", takes := .nothing, default := .bool false }]),
  ("set-preorder-status", [
    number "--preorder-id" "preorder_id",
    choice "--status" "status" finalStatuses]),
  ("feed", [roleSwitch, collectionSwitch, number "--nft-id" "nft_id"]),
  ("hatch", [
    { names := ["--owner"], key := "owner", required := true },
    collectionSwitch,
    number "--nft-id" "nft_id",
    { names := ["--resource-src"], key := "resource_src", required := true }]),
  ("set-shell-collection-id", [number "--collection-id" "collection_id"])]

/-- The command line. -/
def grammar : Grammar where
  program := "transactions.py"
  switches := [endpointSwitch]
  subcommands := some { key := "cmd", commands := subcommands }

/-- The roles whose keys a command needs, in order. -/
def rolesFor (command : String) (role : Value) : Except Fault (List Value) := do
  let others : List Value := if Plan.Transaction.needsOverlord command then ["overlord"] else []
  Value.sort (← Value.keySet (role :: others))

/-- What is printed of an accepted extrinsic. -/
def announce (role : Value) (sent : Sent) : Act (Session ν τ) Unit := do
  say ("✅ " ++ sent.call ++ " from " ++ role.shown ++ " (nonce " ++ toString sent.nonce ++ ")")
  match sent.hash with
  | none | some "" => return ()
  | some hash => say ("   Extrinsic hash: " ++ hash)

/-- Sends one transaction. -/
def perform (host : Host ν τ) : Act (World ν τ) Unit := do
  let args ← Act.ofExcept (grammar.parse host.arguments)
  let settings ← hostSettings host args
  let command := (argument args "cmd").shown
  let role := Plan.Transaction.roleOf args
  banner ("PHALA WORLD - " ++ command)
  let needed ← Act.ofExcept (rolesFor command role)
  let accounts ← Act.ofExcept (loadAccounts host.keyring settings needed)
  let step ← Act.ofExcept (Plan.Transaction.stepOf settings.pallets accounts args)
  withSession host settings do
    let script := scriptFor host.node settings accounts
    let _ ← script.startSome (.list [step.account])
    let sent ← script.run (Plan.single command step)
    match sent.getLast? with
    | none => throw .noItem
    | some last => announce role last

end Campaign.Command.Transact
