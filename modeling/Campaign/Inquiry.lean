import Campaign.Client
import Campaign.Kind
import Campaign.Settings
import Campaign.Value.Order

/-!
# Inquiries

Questions to the chain about the sale: the tokens an account holds in the collections of spirits and
of origins of shell, preorders and their results, the inventory, the statuses of the sale and of
incubation. A collection that was never configured is a fault; other absent values are nothing, or
zero, or false.
-/

namespace Campaign.Inquiry

variable {ν τ : Type}

/-- A token that an account holds in a collection. -/
structure Holding where
  account : Value
  collection : Value
  nft : Value

/-- A holding as a value. -/
def Holding.toValue (h : Holding) : Value :=
  .object [("account", h.account), ("collection_id", h.collection), ("nft_id", h.nft)]

/-- The configured id of a collection. -/
def collectionId (node : Node ν τ) (pallets : Pallets) (storage label : Value) :
    Act (World ν τ) Value := do
  match ← Client.query node pallets.sale storage .null with
  | .null => throw (.notConfigured label.shown)
  | id => return id

/-- The tokens that an account holds in a collection, as the chain lists them. -/
def holdings (node : Node ν τ) (account collection : Value) :
    Act (World ν τ) (List Holding) := do
  let found ← Client.queryMap node "Uniques" "Account" (.list [account, collection])
  return found.map fun e => { account, collection, nft := e.1 }

/-- The spirits that an account holds. -/
def spirits (node : Node ν τ) (pallets : Pallets) (account : Value) :
    Act (World ν τ) (List Holding) := do
  holdings node account (← collectionId node pallets "SpiritCollectionId" "Spirit")

/-- The origins of shell that an account holds. -/
def shells (node : Node ν τ) (pallets : Pallets) (account : Value) :
    Act (World ν τ) (List Holding) := do
  holdings node account
    (← collectionId node pallets "OriginOfShellCollectionId" "Origin of Shell")

/-- The index of the next preorder. -/
def preorderIndex (node : Node ν τ) (pallets : Pallets) : Act (World ν τ) Value := do
  return Client.orEmpty (← Client.query node pallets.sale "PreorderIndex" .null) (.int 0)

/-- Entries as a table; every key must be fit to be one. -/
def tableOf (entries : List (Value × Value)) : Except Fault (Table Value Value) :=
  match entries.findSome? fun e => e.1.unhashable? with
  | some type => .error (.unhashable type)
  | none => .ok (.ofList entries)

/-- The preorders that are not resolved yet, by id. -/
def pendingPreorders (node : Node ν τ) (pallets : Pallets) :
    Act (World ν τ) (Table Value Value) := do
  Act.ofExcept (tableOf (← Client.queryMap node pallets.sale "Preorders" .null))

/-- The resolved preorders of an account, by id. -/
def preorderResults (node : Node ν τ) (pallets : Pallets) (account : Value) :
    Act (World ν τ) (Table Value Value) := do
  Act.ofExcept
    (tableOf (← Client.queryMap node pallets.sale "PreorderResults" (.list [account])))

/-- What there is of one type of an origin of shell, by race. -/
def inventory (node : Node ν τ) (pallets : Pallets) (type : ShellType) :
    Act (World ν τ) (Table String Value) := do
  let found ← Client.queryMap node pallets.sale "OriginOfShellsInventory"
    (.list [.text (Kind.value type)])
  return .ofList (found.map fun e => (e.1.shown, e.2))

/-- `inventory` with the type given by name. -/
def inventoryNamed (node : Node ν τ) (pallets : Pallets) (type : Value) :
    Act (World ν τ) (Table String Value) := do
  inventory node pallets (← Act.ofExcept (Kind.ofValue type))

/-- The statuses of the sale and where they are stored. -/
def saleFlagNames : List (String × String) := [
  ("can_claim_spirits", "CanClaimSpirits"),
  ("can_purchase_rare_origin_of_shells", "CanPurchaseRareOriginOfShells"),
  ("can_purchase_prime_origin_of_shells", "CanPurchasePrimeOriginOfShells"),
  ("can_preorder_origin_of_shells", "CanPreorderOriginOfShells"),
  ("last_day_of_sale", "LastDayOfSale")]

/-- Whether a stored value is true. -/
def flag (node : Node ν τ) (pallet storage : Value) : Act (World ν τ) Bool := do
  return (← Client.query node pallet storage .null).truthy

/-- The flags with the given names. -/
def flags (node : Node ν τ) (pallet : Value) :
    List (String × String) → Act (World ν τ) (List (String × Bool))
  | [] => return []
  | (name, storage) :: rest => do
    let b ← flag node pallet storage
    return (name, b) :: (← flags node pallet rest)

/-- The statuses of the sale. -/
def saleFlags (node : Node ν τ) (pallets : Pallets) : Act (World ν τ) (List (String × Bool)) :=
  flags node pallets.sale saleFlagNames

/-- The status of incubation. -/
structure IncubationStatus where
  canStart : Bool
  hatchTime : Value
  shellCollection : Value

/-- The status of incubation as a value. -/
def IncubationStatus.toValue (i : IncubationStatus) : Value :=
  .object [("can_start_incubation", .bool i.canStart), ("official_hatch_time", i.hatchTime),
    ("shell_collection_id", i.shellCollection)]

/-- The status of incubation. -/
def incubationStatus (node : Node ν τ) (pallets : Pallets) : Act (World ν τ) IncubationStatus := do
  let canStart ← flag node pallets.incubation "CanStartIncubation"
  let hatchTime ← Client.query node pallets.incubation "OfficialHatchTime" .null
  let shellCollection ← Client.query node pallets.incubation "ShellCollectionId" .null
  return { canStart, hatchTime, shellCollection }

/-- The inventories of some types in order. -/
def inventories (node : Node ν τ) (pallets : Pallets) :
    List ShellType → Act (World ν τ) (List (ShellType × Table String Value))
  | [] => return []
  | type :: rest => do
    let found ← inventory node pallets type
    return (type, found) :: (← inventories node pallets rest)

end Campaign.Inquiry
