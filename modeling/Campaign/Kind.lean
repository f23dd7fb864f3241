import Campaign.Fault

/-!
# Kinds

The closed choices of the sale: races and careers, the types of an origin of shell, the statuses of
the sale and of a preorder, and the purposes an overlord signs for. Each member has the variant name
that the chain knows it by (`Kind.value`) and a constant's name (`Kind.label`). `Kind.ofValue` reads
a member from its variant name and refuses all else.
-/

namespace Campaign

/-- A closed choice. -/
class Kind (α : Type) where
  /-- The name of the choice. -/
  type : String
  /-- The members in order. -/
  all : List α
  /-- The constant's name of a member. -/
  label : α → String
  /-- The variant name of a member. -/
  value : α → String

namespace Kind

variable {α : Type} [Kind α]

/-- All variant names in order. -/
def values (α : Type) [Kind α] : List String := (all : List α).map value

/-- The member with a variant name. -/
def ofText? (s : String) : Option α := (all : List α).find? fun m => value m = s

/-- The member a value names. -/
def ofValue (v : Value) : Except Fault α :=
  match v with
  | .text s =>
    match ofText? s with
    | some m => .ok m
    | none => .error (.notMember (type α) v)
  | _ => .error (.notMember (type α) v)

end Kind

/-- The races. -/
inductive Race where
  | cyborg | aiSpectre | xGene | pandroid
  deriving DecidableEq, Repr

instance : Kind Race where
  type := "RaceType"
  all := [.cyborg, .aiSpectre, .xGene, .pandroid]
  label
    | .cyborg => "CYBORG"
    | .aiSpectre => "AI_SPECTRE"
    | .xGene => "X_GENE"
    | .pandroid => "PANDROID"
  value
    | .cyborg => "Cyborg"
    | .aiSpectre => "AISpectre"
    | .xGene => "XGene"
    | .pandroid => "Pandroid"

/-- The careers. -/
inductive Career where
  | hardwareDruid | roboWarrior | tradeNegotiator | hackerWizard | web3Monk
  deriving DecidableEq, Repr

instance : Kind Career where
  type := "CareerType"
  all := [.hardwareDruid, .roboWarrior, .tradeNegotiator, .hackerWizard, .web3Monk]
  label
    | .hardwareDruid => "HARDWARE_DRUID"
    | .roboWarrior => "ROBO_WARRIOR"
    | .tradeNegotiator => "TRADE_NEGOTIATOR"
    | .hackerWizard => "HACKER_WIZARD"
    | .web3Monk => "WEB3_MONK"
  value
    | .hardwareDruid => "HardwareDruid"
    | .roboWarrior => "RoboWarrior"
    | .tradeNegotiator => "TradeNegotiator"
    | .hackerWizard => "HackerWizard"
    | .web3Monk => "Web3Monk"

/-- The statuses of the sale. -/
inductive SaleStatus where
  | claimSpirits | purchaseRare | purchasePrime | preorder | lastDay
  deriving DecidableEq, Repr

instance : Kind SaleStatus where
  type := "StatusType"
  all := [.claimSpirits, .purchaseRare, .purchasePrime, .preorder, .lastDay]
  label
    | .claimSpirits => "CLAIM_SPIRITS"
    | .purchaseRare => "PURCHASE_RARE_ORIGIN_OF_SHELLS"
    | .purchasePrime => "PURCHASE_PRIME_ORIGIN_OF_SHELLS"
    | .preorder => "PREORDER_ORIGIN_OF_SHELLS"
    | .lastDay => "LAST_DAY_OF_SALE"
  value
    | .claimSpirits => "ClaimSpirits"
    | .purchaseRare => "PurchaseRareOriginOfShells"
    | .purchasePrime => "PurchasePrimeOriginOfShells"
    | .preorder => "PreorderOriginOfShells"
    | .lastDay => "LastDayOfSale"

/-- The types of an origin of shell. -/
inductive ShellType where
  | prime | magic | legendary
  deriving DecidableEq, Repr

instance : Kind ShellType where
  type := "OriginOfShellType"
  all := [.prime, .magic, .legendary]
  label
    | .prime => "PRIME"
    | .magic => "MAGIC"
    | .legendary => "LEGENDARY"
  value
    | .prime => "Prime"
    | .magic => "Magic"
    | .legendary => "Legendary"

/-- The statuses of a preorder. -/
inductive PreorderStatus where
  | pending | chosen | notChosen
  deriving DecidableEq, Repr

instance : Kind PreorderStatus where
  type := "PreorderStatus"
  all := [.pending, .chosen, .notChosen]
  label
    | .pending => "PENDING"
    | .chosen => "CHOSEN"
    | .notChosen => "NOT_CHOSEN"
  value
    | .pending => "Pending"
    | .chosen => "Chosen"
    | .notChosen => "NotChosen"

/-- The purposes an overlord signs for. -/
inductive Purpose where
  | redeemSpirit | buyPrime
  deriving DecidableEq, Repr

instance : Kind Purpose where
  type := "PurposeType"
  all := [.redeemSpirit, .buyPrime]
  label
    | .redeemSpirit => "REDEEM_SPIRIT"
    | .buyPrime => "BUY_PRIME_ORIGIN_OF_SHELLS"
  value
    | .redeemSpirit => "RedeemSpirit"
    | .buyPrime => "BuyPrimeOriginOfShells"

/-- The place of a purpose among the purposes. -/
def Purpose.index : Purpose → UInt8
  | .redeemSpirit => 0
  | .buyPrime => 1

end Campaign
