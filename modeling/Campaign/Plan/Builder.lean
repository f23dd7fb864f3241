import Campaign.Arguments
import Campaign.Plan.Drawing
import Campaign.Plan.Incubation

/-!
# Builders

The calls and plans of the campaign under the names of their builders. A builder takes arguments by
name, some with a default; it refuses one that it does not know, and then to go without one that has
no default. `Builder.apply` gives one step or a list of phases.
-/

namespace Campaign.Plan

variable {τ : Type}

/-- What a builder gives. -/
inductive Built (τ : Type) where
  | step (s : Submit)
  | phases (ps : List (Phase τ))

/-- A builder, with its arguments in order and their defaults. -/
structure Builder (τ : Type) where
  name : String
  parameters : List (String × Option Value)
  /-- What all arguments together give. -/
  build : Pallets → Roster → (String → Value) → Except Fault (Built τ)

namespace Builder

/-- The builder of one step, all of whose arguments are required. -/
def ofStep (name : String) (parameters : List String)
    (build : Pallets → Roster → (String → Value) → Except Fault Submit) : Builder τ where
  name := name
  parameters := parameters.map fun p => (p, none)
  build pallets accounts arg := (build pallets accounts arg).map .step

/-- The builder of phases, all of whose arguments have defaults. -/
def ofPhases (name : String) (parameters : List (String × Value))
    (build : Pallets → Roster → (String → Value) → Except Fault (List (Phase τ))) : Builder τ where
  name := name
  parameters := parameters.map fun p => (p.1, some p.2)
  build pallets accounts arg := (build pallets accounts arg).map .phases

/-- Ids as a value. -/
def ids (ns : List Int) : Value := .list (ns.map .int)

/-- All builders. -/
def all : List (Builder τ) := [
  { name := "set_status"
    parameters := [("status_type", none), ("enabled", some (.bool true))]
    build := fun p _ arg => (setStatusNamed p (arg "status_type") (arg "enabled")).map .step },
  ofPhases "prep_phases" [
      ("funding", .int overlordFunding),
      ("spirit_collection_id", .int spiritCollection),
      ("origin_of_shell_collection_id", .int shellCollection)]
    fun p accounts arg => preparation accounts p {
      funding := arg "funding"
      spiritCollection := arg "spirit_collection_id"
      shellCollection := arg "origin_of_shell_collection_id" },
  ofStep "buy_rare" ["account", "origin_of_shell_type", "race", "career"] fun p _ arg =>
    buyRareNamed p (arg "account") (arg "origin_of_shell_type") (arg "race") (arg "career"),
  ofStep "buy_prime" ["account", "race", "career"] fun p accounts arg =>
    buyPrimeNamed p accounts (arg "account") (arg "race") (arg "career"),
  ofStep "preorder" ["account", "race", "career"] fun p _ arg =>
    preorderNamed p (arg "account") (arg "race") (arg "career"),
  ofStep "claim_spirit" ["account"] fun p _ arg => .ok (claimSpirit p (arg "account")),
  ofStep "redeem_spirit" ["account"] fun p accounts arg =>
    .ok (redeemSpirit p accounts (arg "account")),
  ofPhases "population_phases" [] fun p accounts _ => .ok (population accounts p),
  ofStep "feed" ["account", "collection_id", "nft_id"] fun p _ arg =>
    .ok (feed p (arg "account") (arg "collection_id") (arg "nft_id")),
  ofStep "update_incubation_time" ["reductions"] fun p _ arg =>
    updateIncubationTimeNamed p (arg "reductions"),
  ofPhases "incubation_phases" [("collection_id", .int shellCollection)] fun p _ arg =>
    .ok (incubation p (arg "collection_id")),
  ofStep "hatch" ["owner", "collection_id", "nft_id", "resource_src"] fun p _ arg =>
    .ok (hatch p (arg "owner") (arg "collection_id") (arg "nft_id") (arg "resource_src")),
  ofStep "set_shell_collection_id" ["collection_id"] fun p _ arg =>
    .ok (setShellCollection p (arg "collection_id")),
  ofPhases "drawing_phases" [
      ("chosen", ids chosenPreorders),
      ("not_chosen", ids notChosenPreorders)]
    fun p _ arg => drawing (arg "chosen") (arg "not_chosen") p,
  ofStep "set_preorder_status" ["preorder_id", "status"] fun p _ arg =>
    setPreorderStatusNamed p (arg "preorder_id") (arg "status"),
  ofStep "claim_chosen_preorders" ["account"] fun p _ arg => .ok (claimChosen p (arg "account")),
  ofStep "claim_refund_preorders" ["account"] fun p _ arg => .ok (claimRefund p (arg "account"))]

/-- The builder of a name. -/
def ofName? (name : String) : Option (Builder τ) := all.find? fun b => b.name = name

/-- The arguments that must be given and are not. -/
def lacking (b : Builder τ) (args : Arguments) : List String :=
  (b.parameters.filter fun p => p.2.isNone && !args.has p.1).map (·.1)

/-- The first argument that is none of the builder's. -/
def unknown? (b : Builder τ) (args : Arguments) : Option String :=
  args.keys.find? fun key => !b.parameters.any fun p => p.1 = key

/-- What a builder gives for some arguments. -/
def apply (b : Builder τ) (pallets : Pallets) (accounts : Roster) (args : Arguments) :
    Except Fault (Built τ) :=
  match b.unknown? args, b.lacking args with
  | some key, _ => .error (.unknownArgument b.name key)
  | none, [] => b.build pallets accounts fun key =>
      (args.get? key).getD (((b.parameters.lookup key).join).getD .null)
  | none, names => .error (.lacksArguments b.name names)

end Builder

/-- A step as a plan of its own; phases are no step. -/
def Built.single (name : Value) : Built τ → Except Fault (Built τ)
  | .step s => .ok (.phases (Plan.single name s))
  | .phases _ => .error (.noAttribute "list" "account")

end Campaign.Plan
