import Campaign.Inquiry

/-!
# Reports

All that is asked of the chain about the sale and one account, in one answer. `Report.ofChain` asks
and `Report.toValue` gives the answer the form in which it is printed.
-/

namespace Campaign

/-- What the chain has stored about the sale and one account. -/
structure Report where
  account : Value
  overlord : Value
  spirits : List Inquiry.Holding
  shells : List Inquiry.Holding
  preorderIndex : Value
  /-- The ids of the preorders that are not resolved yet, in order. -/
  pending : List Value
  results : Table Value Value
  era : Value
  zeroDay : Value
  inventory : List (ShellType × Table String Value)
  sale : List (String × Bool)
  incubation : Inquiry.IncubationStatus

namespace Report

variable {ν τ : Type}

/-- Asks the chain for a report. -/
def ofChain (node : Node ν τ) (pallets : Pallets) (account : Value) :
    Act (World ν τ) Report := do
  let overlord ← Client.query node pallets.sale "Overlord" .null
  let spirits ← Inquiry.spirits node pallets account
  let shells ← Inquiry.shells node pallets account
  let preorderIndex ← Inquiry.preorderIndex node pallets
  let pending ← Act.ofExcept (Value.sort (← Inquiry.pendingPreorders node pallets).keys)
  let results ← Inquiry.preorderResults node pallets account
  let era ← Client.query node pallets.sale "Era" .null
  let zeroDay ← Client.query node pallets.sale "ZeroDay" .null
  let inventory ← Inquiry.inventories node pallets Kind.all
  let sale ← Inquiry.saleFlags node pallets
  let incubation ← Inquiry.incubationStatus node pallets
  return { account, overlord, spirits, shells, preorderIndex, pending, results, era, zeroDay,
           inventory, sale, incubation }

/-- A table of texts as a value. -/
def fieldsValue (t : Table String Value) : Value := .object t.entries

/-- Flags as a value. -/
def flagsValue (fs : List (String × Bool)) : Value := .object (fs.map fun f => (f.1, .bool f.2))

/-- A report as a value. -/
def toValue (r : Report) : Value :=
  .object [
    ("account", r.account),
    ("overlord", r.overlord),
    ("spirits", .list (r.spirits.map Inquiry.Holding.toValue)),
    ("origin_of_shells", .list (r.shells.map Inquiry.Holding.toValue)),
    ("preorder_index", r.preorderIndex),
    ("pending_preorders", .list r.pending),
    ("preorder_results", .dict r.results.entries),
    ("era", r.era),
    ("zero_day", r.zeroDay),
    ("inventory", .object (r.inventory.map fun e => (Kind.value e.1, fieldsValue e.2))),
    ("sale", flagsValue r.sale),
    ("incubation", r.incubation.toValue)]

end Report

end Campaign
