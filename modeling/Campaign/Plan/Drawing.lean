import Campaign.Plan.Sale
import Campaign.Value.Order

/-!
# The drawing

Chosen preorders are minted and the others refunded, the mint first. A side without ids is left out,
and with both sides empty there is nothing to wait for. An id on both sides is refused.
-/

namespace Campaign.Plan

variable {τ : Type}

/-- The preorders minted when none are named. -/
def chosenPreorders : List Int := [0, 1, 2, 4, 10, 6, 12, 11]

/-- The preorders refunded when none are named. -/
def notChosenPreorders : List Int := [7, 3, 5, 8, 9, 13]

/-- The ids in both of two sets, as the smaller one has them. -/
def common (a b : List Value) : List Value :=
  if a.length < b.length then a.filter fun v => b.any (v == ·)
  else b.filter fun v => a.any (v == ·)

/-- The overlord calls a function on some preorders, if there are any. -/
def resolve (pallets : Pallets) (function : String) (ids : List Value) : List (Step τ) :=
  if ids.isEmpty then [] else [call "overlord" pallets.sale function [("preorders", .list ids)]]

/-- The phase of the drawing, of the ids that two values hold. -/
def drawing (chosen notChosen : Value) (pallets : Pallets) :
    Except Fault (List (Phase τ)) := do
  let chosen ← chosen.items
  let chosenSet ← Value.keySet chosen
  let notChosen ← notChosen.items
  let overlap := common chosenSet (← Value.keySet notChosen)
  unless overlap.isEmpty do throw (.overlap (← Value.sort overlap))
  let steps := resolve pallets "mint_chosen_preorders" chosen ++
    resolve pallets "refund_not_chosen_preorders" notChosen
  return [⟨"Drawing preorders", if steps.isEmpty then [] else steps ++ [wait "overlord"]⟩]

end Campaign.Plan
