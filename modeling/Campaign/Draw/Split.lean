import Campaign.Draw.Sample
import Campaign.Draw.Seed
import Campaign.Value.Order

/-!
# Drawing winners

`split` divides ids into winners and the rest. Only the set of ids counts: they are put in order and
each counts once. The same ids, the same number of winners and the same seed give the same division,
both sides in order. There are as many winners as asked for, or as there are ids. A draw without a
seed depends on the `entropy` of the system as well.

The winners are drawn as places in the pool. So each id is on one side only, even a number that
equals nothing, not even itself.
-/

namespace Campaign.Draw

/-- How many winners there are among `n` ids. -/
def winnerCount (winners : Value) (n : Nat) : Except Fault Nat :=
  match winners.number? with
  | none => .error (.unordered "<" winners.typeName "int")
  | some w =>
    if (Number.int n).lt w then .ok n
    else match w with
      | .int k => .ok k.toNat
      | .float x => .error (if x == x then .fractionalCount "float" else .sampleSize)

/-- The elements of a pool at places other than those of some drawn ones. -/
def undrawn {α : Type} (drawn : List (α × Nat)) (pool : List α) : List α :=
  (pool.zipIdx.filter fun e => !drawn.any fun d => d.2 = e.2).map (·.1)

/-- Winners and the rest, both in order. -/
def split (ids : List Value) (winners seed : Value) (entropy : List UInt32 := []) :
    Except Fault (List Value × List Value) := do
  let pool ← Value.sort (← Value.keySet ids)
  if ← winners.before (.int 0) then throw (.negativeWinners winners)
  let generator ← Seed.generator entropy seed
  let count ← winnerCount winners pool.length
  let drawn := sample Twister.next count pool.zipIdx generator
  return (← Value.sort (drawn.map (·.1)), undrawn drawn pool)

end Campaign.Draw
