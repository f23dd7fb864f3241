import Campaign.Value.Order

/-!
# Seconds

A kind of number that durations and times are measured in. Each operation may refuse, since
durations come from outside: the programs use any `Value`, of which only numbers can be reckoned
with, and an integer beyond all floats cannot meet a float. Laws of waiting are stated over any kind
whose arithmetic is exact and refuses nothing.

`least` and `positivePart` compare once and keep their first argument unless the second is strictly
on the other side, which matters beside a number that has no order.
-/

namespace Campaign

/-- A kind of number for durations and times. -/
class Seconds (τ : Type) where
  zero : τ
  add : τ → τ → Except Fault τ
  sub : τ → τ → Except Fault τ
  /-- Whether the first is below the second. -/
  lt : τ → τ → Except Fault Bool
  /-- Whether the first has reached the second. -/
  reached : τ → τ → Except Fault Bool
  isNegative : τ → Except Fault Bool
  /-- The number a text writes. -/
  ofReading : Decimal.Reading → τ
  /-- The text of a duration on its own. -/
  text : τ → String
  /-- The text of a duration among the fields of a step. -/
  written : τ → String

namespace Seconds

variable {τ : Type} [Seconds τ]

/-- The second if it is smaller, else the first. -/
def least (a b : τ) : Except Fault τ := do
  return if ← lt b a then b else a

/-- A number above zero stays, any other becomes zero. -/
def positivePart (x : τ) : Except Fault τ := do
  return if ← lt zero x then x else zero

end Seconds

namespace Value

/-- The result of an operation on two numbers. -/
def reckon (sign : String) (op : Number → Number → Option Number) (a b : Value) :
    Except Fault Value :=
  match a.number?, b.number? with
  | some x, some y =>
    match op x y with
    | some n => .ok (ofNumber n)
    | none => .error .tooLarge
  | _, _ => .error (.noOperation sign a.typeName b.typeName)

/-- Whether a number is at or above another one. -/
def atLeast (a b : Value) : Except Fault Bool :=
  match a.number?, b.number? with
  | some x, some y => .ok (y.le x)
  | _, _ => .error (.unordered ">=" a.typeName b.typeName)

end Value

instance : Seconds Value where
  zero := .float 0
  add := Value.reckon "+=" Number.add?
  sub := Value.reckon "-" Number.sub?
  lt := Value.before
  reached := Value.atLeast
  isNegative v := v.before (.int 0)
  ofReading r := .float (Decimal.Binary64.ofReading r)
  text := Value.shown
  written := Value.written

end Campaign
