import Campaign.Decimal.Shortest

/-!
# Numbers

A number is an integer of any size or a binary64 float. The two are compared as rationals, without
rounding; a sum or difference of integers is exact, and one with a float in it is rounded. There is
none of a float and an integer beyond all floats.
-/

namespace Campaign

open Decimal

/-- An integer or a binary64 float. -/
inductive Number where
  | int (n : Int)
  | float (x : Float)

namespace Number

/-- The nearest float, which an integer beyond all floats has not. -/
def toFloat? : Number → Option Float
  | .int n =>
    let x := Binary64.ofInt n
    if x.isInf then none else some x
  | .float x => some x

/-- The order of two numbers as rationals; there is none beside no number. -/
def compare? : Number → Number → Option Ordering
  | .int a, .int b => some (compare a b)
  | .int a, .float y => Binary64.compareInt? a y
  | .float x, .int b => (Binary64.compareInt? b x).map Ordering.swap
  | .float x, .float y =>
    if x < y then some .lt else if x == y then some .eq else if x > y then some .gt else none

def lt (a b : Number) : Bool := compare? a b = some .lt

def le (a b : Number) : Bool :=
  match compare? a b with
  | some .lt | some .eq => true
  | _ => false

/-- Equal as rationals. -/
def equal (a b : Number) : Bool := compare? a b = some .eq

def add? : Number → Number → Option Number
  | .int a, .int b => some (.int (a + b))
  | a, b => do return .float ((← a.toFloat?) + (← b.toFloat?))

def sub? : Number → Number → Option Number
  | .int a, .int b => some (.int (a - b))
  | a, b => do return .float ((← a.toFloat?) - (← b.toFloat?))

end Number

end Campaign
