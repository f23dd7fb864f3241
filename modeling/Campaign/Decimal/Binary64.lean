import Campaign.Decimal.Reading

/-!
# Binary64 numbers, exactly

A finite binary64 number is `± mantissa · 2 ^ exponent`. This module takes one apart (`parts`), and
builds the nearest one to a quotient of naturals (`nearest`: ties go to the even mantissa, what is
too large becomes infinite). On these rest the rounding of a number text and of an integer, the
integer part, and the comparison with an integer, all without rounding on the way.
-/

namespace Campaign.Decimal

/-- `± mantissa · 2 ^ exponent` -/
structure Dyadic where
  negative : Bool
  mantissa : Nat
  exponent : Int
  deriving DecidableEq, Repr

namespace Binary64

/-- The weight of the sign bit, `2 ^ 63`. -/
def signBit : Nat := 0x8000000000000000

/-- The weight of the lowest bit of the exponent field, `2 ^ 52`; no 53-bit mantissa is smaller. -/
def fieldBit : Nat := 0x10000000000000

/-- Whether the sign bit is set. -/
def isNegative (x : Float) : Bool := signBit ≤ x.toBits.toNat

/-- A finite number in its parts. -/
def parts? (x : Float) : Option Dyadic :=
  let bits : Nat := x.toBits.toNat
  let field : Nat := bits / fieldBit % 2048
  let fraction : Nat := bits % fieldBit
  if field = 2047 then none
  else if field = 0 then some ⟨isNegative x, fraction, -1074⟩
  else some ⟨isNegative x, fraction + fieldBit, (field : Int) - 1075⟩

/-- The quotient rounded to the nearest natural, a half to the even one. -/
def roundQuotient (num den : Nat) : Nat :=
  let q := num / den
  let twice := 2 * (num % den)
  if twice < den then q else if twice > den then q + 1 else q + q % 2

/-- The quotient of `num` by `den · 2 ^ e`, rounded to the nearest natural. -/
def roundScaled (num den : Nat) (e : Int) : Nat :=
  if 0 ≤ e then roundQuotient num (den <<< e.toNat) else roundQuotient (num <<< (-e).toNat) den

/-- The power of two at or below `num / den`. -/
def floorLog2 (num den : Nat) : Int :=
  let k := (num.log2 : Int) - den.log2
  let reaches := if 0 ≤ k then den <<< k.toNat ≤ num else den ≤ num <<< (-k).toNat
  if reaches then k else k - 1

/-- The infinity of a sign. -/
def infinity (negative : Bool) : Float :=
  Float.ofBits (if negative then 0xfff0000000000000 else 0x7ff0000000000000)

/-- The number whose bits are `bits`, with the given sign. -/
def signed (negative : Bool) (bits : Nat) : Float :=
  Float.ofBits (UInt64.ofNat (if negative then bits + signBit else bits))

/-- The nearest number to `± num / den`. -/
def nearest (negative : Bool) (num den : Nat) : Float :=
  if num = 0 then signed negative 0
  else
    let e := max (floorLog2 num den - 52) (-1074)
    let m := roundScaled num den e
    let bits := if m < fieldBit then m else (e + 1074).toNat * fieldBit + m
    if bits ≥ 2047 * fieldBit then infinity negative else signed negative bits

/-- No number. -/
def notANumber : Float := Float.ofBits 0x7ff8000000000000

/-- A number text rounded to the nearest number. Powers of ten far out of range are settled by the
count of digits alone. -/
def ofReading : Reading → Float
  | .notANumber => notANumber
  | .infinite negative => infinity negative
  | .decimal negative digits exponent =>
    let size : Int := (digits.log2 : Int) * 30103 / 100000 + exponent
    if digits = 0 || size < -400 then signed negative 0
    else if size > 400 then infinity negative
    else if 0 ≤ exponent then nearest negative (digits * Nat.pow 10 exponent.toNat) 1
    else nearest negative digits (Nat.pow 10 (-exponent).toNat)

/-- The nearest number to an integer. -/
def ofInt (n : Int) : Float := nearest (n < 0) n.natAbs 1

/-- Why a number has no integer part. -/
inductive TruncError where
  | infinite
  | notANumber
  deriving DecidableEq, Repr

/-- The integer part, toward zero. -/
def trunc (x : Float) : Except TruncError Int :=
  match parts? x with
  | none => .error (if x.isNaN then .notANumber else .infinite)
  | some d =>
    let size := if 0 ≤ d.exponent then d.mantissa <<< d.exponent.toNat
      else d.mantissa >>> (-d.exponent).toNat
    .ok (signedNat d.negative size)

/-- The order of an integer and a number, as rationals; `none` beside no number. -/
def compareInt? (n : Int) (x : Float) : Option Ordering :=
  match parts? x with
  | none => if x.isNaN then none else some (if isNegative x then .gt else .lt)
  | some d =>
    let scale (e : Int) : Int := ((1 : Nat) <<< e.toNat : Nat)
    some <| compare (n * scale (-d.exponent))
      (signedNat d.negative d.mantissa * scale d.exponent)

end Binary64

end Campaign.Decimal
