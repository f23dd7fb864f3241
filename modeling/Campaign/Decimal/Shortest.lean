import Campaign.Decimal.Binary64

/-!
# The shortest decimal that reads back

A positive binary64 number `m · 2 ^ q` is read back from every decimal in the interval of reals that
round to it; the ends belong to it when `m` is even. `Shortest.digits` walks the decimal grids of 1
to 17 digits and takes the first that has a point in the interval, of its two neighbours of the
number the nearer one, and of two equally near the even one. `floatText` writes the digits in
positional notation from `10 ^ -4` up to `10 ^ 16`, elsewhere with a power of ten.
-/

namespace Campaign.Decimal

namespace Shortest

/-- The number in quarters of its last place, `value · 2 ^ exponent`, between the bounds of the
interval that rounds to it. -/
structure Interval where
  low : Nat
  value : Nat
  high : Nat
  closed : Bool
  exponent : Int

/-- The reals that round to `m · 2 ^ q`. Below a power of two the next number is half as far. -/
def interval (m : Nat) (q : Int) : Interval where
  low := if m = Binary64.fieldBit && q > -1074 then 4 * m - 1 else 4 * m - 2
  value := 4 * m
  high := 4 * m + 2
  closed := m % 2 = 0
  exponent := q - 2

/-- The factor of a power, if it is to be multiplied to the left. -/
def factor (base : Nat) (e : Int) : Nat := base.pow e.toNat

/-- Whether the number is below `10 ^ k`. -/
def belowPower (i : Interval) (k : Int) : Bool :=
  i.value * factor 2 i.exponent * factor 10 (-k) < factor 10 k * factor 2 (-i.exponent)

/-- The number of digits before the point; negative or zero below one tenth. -/
def pointPlace (i : Interval) : Int :=
  let guess := ((i.value.log2 : Int) + i.exponent) * 30103 / 100000
  if belowPower i guess then guess
  else if belowPower i (guess + 1) then guess + 1
  else guess + 2

/-- The point of the grid of step `10 ^ t` to write, if one rounds to the number. -/
def onGrid? (i : Interval) (t : Int) : Option Nat :=
  let up := factor 2 i.exponent * factor 10 (-t)
  let den := factor 2 (-i.exponent) * factor 10 t
  let inside (c : Nat) : Bool :=
    if i.closed then i.low * up ≤ c * den && c * den ≤ i.high * up
    else i.low * up < c * den && c * den < i.high * up
  let c := i.value * up / den
  match inside c, inside (c + 1) with
  | true, true => some (Binary64.roundQuotient (i.value * up) den)
  | true, false => some c
  | false, true => some (c + 1)
  | false, false => none

/-- The first grid with a point, from `n` digits on, at most `tries` grids. -/
def firstGrid (i : Interval) (place : Int) : (tries n : Nat) → Nat × Int
  | 0, n => (Binary64.roundScaled (i.value * factor 10 (n - place)) (factor 10 (place - n))
      (-i.exponent), place - n)
  | tries + 1, n =>
    match onGrid? i (place - n) with
    | some c => (c, place - n)
    | none => firstGrid i place tries (n + 1)

/-- A decimal without zeros at its end. -/
def dropZeros : (fuel : Nat) → Nat × Int → Nat × Int
  | 0, d => d
  | fuel + 1, (c, t) => if c % 10 = 0 then dropZeros fuel (c / 10, t + 1) else (c, t)

/-- The shortest decimal `c · 10 ^ t` that rounds to `m · 2 ^ q`, for a positive `m`. -/
def digits (m : Nat) (q : Int) : Nat × Int :=
  let i := interval m q
  dropZeros 17 (firstGrid i (pointPlace i) 17 1)

end Shortest

/-- The decimal digits of a natural. -/
def digitsOf (n : Nat) : List Char := Nat.toDigits 10 n

/-- At least two digits. -/
def twoDigits (n : Nat) : List Char := if n < 10 then '0' :: digitsOf n else digitsOf n

/-- Writes `c · 10 ^ t`. -/
def writeDecimal (c : Nat) (t : Int) : List Char :=
  let ds := digitsOf c
  let place := ds.length + t
  if -4 < place && place ≤ 16 then
    if place ≤ 0 then '0' :: '.' :: List.replicate (-place).toNat '0' ++ ds
    else if 0 ≤ t then ds ++ List.replicate t.toNat '0' ++ ['.', '0']
    else ds.take place.toNat ++ '.' :: ds.drop place.toNat
  else
    let e := place - 1
    let mark := if e < 0 then ['e', '-'] else ['e', '+']
    let head := match ds with
      | [] => []
      | [d] => [d]
      | d :: rest => d :: '.' :: rest
    head ++ mark ++ twoDigits e.natAbs

/-- A binary64 number as text: the shortest decimal that reads back, `inf` or `nan`. -/
def floatText (x : Float) : String :=
  match Binary64.parts? x with
  | none => if x.isNaN then "nan" else if Binary64.isNegative x then "-inf" else "inf"
  | some d =>
    let sign := if d.negative then ['-'] else []
    if d.mantissa = 0 then String.ofList (sign ++ ['0', '.', '0'])
    else
      let (c, t) := Shortest.digits d.mantissa d.exponent
      String.ofList (sign ++ writeDecimal c t)

end Campaign.Decimal
