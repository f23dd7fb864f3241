import Campaign.Text.Blank
import Campaign.Text.Digit

/-!
# Reading numbers

A number text is read exactly: `Reading.ofText?` gives sign, digits and power of ten, an infinity,
or the mark for no number; rounding to a format is a later step. `wholeOfText` reads whole numbers.

Both drop blanks at the ends (the four separators 28 to 31 are not blank here), take the decimal
digits of every script, and allow single underscores between digits.
-/

namespace Campaign.Decimal

open Text

/-- A number as it is written. -/
inductive Reading where
  /-- `± digits · 10 ^ exponent` -/
  | decimal (negative : Bool) (digits : Nat) (exponent : Int)
  | infinite (negative : Bool)
  | notANumber
  deriving DecidableEq, Repr

/-- Blank in a number text. -/
def isNumberBlank (c : Char) : Bool := isBlank c && !(28 ≤ c.toNat && c.toNat ≤ 31)

/-- The characters of a number text without the blanks at its ends. -/
def trimmed (cs : List Char) : List Char := dropEnd isNumberBlank (cs.dropWhile isNumberBlank)

/-- The sign at the head and the rest; no sign means plus. -/
def splitSign : List Char → Bool × List Char
  | '-' :: rest => (true, rest)
  | '+' :: rest => (false, rest)
  | cs => (false, cs)

/-- Further digits, each after at most one underscore, and the rest. -/
def moreDigits : List Char → List Nat × List Char
  | [] => ([], [])
  | [c] =>
    match digit? c with
    | some d => ([d], [])
    | none => ([], [c])
  | c :: c' :: rest =>
    match digit? c with
    | some d => let (ds, r) := moreDigits (c' :: rest); (d :: ds, r)
    | none =>
      match if c = '_' then digit? c' else none with
      | some d => let (ds, r) := moreDigits rest; (d :: ds, r)
      | none => ([], c :: c' :: rest)

/-- The digits at the head, single underscores between them left out, and the rest. -/
def digitRun : List Char → List Nat × List Char
  | [] => ([], [])
  | c :: rest =>
    match digit? c with
    | some d => let (ds, r) := moreDigits rest; (d :: ds, r)
    | none => ([], c :: rest)

/-- The number that a row of decimal digits stands for. -/
def ofDigits (ds : List Nat) : Nat := ds.foldl (fun n d => 10 * n + d) 0

/-- A signed number in decimal notation. -/
def signedNat (negative : Bool) (n : Nat) : Int := if negative then -(n : Int) else n

/-- The power of ten at the end of a number text. -/
def exponent? : List Char → Option Int
  | [] => some 0
  | c :: rest =>
    if c = 'e' || c = 'E' then
      let (negative, body) := splitSign rest
      match digitRun body with
      | ([], _) => none
      | (ds, []) => some (signedNat negative (ofDigits ds))
      | (_, _ :: _) => none
    else none

/-- The number after the sign. -/
def unsigned? (negative : Bool) (cs : List Char) : Option Reading :=
  let word := String.ofList (cs.map Char.toLower)
  if word = "inf" || word = "infinity" then some (.infinite negative)
  else if word = "nan" then some .notANumber
  else
    let (whole, rest) := digitRun cs
    let (fraction, rest) :=
      match rest with
      | '.' :: rest => digitRun rest
      | rest => ([], rest)
    if whole.isEmpty && fraction.isEmpty then none
    else do
      let e ← exponent? rest
      return .decimal negative (ofDigits (whole ++ fraction)) (e - fraction.length)

/-- The number that a text writes, if it writes one. -/
def Reading.ofText? (s : String) : Option Reading :=
  let (negative, cs) := splitSign (trimmed s.toList)
  unsigned? negative cs

/-- Why a text is no whole number. -/
inductive WholeError where
  | malformed
  | tooLong (digits : Nat)
  deriving DecidableEq, Repr

/-- Whole numbers are read up to this many digits. -/
def digitLimit : Nat := 4300

/-- The whole number that a row of characters writes. -/
def wholeOfChars (cs : List Char) : Except WholeError Int :=
  let (negative, body) := splitSign (trimmed cs)
  match digitRun body with
  | ([], _) => .error .malformed
  | (ds, rest) =>
    if ds.length > digitLimit then .error (.tooLong ds.length)
    else if rest.isEmpty then .ok (signedNat negative (ofDigits ds))
    else .error .malformed

/-- The whole number that a text writes. -/
def wholeOfText (s : String) : Except WholeError Int := wholeOfChars s.toList

end Campaign.Decimal
