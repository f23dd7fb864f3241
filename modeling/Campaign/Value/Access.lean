import Campaign.Fault
import Campaign.Value.Equality

/-!
# What a value yields

Whether it may be a key (`keyable`), a field of a dictionary (`item`), the things a value holds when
it is gone through (`items`), its two halves (`pair`), and the whole number it stands for (`whole`).
Each fails on values of the wrong kind, with the kind in its fault.
-/

namespace Campaign.Value

/-- Passes over a value that may be a key. -/
def keyable (v : Value) : Except Fault Unit :=
  match v.unhashable? with
  | some type => .error (.unhashable type)
  | none => .ok ()

/-- The value under a text key. -/
def item (v : Value) (key : String) : Except Fault Value :=
  match v with
  | .dict entries =>
    match Table.find? (.text key) entries with
    | some found => .ok found
    | none => .error (.missingKey (.text key))
  | .text _ | .bytes _ | .list _ | .tuple _ => .error (.wrongIndex v.typeName)
  | _ => .error (.notIndexable v.typeName)

/-- What a value holds: items, keys, characters or bytes. -/
def items : Value → Except Fault (List Value)
  | .list vs | .tuple vs => .ok vs
  | .dict entries => .ok (entries.map (·.1))
  | .text s => .ok (s.toList.map fun c => .text (String.singleton c))
  | .bytes data => .ok (data.map fun b => .int b.toNat)
  | v => .error (.notIterable v.typeName)

/-- The two things a value holds. -/
def pair (v : Value) : Except Fault (Value × Value) :=
  match v.items with
  | .ok [a, b] => .ok (a, b)
  | .ok (_ :: _ :: _ :: _) => .error .tooMany
  | .ok vs => .error (.tooFew vs.length)
  | .error _ => .error (.notUnpackable v.typeName)

/-- The integer part of a float. -/
def wholeOfFloat (x : Float) : Except Fault Int :=
  match Decimal.Binary64.trunc x with
  | .ok n => .ok n
  | .error .infinite => .error .infinitePart
  | .error .notANumber => .error .missingPart

/-- The whole number a row of characters writes; `literal` is named if it writes none. -/
def wholeOfLiteral (literal : Value) (cs : List Char) : Except Fault Int :=
  match Decimal.wholeOfChars cs with
  | .ok n => .ok n
  | .error .malformed => .error (.notWhole literal)
  | .error (.tooLong digits) => .error (.tooLong digits)

/-- Bytes as characters, among which only ASCII has a meaning. -/
def asciiOf (data : List UInt8) : List Char :=
  data.map fun b => if b < 128 then Char.ofNat b.toNat else '?'

/-- The whole number a value stands for. -/
def whole : Value → Except Fault Int
  | .bool b => .ok (if b then 1 else 0)
  | .int n => .ok n
  | .float x => wholeOfFloat x
  | .text s => wholeOfLiteral (.text s) s.toList
  | .bytes data => wholeOfLiteral (.bytes data) (asciiOf data)
  | v => .error (.noWhole v.typeName)

end Campaign.Value
