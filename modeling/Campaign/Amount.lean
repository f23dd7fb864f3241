import Campaign.Value.Access

/-!
# Amounts

A token has twelve decimals. `Amount.ofTokens` turns a count of tokens into the smallest unit; a
fraction of that unit is dropped.
-/

namespace Campaign.Amount

/-- Units in one token. -/
def unit : Int := 1000000000000

/-- A number of tokens in units: exact for an integer, rounded before the cut for a float. -/
def ofNumber : Number → Except Fault Int
  | .int n => .ok (n * unit)
  | .float x => Value.wholeOfFloat (x * Decimal.Binary64.ofInt unit)

/-- An empty value or one that cannot be repeated a million million times. -/
def repeated (isEmpty : Bool) (empty : Value) : Except Fault Int :=
  if isEmpty then empty.whole else .error .noMemory

/-- What any value is as an amount; a text or a row stands for its repetition. -/
def ofValue (v : Value) : Except Fault Int :=
  match v.number?, v with
  | some n, _ => ofNumber n
  | none, .text s => repeated s.isEmpty v
  | none, .bytes data => repeated data.isEmpty v
  | none, .list items => repeated items.isEmpty v
  | none, .tuple items => repeated items.isEmpty v
  | none, _ => .error (.noOperation "*" v.typeName "int")

end Campaign.Amount
