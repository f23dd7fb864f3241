import Campaign.Table
import Campaign.Value

/-!
# Equality of values

Two notions. `Value.equal` compares what values mean: a truth value counts as a number, an integer
may equal a float, and a dictionary has no order; under it entries of a dictionary are found
(`BEq`). `Value.identical` compares what a storage key is made of: a truth value is no number, a
float is its text, but a tuple is a list.

Only some values may be keys: `Value.hashable` refuses lists and dictionaries, also inside a tuple.
-/

namespace Campaign.Value

mutual

/-- Equal in meaning. -/
def equal : Value → Value → Bool
  | .null, .null => true
  | .text s, .text t => s = t
  | .bytes a, .bytes b => a = b
  | .list a, .list b => equalItems a b
  | .tuple a, .tuple b => equalItems a b
  | .dict a, .dict b => a.length = b.length && equalEntries a b
  | a, b =>
    match a.number?, b.number? with
    | some x, some y => x.equal y
    | _, _ => false

def equalItems : List Value → List Value → Bool
  | [], [] => true
  | a :: as, b :: bs => equal a b && equalItems as bs
  | _, _ => false

def equalEntries : List (Value × Value) → List (Value × Value) → Bool
  | [], _ => true
  | (key, value) :: rest, b =>
    b.any (fun e => equal key e.1 && equal value e.2) && equalEntries rest b

end

instance : BEq Value := ⟨equal⟩

/-- A dictionary of some entries: of equal keys the first gives key and place, the last the
value. -/
def dictOf (entries : List (Value × Value)) : Value := .dict (Table.ofList entries).entries

/-- The text of a value, if it is one. -/
def text? : Value → Option String
  | .text s => some s
  | _ => none

/-- Whether all keys are texts. -/
def textKeys (entries : List (Value × Value)) : Bool := entries.all fun e => e.1.text?.isSome

mutual

/-- Equal as a storage key. -/
def identical : Value → Value → Bool
  | .null, .null => true
  | .bool a, .bool b => a = b
  | .int a, .int b => a = b
  | .float x, .float y => Decimal.floatText x = Decimal.floatText y
  | .text s, .text t => s = t
  | .bytes a, .bytes b => a = b
  | .list a, .list b | .list a, .tuple b | .tuple a, .list b | .tuple a, .tuple b =>
    identicalItems a b
  | .dict a, .dict b =>
    a.length = b.length &&
      if textKeys a && textKeys b then identicalFields a b else identicalEntries a b
  | _, _ => false

def identicalItems : List Value → List Value → Bool
  | [], [] => true
  | a :: as, b :: bs => identical a b && identicalItems as bs
  | _, _ => false

def identicalFields : List (Value × Value) → List (Value × Value) → Bool
  | [], _ => true
  | (key, value) :: rest, b =>
    b.any (fun e => identical key e.1 && identical value e.2) && identicalFields rest b

def identicalEntries : List (Value × Value) → List (Value × Value) → Bool
  | [], [] => true
  | (key, value) :: rest, (key', value') :: rest' =>
    identical key key' && identical value value' && identicalEntries rest rest'
  | _, _ => false

end

mutual

/-- The name of the type that keeps a value from being a key. -/
def unhashable? : Value → Option String
  | .list _ => some "list"
  | .dict _ => some "dict"
  | .tuple items => unhashableItem? items
  | _ => none

def unhashableItem? : List Value → Option String
  | [] => none
  | v :: rest => (unhashable? v).or (unhashableItem? rest)

end

end Campaign.Value
