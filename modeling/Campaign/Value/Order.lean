import Campaign.Fault
import Campaign.Sort.Runs
import Campaign.Value.Equality

/-!
# Order of values

Numbers are ordered as rationals, texts by code points, bytes by their numbers, and lists by their
first difference. Values of other kinds have no order, nor have two values of different kinds; which
two are met first is part of the answer, so `Value.sort` fixes the comparisons that are made.

Where every two values have an order, sorting is settled by the result. Any others, numbers beside
what is no number and values of several kinds, are sorted by runs.
-/

namespace Campaign.Value

mutual

/-- Whether the first of two values comes before the second. -/
def before : Value → Value → Except Fault Bool
  | .text s, .text t => .ok (s < t)
  | .bytes a, .bytes b => .ok (a.map UInt8.toNat < b.map UInt8.toNat)
  | .list a, .list b => beforeItems a b
  | .tuple a, .tuple b => beforeItems a b
  | a, b =>
    match a.number?, b.number? with
    | some x, some y => .ok (x.lt y)
    | _, _ => .error (.unordered "<" a.typeName b.typeName)

def beforeItems : List Value → List Value → Except Fault Bool
  | [], b => .ok (!b.isEmpty)
  | _ :: _, [] => .ok false
  | a :: as, b :: bs => if a == b then beforeItems as bs else before a b

end

/-- At or before, where two values have an order. -/
def atMost (a b : Value) : Bool :=
  match before b a with
  | .ok later => !later
  | .error _ => false

/-- A number with a place in the order. -/
def isPlaced (v : Value) : Bool :=
  match v.number? with
  | some x => x.equal x
  | none => false

/-- The bytes of a value, if it is bytes. -/
def bytes? : Value → Option (List UInt8)
  | .bytes data => some data
  | _ => none

/-- Whether all values are of one kind that is ordered throughout. -/
def ordered (vs : List Value) : Bool :=
  vs.all isPlaced || vs.all (fun v => v.text?.isSome) || vs.all (fun v => v.bytes?.isSome)

/-- Values in order, equal ones as they came. -/
def sort (vs : List Value) : Except Fault (List Value) :=
  if ordered vs then .ok (vs.mergeSort atMost) else Sort.byRuns before vs

/-- The values without those that equal an earlier one. -/
def distinct (vs : List Value) : List Value :=
  (vs.foldl (fun kept v => if kept.any (· == v) then kept else v :: kept) []).reverse

/-- The distinct values among some that must all be fit to be keys. -/
def keySet (vs : List Value) : Except Fault (List Value) :=
  match vs.findSome? unhashable? with
  | some type => .error (.unhashable type)
  | none => .ok (distinct vs)

end Campaign.Value
