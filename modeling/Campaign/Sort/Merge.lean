/-!
# Merging two runs

Two rows that are each in order become one. The smaller one is used up from its side: from the front
if it comes first, else from the end. The heads are compared one by one until one row has won some
times in a row; from then on `count`, which leaps ahead and then halves, finds how many elements can
go at once, until that no longer pays.

A comparison may fail, and then so does the merge. Which comparisons are made is part of what is
fixed here: it decides which failure is met first, and what becomes of elements without an order.
-/

namespace Campaign.Sort

variable {α ε : Type}

section

variable (goes : α → Except ε Bool)

/-- Whether the element at a place goes; there is none past the end. -/
def goesAt (xs : Array α) (i : Nat) : Except ε Bool :=
  match xs[i]? with
  | some x => goes x
  | none => .ok false

/-- How many elements go, between two bounds. -/
def halve (xs : Array α) (low high : Nat) : Except ε Nat :=
  if low < high then
    let middle := low + (high - low) / 2
    match goesAt goes xs middle with
    | .error e => .error e
    | .ok true => halve xs (middle + 1) high
    | .ok false => halve xs low middle
  else .ok low
termination_by high - low

/-- How far to leap from a place while `ahead` says so, at most `most`: the leap before the last and
the last. -/
def leap (ahead : Nat → Except ε Bool) (most : Nat) : (fuel last next : Nat) → Except ε (Nat × Nat)
  | 0, last, _ => .ok (last, most)
  | fuel + 1, last, next =>
    if next < most then
      match ahead next with
      | .error e => .error e
      | .ok true => leap ahead most fuel next (2 * next + 1)
      | .ok false => .ok (last, next)
    else .ok (last, most)

/-- How many elements go, when those that go come before those that do not; looked for from a
place. -/
def count (xs : Array α) (start : Nat) : Except ε Nat := do
  if ← goesAt goes xs start then
    let ahead (step : Nat) := goesAt goes xs (start + step)
    let (last, next) ← leap ahead (xs.size - start) xs.size 0 1
    halve goes xs (start + last + 1) (start + next)
  else
    let ahead (step : Nat) := (goesAt goes xs (start - step)).map not
    let (last, next) ← leap ahead (start + 1) xs.size 0 1
    halve goes xs (start + 1 - next) (start - last)

end

/-- From which side a merge works. -/
inductive Side where
  | front
  | back
  deriving DecidableEq, Repr

namespace Side

/-- The next element of a row. -/
def next? (side : Side) (xs : Array α) : Option α :=
  match side with
  | .front => xs[0]?
  | .back => xs.back?

/-- The place of the next element. -/
def start (side : Side) (xs : Array α) : Nat :=
  match side with
  | .front => 0
  | .back => xs.size - 1

end Side

/-- A merge on its way: what is left of both rows, and what has been merged. -/
structure Merging (α : Type) where
  first : Array α
  second : Array α
  merged : Array α := #[]
  /-- How many wins in a row make a merge leap ahead. -/
  patience : Nat

namespace Merging

/-- Whether nothing is left to compare. -/
def isDone (side : Side) (m : Merging α) : Bool :=
  match side with
  | .front => m.first.size ≤ 1 || m.second.isEmpty
  | .back => m.second.size ≤ 1 || m.first.isEmpty

/-- What has been merged with what is left. One element left of the smaller row belongs at the far
end. -/
def result (side : Side) (m : Merging α) : Array α :=
  match side with
  | .front => m.merged ++ m.second ++ m.first
  | .back => m.second ++ m.first ++ m.merged

/-- Moves elements of the first row. -/
def takeFirst (side : Side) (k : Nat) (m : Merging α) : Merging α :=
  let n := m.first.size
  match side with
  | .front => { m with first := m.first.extract k n, merged := m.merged ++ m.first.extract 0 k }
  | .back =>
    { m with first := m.first.extract 0 (n - k), merged := m.first.extract (n - k) n ++ m.merged }

/-- Moves elements of the second row. -/
def takeSecond (side : Side) (k : Nat) (m : Merging α) : Merging α :=
  let n := m.second.size
  match side with
  | .front => { m with second := m.second.extract k n, merged := m.merged ++ m.second.extract 0 k }
  | .back =>
    { m with
      second := m.second.extract 0 (n - k), merged := m.second.extract (n - k) n ++ m.merged }

variable (before : α → α → Except ε Bool)

/-- How many elements of the first row are next, beside the next one of the second. -/
def firstAhead (side : Side) (m : Merging α) : Except ε Nat := do
  match side.next? m.second with
  | none => return 0
  | some y =>
    let k ← count (fun x => (before y x).map not) m.first (side.start m.first)
    return match side with
      | .front => k
      | .back => m.first.size - k

/-- How many elements of the second row are next, beside the next one of the first. -/
def secondAhead (side : Side) (m : Merging α) : Except ε Nat := do
  match side.next? m.first with
  | none => return 0
  | some x =>
    let k ← count (fun y => before y x) m.second (side.start m.second)
    return match side with
      | .front => k
      | .back => m.second.size - k

/-- Whether the next element of the second row comes before that of the first. -/
def secondFirst (side : Side) (m : Merging α) : Except ε Bool :=
  match side.next? m.first, side.next? m.second with
  | some x, some y => before y x
  | _, _ => .ok false

/-- How many elements at once make leaping ahead worth while. -/
def worthwhile : Nat := 7

/-- Ends a merge, one element after the other while `leaping` is none and else in leaps; `leaping`
counts the last two, and `won` the wins in a row of the first and of the second row. -/
def finish (side : Side) : (fuel : Nat) → (leaping : Bool) → (won : Nat × Nat) → Merging α →
    Except ε (Merging α)
  | 0, _, _, m => .ok m
  | fuel + 1, false, won, m => do
    if m.isDone side then return m
    let second ← m.secondFirst before side
    let takesSecond := second = (side = .front)
    let m := if takesSecond then m.takeSecond side 1 else m.takeFirst side 1
    let won := if takesSecond then (0, won.2 + 1) else (won.1 + 1, 0)
    if m.isDone side then return m
    if m.patience ≤ max won.1 won.2 then
      finish side fuel true (0, 0) { m with patience := m.patience + 1 }
    else finish side fuel false won m
  | fuel + 1, true, _, m => do
    if m.isDone side then return m
    let m := { m with patience := if 1 < m.patience then m.patience - 1 else m.patience }
    let k ← m.firstAhead before side
    let m := m.takeFirst side k
    if m.isDone side then return m
    let m := m.takeSecond side 1
    if m.isDone side then return m
    let l ← m.secondAhead before side
    let m := m.takeSecond side l
    if m.isDone side then return m
    let m := m.takeFirst side 1
    if m.isDone side then return m
    if worthwhile ≤ max k l then finish side fuel true (0, 0) m
    else finish side fuel false (0, 0) { m with patience := m.patience + 1 }

end Merging

section

variable (before : α → α → Except ε Bool)

/-- Two rows with an order each as one, equal elements as they came, and the patience left. Elements
that are in place already at either end are left alone. -/
def merge (patience : Nat) (first second : Array α) : Except ε (Array α × Nat) := do
  match second[0]?, first.back? with
  | some y, some x =>
    let k ← count (fun x => (before y x).map not) first 0
    let (settled, first) := (first.extract 0 k, first.extract k first.size)
    if first.isEmpty then return (settled ++ second, patience)
    let l ← count (fun y => before y x) second (second.size - 1)
    let (second, rest) := (second.extract 0 l, second.extract l second.size)
    if second.isEmpty then return (settled ++ first ++ rest, patience)
    let side : Side := if first.size ≤ second.size then .front else .back
    let m : Merging α := { first, second, patience }
    let m := if side = .front then m.takeSecond side 1 else m.takeFirst side 1
    let m ← m.finish before side (first.size + second.size) false (0, 0)
    return (settled ++ m.result side ++ rest, m.patience)
  | _, _ => return (first ++ second, patience)

end

end Campaign.Sort
