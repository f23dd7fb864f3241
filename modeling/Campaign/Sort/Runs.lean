import Campaign.Sort.Merge

/-!
# Sorting by runs

A row is cut into runs that are in order as they stand, or strictly in the opposite order and then
turned round. A short run is made longer by putting the elements behind it in their places. Runs are
merged with their neighbours as they are found, so that runs of like size meet: `depth` says how
deep in an even division of the whole row the border between two runs lies, and of two borders the
deeper one is closed first.

Equal elements stay as they came. A comparison may fail, and the first one that does ends the
sorting; so which comparisons are made, and in which order, is part of what is fixed here.
-/

namespace Campaign.Sort

variable {α ε : Type} (before : α → α → Except ε Bool)

/-! ## Runs -/

/-- How many elements after `last` go on in a direction: each comes before the one in front of it,
or none does. -/
def sameWay (down : Bool) (last : α) : List α → Except ε Nat
  | [] => .ok 0
  | x :: rest => do
    if (← before x last) = down then return (← sameWay down x rest) + 1 else return 0

/-- The run at the head, in order, and the rest. -/
def headRun : List α → Except ε (Array α × List α)
  | [] => .ok (#[], [])
  | [a] => .ok (#[a], [])
  | a :: b :: rest => do
    let down ← before b a
    let k ← sameWay before down b rest
    let run := (a :: b :: rest.take k).toArray
    return (if down then run.reverse else run, rest.drop k)

/-- The place of an element in a run, behind its equals. -/
def slot (x : α) (run : Array α) : Except ε Nat :=
  halve (fun y => (before x y).map not) run 0 run.size

/-- A run with further elements put in their places. -/
def insertAll (run : Array α) : List α → Except ε (Array α)
  | [] => .ok run
  | x :: rest => do
    let place ← slot before x run
    insertAll (run.extract 0 place ++ #[x] ++ run.extract place run.size) rest

/-- How long a run has to be, for a row of some length: a number from 32 to 64 of which about a
power of two makes the length. -/
def leastRun (n : Nat) : Nat := if n < 64 then n else leastRunOf n 0 n
where
  leastRunOf (n odd : Nat) : Nat → Nat
    | 0 => n + odd
    | fuel + 1 => if n < 64 then n + odd else leastRunOf (n / 2) (max odd (n % 2)) fuel

/-- The run at the head, made as long as it has to be, and the rest. -/
def nextRun (least : Nat) (xs : List α) : Except ε (Array α × List α) := do
  let (run, rest) ← headRun before xs
  let more := least - run.size
  return (← insertAll before run (rest.take more), rest.drop more)

/-! ## Borders -/

/-- The first binary place at which two fractions `a / n` and `b / n` differ. -/
def depth (n : Nat) : (fuel a b : Nat) → Nat
  | 0, _, _ => 0
  | fuel + 1, a, b =>
    if n ≤ a then depth n fuel (2 * (a - n)) (2 * (b - n)) + 1
    else if n ≤ b then 1
    else depth n fuel (2 * a) (2 * b) + 1

/-- The depth of the border between two neighbouring runs of a row of `n` elements, the first of
which begins at `start`: their middles are looked at. -/
def borderDepth (n start first second : Nat) : Nat :=
  let a := 2 * start + first
  depth n (2 * n.log2 + 4) a (a + first + second)

/-- Runs that wait to be merged, the last one first, each with the depth of the border behind it. -/
structure Pending (α : Type) where
  runs : List (Array α × Nat) := []
  patience : Nat := Merging.worthwhile

namespace Pending

/-- Merges the two last runs. -/
def mergeLast (p : Pending α) : Except ε (Pending α) :=
  match p.runs with
  | (y, _) :: (x, d) :: rest => do
    let (xy, patience) ← merge before p.patience x y
    return { runs := (xy, d) :: rest, patience }
  | _ => .ok p

/-- Merges the second and third last run. -/
def mergeBelow (p : Pending α) : Except ε (Pending α) :=
  match p.runs with
  | z :: (y, _) :: (x, d) :: rest => do
    let (xy, patience) ← merge before p.patience x y
    return { runs := z :: (xy, d) :: rest, patience }
  | _ => .ok p

/-- Closes the borders that lie deeper than a new one. -/
def close (d : Nat) : (fuel : Nat) → Pending α → Except ε (Pending α)
  | 0, p => .ok p
  | fuel + 1, p =>
    match p.runs with
    | _ :: (_, e) :: _ => if d < e then do close d fuel (← mergeLast before p) else .ok p
    | _ => .ok p

/-- Runs with a border of some depth behind the last one. -/
def bordered (d : Nat) : List (Array α × Nat) → List (Array α × Nat)
  | [] => []
  | (x, _) :: rest => (x, d) :: rest

/-- One more run, in a row of `n` elements. -/
def push (n : Nat) (run : Array α) (p : Pending α) : Except ε (Pending α) :=
  match p.runs with
  | [] => .ok { p with runs := [(run, 0)] }
  | (last, _) :: below => do
    let start := below.foldl (fun n r => n + r.1.size) 0
    let d := borderDepth n start last.size run.size
    let p ← close before d p.runs.length p
    return { p with runs := (run, 0) :: bordered d p.runs }

/-- Merges all runs, the smaller neighbour first. -/
def collapse : (fuel : Nat) → Pending α → Except ε (Array α)
  | 0, p => .ok ((p.runs.headD (#[], 0)).1)
  | fuel + 1, p =>
    match p.runs with
    | [] => .ok #[]
    | [(run, _)] => .ok run
    | (z, _) :: _ :: (x, _) :: _ => do
      collapse fuel (← if x.size < z.size then mergeBelow before p else mergeLast before p)
    | _ => do collapse fuel (← mergeLast before p)

end Pending

/-- Finds all runs and merges them as they come. -/
def allRuns (n least : Nat) : (fuel : Nat) → Pending α → List α → Except ε (Array α)
  | _, p, [] => p.collapse before p.runs.length
  | 0, p, _ => p.collapse before p.runs.length
  | fuel + 1, p, x :: xs => do
    let (run, rest) ← nextRun before least (x :: xs)
    allRuns n least fuel (← p.push before n run) rest

/-- A row in order, equal elements as they came, or the first comparison that fails. -/
def byRuns (xs : List α) : Except ε (List α) :=
  (allRuns before xs.length (leastRun xs.length) xs.length {} xs).map Array.toList

end Campaign.Sort
