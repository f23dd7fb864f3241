/-!
# Sampling without replacement

`sample` takes a number of elements of a pool from distinct places, using a source of random words.
A number below `n` is found by drawing as many bits as `n` has until they make one. If the pool is
not much larger than the sample, the elements are taken out of a copy of it, the last one filling
each gap; otherwise places are drawn, and drawn again when taken already.

Each attempt at a number succeeds with at least even odds; after `tries` failures in a row the
least number that is free is taken, so that a sample is always found.
-/

namespace Campaign.Draw

variable {γ α : Type} (next : γ → UInt32 × γ)

/-- A random number of at most 32 bits. -/
def bits (count : Nat) (g : γ) : Nat × γ :=
  let (word, g) := next g
  (word.toNat >>> (32 - count), g)

/-- How often a number is tried for. -/
def tries : Nat := 1024

/-- A random number below `n` that is not taken, or the least such number after the last try. -/
def free (n : Nat) (taken : List Nat) : (tries : Nat) → γ → Nat × γ
  | 0, g => (((List.range n).find? fun j => !taken.contains j).getD 0, g)
  | tries + 1, g =>
    let (j, g) := bits next (n.log2 + 1) g
    if j < n && !taken.contains j then (j, g) else free n taken tries g

/-- A list with the last element in the place of another, which is gone. -/
def fillFromEnd (pool : List α) (j : Nat) : List α :=
  match pool.getLast? with
  | none => []
  | some last => (pool.set j last).dropLast

/-- Takes elements out of a pool. -/
def takeOut : (count : Nat) → List α → γ → List α
  | 0, _, _ => []
  | count + 1, pool, g =>
    let (j, g) := free next pool.length [] tries g
    match pool[j]? with
    | none => []
    | some x => x :: takeOut count (fillFromEnd pool j) g

/-- Draws distinct places below `n`, the ones drawn before being taken. -/
def places (n : Nat) : (count : Nat) → (taken : List Nat) → γ → List Nat
  | 0, _, _ => []
  | count + 1, taken, g =>
    let (j, g) := free next n taken tries g
    j :: places n count (j :: taken) g

/-- The least power of four that reaches a number above one. -/
def powerOfFour (m : Nat) : Nat := Nat.pow 4 ((m - 1).log2 / 2 + 1)

/-- Up to which size a pool is copied for a sample. -/
def copyLimit (count : Nat) : Nat := if count ≤ 5 then 21 else 21 + powerOfFour (3 * count)

/-- Elements of a pool from distinct places, in the order in which they were drawn. -/
def sample (count : Nat) (pool : List α) (g : γ) : List α :=
  if pool.length ≤ copyLimit count then takeOut next count pool g
  else (places next pool.length count [] g).filterMap fun j => pool[j]?

end Campaign.Draw
