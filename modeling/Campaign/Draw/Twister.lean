/-!
# The Mersenne twister

The generator MT19937 of random 32-bit words: 624 words of state, remade all at once when they are
used up, and a last mixing of each word that is given out. `Twister.ofKey` starts it from a key of
words.
-/

namespace Campaign.Draw

/-- The state of the generator and the place of the next word. -/
structure Twister where
  words : Array UInt32
  place : Nat

namespace Twister

/-- The number of words of state. -/
def size : Nat := 624

/-- A word of some state; zero past its end. -/
def at? (w : Array UInt32) (i : Nat) : UInt32 := w.getD i 0

/-- The state that starts from one word. -/
def ofWord (word : UInt32) : Array UInt32 :=
  (List.range (size - 1)).foldl (fun w i =>
    let last := at? w i
    w.push ((1812433253 : UInt32) * (last ^^^ (last >>> 30)) + UInt32.ofNat (i + 1))) #[word]

/-- A state under change, with the place to change next. -/
structure Mixing where
  words : Array UInt32
  place : Nat := 1

/-- Sets the word at the place and moves on; behind the last word comes the second, and the first
takes the value of the last. -/
def Mixing.put (m : Mixing) (word : UInt32) : Mixing :=
  let w := m.words.set! m.place word
  if m.place + 1 ≥ size then ⟨w.set! 0 (at? w (size - 1)), 1⟩ else ⟨w, m.place + 1⟩

/-- The word at the place, mixed with the one before it. -/
def Mixing.mixed (m : Mixing) (factor : UInt32) : UInt32 :=
  let last := at? m.words (m.place - 1)
  at? m.words m.place ^^^ ((last ^^^ (last >>> 30)) * factor)

/-- The generator that starts from a key that is not empty. -/
def ofKey (key : Array UInt32) : Twister :=
  let first := (List.range (max size key.size)).foldl (fun (m : Mixing) k =>
    let j := k % key.size
    m.put (m.mixed 1664525 + at? key j + UInt32.ofNat j)) ⟨ofWord 19650218, 1⟩
  let second := (List.range (size - 1)).foldl (fun (m : Mixing) _ =>
    m.put (m.mixed 1566083941 - UInt32.ofNat m.place)) first
  ⟨second.words.set! 0 0x80000000, size⟩

/-- One word of the next state. -/
def remade (w : Array UInt32) (k : Nat) : UInt32 :=
  let y := (at? w k &&& 0x80000000) ||| (at? w ((k + 1) % size) &&& 0x7fffffff)
  let odd : UInt32 := if y &&& 1 = 0 then 0 else 0x9908b0df
  at? w ((k + 397) % size) ^^^ (y >>> 1) ^^^ odd

/-- The next state. -/
def remake (w : Array UInt32) : Array UInt32 :=
  (List.range size).foldl (fun w k => w.set! k (remade w k)) w

/-- The last mixing of a word. -/
def temper (y : UInt32) : UInt32 :=
  let y := y ^^^ (y >>> 11)
  let y := y ^^^ ((y <<< 7) &&& 0x9d2c5680)
  let y := y ^^^ ((y <<< 15) &&& 0xefc60000)
  y ^^^ (y >>> 18)

/-- The next word. -/
def next (t : Twister) : UInt32 × Twister :=
  let t := if t.place < size then t else ⟨remake t.words, 0⟩
  (temper (at? t.words t.place), { t with place := t.place + 1 })

end Twister

end Campaign.Draw
