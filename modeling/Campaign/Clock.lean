import Campaign.Act
import Campaign.Seconds

/-!
# Clock and deadline

The clock moves only by sleeping. It keeps the lengths of all sleeps, allows a limited number of
them, and may be set to interrupt a sleep that has been noted but not yet slept.

A deadline is a point in time after which waiting stops. It can be cancelled, which also ends the
waiting.
-/

namespace Campaign

variable {τ : Type}

/-- The time, and the sleeps that led to it, the latest first. -/
structure Clock (τ : Type) where
  now : τ
  slept : List τ := []
  /-- How many sleeps there may be. -/
  limit : Nat := 5000
  /-- From which sleep on a sleep is interrupted. -/
  interruptAt : Option Int := none

namespace Clock

variable [Seconds τ]

/-- Whether the sleep noted last is interrupted. -/
def interrupts (c : Clock τ) : Bool :=
  match c.interruptAt with
  | none => false
  | some n => n ≤ c.slept.length

/-- Moves the time on. -/
def advance (length : τ) : Act (Clock τ) Unit := do
  let now ← Act.ofExcept (Seconds.add (← get).now length)
  modify fun c => { c with now }

/-- Sleeps. -/
def sleep (length : τ) : Act (Clock τ) Unit := do
  if ← Act.ofExcept (Seconds.isNegative length) then throw .negativeSleep
  let c ← get
  if c.limit ≤ c.slept.length then throw .sleepLimit
  let noted := { c with slept := length :: c.slept }
  set noted
  if noted.interrupts then throw (.interrupted "")
  advance length

end Clock

/-- A point in time after which waiting stops. -/
structure Deadline (τ : Type) where
  started : τ
  timeout : τ
  cancelled : Bool := false

namespace Deadline

variable [Seconds τ]

/-- The time since the start. -/
def elapsed (d : Deadline τ) (now : τ) : Except Fault τ := Seconds.sub now d.started

/-- The time that is left. -/
def remaining (d : Deadline τ) (now : τ) : Except Fault τ := do
  if d.cancelled then return Seconds.zero
  Seconds.positivePart (← Seconds.sub d.timeout (← d.elapsed now))

/-- Whether the waiting stops. -/
def expired (d : Deadline τ) (now : τ) : Except Fault Bool := do
  if d.cancelled then return true
  Seconds.reached (← d.elapsed now) d.timeout

/-- Ends the waiting. -/
def cancel (d : Deadline τ) : Deadline τ := { d with cancelled := true }

end Deadline

end Campaign
