import Campaign.Journal
import Campaign.Poll

/-!
# The world of a run

A run sees a node, a clock and its journal. The actions here are what everything else is made of:
note something, call the node, sleep, wait.
-/

namespace Campaign

/-- The state of a node, the clock, and the journal, the latest event first. -/
structure World (ν τ : Type) where
  node : ν
  clock : Clock τ
  journal : List (Event τ) := []

namespace World

variable {ν τ α : Type}

/-- Writes an event down. -/
def record (e : Event τ) : Act (World ν τ) Unit := fun w =>
  .ok () { w with journal := e :: w.journal }

/-- Gives a notice. -/
def note (n : Notice τ) : Act (World ν τ) Unit := record (.noticed n)

/-- Prints a line. -/
def print (line : String) : Act (World ν τ) Unit := record (.printed (line ++ "\n"))

/-- Calls the node and writes the call down with its outcome. -/
def call (act : τ → Act ν α) (event : Except Fault α → Event τ) : Act (World ν τ) α := fun w =>
  match act w.clock.now w.node with
  | .ok a n => .ok a { w with node := n, journal := event (.ok a) :: w.journal }
  | .error f n => .error f { w with node := n, journal := event (.error f) :: w.journal }

/-- Sleeps. -/
def sleep [Seconds τ] (length : τ) : Act (World ν τ) Unit :=
  Act.within World.clock (fun c w => { w with clock := c }) (Clock.sleep length)

/-- The clock of a world. -/
def timer [Seconds τ] : Timer (World ν τ) τ where
  read w := (w.clock.now, w)
  sleep := sleep

/-- Waits until a condition holds or a deadline has expired. Every look but the last is followed by
a sleep, so there cannot be more looks than sleeps that are left, and one. -/
def waitUntil [Seconds τ] (deadline : World ν τ → Deadline τ) (interval : τ)
    (holds : Act (World ν τ) Bool) : Act (World ν τ) Bool := fun w =>
  timer.poll deadline interval holds (w.clock.limit - w.clock.slept.length + 1) w

/-- Waits until a condition holds or a time has passed from now. -/
def waitFor [Seconds τ] (timeout interval : τ) (holds : Act (World ν τ) Bool) :
    Act (World ν τ) Bool := fun w =>
  waitUntil (fun _ => { started := w.clock.now, timeout }) interval holds w

end World

end Campaign
