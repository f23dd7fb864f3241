import Campaign.Clock

/-!
# Polling

`poll` looks whether a condition holds, and while it does not and the deadline has not expired,
sleeps and looks again. A sleep takes the given interval, or what remains until the deadline if that
is less, so the last look falls on the deadline. The condition wins over the deadline: it is looked
at once even when the deadline has expired.

The condition, the clock and the deadline may all depend on the state and change with it.
-/

namespace Campaign

variable {σ τ : Type} [Seconds τ]

/-- How a state tells the time and sleeps. -/
structure Timer (σ τ : Type) where
  read : σ → τ × σ
  sleep : τ → Act σ Unit

namespace Timer

/-- Whether a deadline has expired; one that is cancelled has, whatever the time. -/
def expired (timer : Timer σ τ) (deadline : σ → Deadline τ) : Act σ Bool := fun s =>
  let d := deadline s
  if d.cancelled then .ok true s
  else
    let (now, s) := timer.read s
    Act.ofExcept (d.expired now) s

/-- The time left until a deadline. -/
def remaining (timer : Timer σ τ) (deadline : σ → Deadline τ) : Act σ τ := fun s =>
  let d := deadline s
  if d.cancelled then .ok Seconds.zero s
  else
    let (now, s) := timer.read s
    Act.ofExcept (d.remaining now) s

/-- Whether the condition came to hold before the waiting stopped, after at most `fuel` looks. -/
def poll (timer : Timer σ τ) (deadline : σ → Deadline τ) (interval : τ) (holds : Act σ Bool) :
    (fuel : Nat) → Act σ Bool
  | 0 => throw .sleepLimit
  | fuel + 1 => do
    if ← holds then return true
    if ← timer.expired deadline then return false
    timer.sleep (← Act.ofExcept (Seconds.least interval (← timer.remaining deadline)))
    poll timer deadline interval holds fuel

end Timer

end Campaign
