import Campaign.Proofs.Rational

/-!
# Seconds without bounds

A number text may also write an infinity, or the mark for no number, and a duration may be read from
it.  `Extended` is the rationals with these, under the rules of floating point but without rounding:
opposite infinities have no sum, and beside no number nothing is reached and nothing is below.  So
`least` and `positivePart`, which compare once, give what depends on the order of their arguments.

`Extended.expired` and `Extended.nap` say what a deadline makes of a time: whether the waiting
stops, and how long the next sleep is.
-/

namespace Campaign

/-- What a number text stands for. -/
inductive Extended where
  | finite (q : ℚ)
  | infinite (negative : Bool)
  | notANumber
  deriving DecidableEq

namespace Extended

def zero : Extended := finite 0

def neg : Extended → Extended
  | finite q => finite (-q)
  | infinite negative => infinite !negative
  | notANumber => notANumber

def add : Extended → Extended → Extended
  | finite p, finite q => finite (p + q)
  | finite _, infinite n => infinite n
  | infinite m, finite _ => infinite m
  | infinite m, infinite n => if m = n then infinite m else notANumber
  | notANumber, _ | _, notANumber => notANumber

def sub (a b : Extended) : Extended := a.add b.neg

def lt : Extended → Extended → Bool
  | finite p, finite q => p < q
  | finite _, infinite n => !n
  | infinite m, finite _ => m
  | infinite m, infinite n => m && !n
  | notANumber, _ | _, notANumber => false

def le : Extended → Extended → Bool
  | finite p, finite q => p ≤ q
  | finite _, infinite n => !n
  | infinite m, finite _ => m
  | infinite m, infinite n => m || !n
  | notANumber, _ | _, notANumber => false

def isFinite : Extended → Bool
  | finite _ => true
  | _ => false

def text : Extended → String
  | finite q => toString q
  | infinite negative => if negative then "-inf" else "inf"
  | notANumber => "nan"

/-- The number of a reading, nothing left out. -/
def ofReading : Decimal.Reading → Extended
  | .infinite negative => infinite negative
  | .notANumber => notANumber
  | r => finite r.rational

/-- Such seconds.  No operation refuses. -/
instance : Seconds Extended where
  zero := zero
  add a b := .ok (a.add b)
  sub a b := .ok (a.sub b)
  lt a b := .ok (a.lt b)
  reached a b := .ok (b.le a)
  isNegative a := .ok (a.lt zero)
  ofReading := ofReading
  text := text
  written := text

/-- The second if it is smaller, else the first. -/
def least (a b : Extended) : Extended := if b.lt a then b else a

/-- A number above zero stays, any other becomes zero. -/
def positivePart (a : Extended) : Extended := if zero.lt a then a else zero

theorem least_eq (a b : Extended) : Seconds.least a b = .ok (a.least b) := rfl

/-! ### What a deadline makes of a time -/

section

variable (started timeout interval now : Extended)

/-- The waiting stops. -/
def expired : Bool := timeout.le (now.sub started)

/-- The time left until the deadline, never below zero. -/
def remaining : Extended := (timeout.sub (now.sub started)).positivePart

/-- How long the sleep after a look is. -/
def nap : Extended := interval.least (remaining started timeout now)

end

/-! ### Which waits stop -/

section

variable {s : ℚ} {timeout interval : Extended}

/-- **The time comes to where the waiting stops** when it moves by sleeping alone, after a number of
sleeps at most. -/
inductive Stops (s : ℚ) (timeout interval : Extended) : ℕ → Extended → Prop
  | due {count : ℕ} {now : Extended} (h : expired (finite s) timeout now = true) :
      Stops s timeout interval count now
  | nap {count : ℕ} {now : Extended} (h : expired (finite s) timeout now = false)
      (hnap : (nap (finite s) timeout interval now).lt zero = false)
      (rest : Stops s timeout interval count (now.add (nap (finite s) timeout interval now))) :
      Stops s timeout interval (count + 1) now

/-- **The time never comes there**: it stays among some times at which the waiting does not stop,
and at which there is a sleep that is not below zero. -/
def Endless (s : ℚ) (timeout interval now : Extended) : Prop :=
  ∃ among : Extended → Prop, among now ∧ ∀ t, among t →
    expired (finite s) timeout t = false ∧
      (nap (finite s) timeout interval t).lt zero = false ∧
      among (t.add (nap (finite s) timeout interval t))

/-- **A wait comes to an end** if its timeout is not above zero, if it is finite and the interval is
above zero, or if both are without end. -/
def Ends (timeout interval : Extended) : Prop :=
  timeout.le zero ∨ timeout.isFinite ∧ zero.lt interval ∨
    timeout = infinite false ∧ interval = infinite false

instance (timeout interval : Extended) : Decidable (Ends timeout interval) :=
  inferInstanceAs (Decidable (_ ∨ _ ∧ _ ∨ _ ∧ _))

/-- How many sleeps such a wait takes at most. -/
def naps : Extended → Extended → ℕ
  | finite T, finite d => ⌈T / d⌉₊
  | _, _ => 1

@[simp] theorem sub_finite (p q : ℚ) : (finite p).sub (finite q) = finite (p - q) := by
  rw [sub_eq_add_neg]
  rfl

theorem expired_finite {T q : ℚ} :
    expired (finite s) (finite T) (finite q) = decide (s + T ≤ q) := by
  rw [expired, sub_finite]
  exact decide_eq_decide.mpr (by rw [le_sub_iff_add_le'])

theorem remaining_finite {T q : ℚ} (h : q < s + T) :
    remaining (finite s) (finite T) (finite q) = finite (s + T - q) := by
  have hleft : T - (q - s) = s + T - q := by ring
  rw [remaining, sub_finite, sub_finite, hleft, positivePart, if_pos]
  exact decide_eq_true (sub_pos.mpr h)

theorem nap_finite {T d q : ℚ} (h : q < s + T) :
    nap (finite s) (finite T) (finite d) (finite q) = finite (min d (s + T - q)) := by
  rw [nap, remaining_finite h, least]
  show (if decide (s + T - q < d) = true then finite (s + T - q) else finite d) = _
  rcases lt_or_ge (s + T - q) d with hlt | hge
  · rw [if_pos (decide_eq_true hlt), min_eq_right hlt.le]
  · rw [if_neg (by simpa using hge), min_eq_left hge]

/-- With finite numbers a wait stops when the sleeps add up to its timeout. -/
theorem stops_finite {T d : ℚ} (hd : 0 < d) {count : ℕ} {q : ℚ} (h : s + T ≤ q + count * d) :
    Stops s (finite T) (finite d) count (finite q) := by
  induction count generalizing q with
  | zero => exact .due (by rw [expired_finite]; simpa using h)
  | succ count ih =>
    rcases le_or_gt (s + T) q with hdue | hearly
    · exact .due (by rw [expired_finite]; simpa using hdue)
    · have hpos : 0 < min d (s + T - q) := lt_min hd (sub_pos.mpr hearly)
      refine .nap ?_ ?_ ?_
      · rw [expired_finite]
        simpa using hearly
      · rw [nap_finite hearly]
        exact decide_eq_false hpos.le.not_gt
      · rw [nap_finite hearly]
        refine ih ?_
        rcases min_choice d (s + T - q) with hmin | hmin <;> rw [hmin]
        · push_cast at h
          linarith
        · have : 0 ≤ (count : ℚ) * d := by positivity
          linarith

/-- An interval without end is as long as the timeout. -/
theorem stops_finite_infinite (T : ℚ) :
    Stops s (finite T) (infinite false) 1 (finite s) := by
  rcases le_or_gt (s + T) s with hdue | hearly
  · exact .due (by rw [expired_finite]; simpa using hdue)
  · have hnap : nap (finite s) (finite T) (infinite false) (finite s) = finite (s + T - s) := by
      rw [nap, remaining_finite hearly]
      rfl
    refine .nap ?_ ?_ ?_
    · rw [expired_finite]
      simpa using hearly
    · rw [hnap]
      exact decide_eq_false (sub_pos.mpr hearly).le.not_gt
    · rw [hnap]
      refine .due ?_
      rw [add, expired_finite]
      exact decide_eq_true (by linarith)

/-- **Such a wait stops.** -/
theorem Ends.stops (h : Ends timeout interval) :
    Stops s timeout interval (naps timeout interval) (finite s) := by
  rcases h with hdue | ⟨hfinite, hpos⟩ | ⟨rfl, rfl⟩
  · refine .due ?_
    rwa [expired, sub_finite, sub_self]
  · obtain ⟨T, rfl⟩ : ∃ T, timeout = finite T := by
      cases timeout with
      | finite T => exact ⟨T, rfl⟩
      | infinite _ | notANumber => cases hfinite
    rcases interval with d | (_ | _) | _
    · have hd : 0 < d := of_decide_eq_true hpos
      refine stops_finite hd ?_
      have hceil : T / d ≤ ⌈T / d⌉₊ := Nat.le_ceil _
      rw [div_le_iff₀ hd] at hceil
      exact add_le_add_right hceil s
    · exact stops_finite_infinite T
    · cases hpos
    · cases hpos
  · exact .nap rfl rfl (.due rfl)

theorem zero_le_positivePart (a : Extended) : zero.le a.positivePart = true := by
  rw [positivePart]
  split
  · rename_i ha
    rcases a with q | _ | _
    · exact decide_eq_true (of_decide_eq_true ha).le
    · exact ha
    · cases ha
  · rfl

theorem not_lt_of_negative {a b : Extended} (ha : zero.le a = true) (hb : b.lt zero = true) :
    a.lt b = false := by
  rcases a with p | (_ | _) | _
  · rcases b with q | (_ | _) | _
    · have hp : 0 ≤ p := of_decide_eq_true ha
      have hq : q < 0 := of_decide_eq_true hb
      exact decide_eq_false (hq.le.trans hp).not_gt
    · cases hb
    · rfl
    · cases hb
  · cases b <;> rfl
  · cases ha
  · cases ha

/-- An interval below zero is slept for as it is, since what is left is not. -/
theorem nap_of_negative (hnegative : interval.lt zero = true) (started now : Extended) :
    nap started timeout interval now = interval := by
  rw [nap, least, remaining, not_lt_of_negative (zero_le_positivePart _) hnegative]
  rfl

/-- Without a timeout that is a number, nothing ever expires, and nothing is left. -/
theorem endless_timeout (hinterval : interval ≠ notANumber) (hnonneg : interval.lt zero = false) :
    Endless s notANumber interval (finite s) := by
  have hnap : nap (finite s) notANumber interval (finite s) = zero := by
    have hleft : remaining (finite s) notANumber (finite s) = zero := rfl
    rw [nap, hleft, least]
    split
    · rfl
    · rcases interval with d | (_ | _) | _ <;> simp_all [lt, zero]
      linarith
  refine ⟨(· = finite s), rfl, ?_⟩
  rintro t rfl
  rw [hnap]
  exact ⟨rfl, rfl, congrArg finite (add_zero s)⟩

/-- With an interval that is no number, the time becomes none, and then nothing ever expires. -/
theorem endless_interval (hopen : expired (finite s) timeout (finite s) = false) :
    Endless s timeout notANumber (finite s) := by
  refine ⟨fun t => t = finite s ∨ t = notANumber, Or.inl rfl, ?_⟩
  have hnap : ∀ t, nap (finite s) timeout notANumber t = notANumber := by
    intro t
    rw [nap, least, if_neg]
    cases remaining (finite s) timeout t <;> simp [lt]
  rintro t (rfl | rfl)
  · exact ⟨hopen, by rw [hnap]; rfl, by rw [hnap]; exact Or.inr rfl⟩
  · refine ⟨?_, by rw [hnap]; rfl, by rw [hnap]; exact Or.inr rfl⟩
    cases timeout <;> rfl

/-- Sleeps of a finite length never reach the end of a timeout without end. -/
theorem endless_infinite {d : ℚ} (hd : 0 ≤ d) :
    Endless s (infinite false) (finite d) (finite s) := by
  refine ⟨fun t => ∃ q, t = finite q, ⟨s, rfl⟩, ?_⟩
  rintro t ⟨q, rfl⟩
  exact ⟨rfl, decide_eq_false hd.not_gt, q + d, rfl⟩

/-- Sleeps of no length never reach the end of a timeout above zero. -/
theorem endless_zero {T : ℚ} (hT : 0 < T) : Endless s (finite T) (finite 0) (finite s) := by
  have hearly : s < s + T := lt_add_of_pos_right s hT
  have hnap : nap (finite s) (finite T) (finite 0) (finite s) = zero := by
    rw [nap_finite hearly, min_eq_left (sub_pos.mpr hearly).le]
    rfl
  refine ⟨(· = finite s), rfl, ?_⟩
  rintro t rfl
  refine ⟨?_, ?_, ?_⟩
  · rw [expired_finite]
    simpa using hT
  · rw [hnap]
    rfl
  · rw [hnap]
    exact congrArg finite (add_zero s)

theorem open_of_not_ends (h : ¬ Ends timeout interval) :
    expired (finite s) timeout (finite s) = false := by
  rw [expired, sub_finite, sub_self]
  exact Bool.not_eq_true _ ▸ (not_or.mp h).1

/-- **Any other wait does not stop**, unless its interval is below zero. -/
theorem endless_of_not_ends (h : ¬ Ends timeout interval) (hnonneg : interval.lt zero = false) :
    Endless s timeout interval (finite s) := by
  obtain ⟨hopen, hfinite, hboth⟩ := not_or.mp h |>.imp_right not_or.mp
  rw [Bool.not_eq_true] at hopen
  rcases interval with d | (_ | _) | _
  · have hd : 0 ≤ d := not_lt.mp (of_decide_eq_false hnonneg)
    rcases timeout with T | (_ | _) | _
    · have hT : 0 < T := not_le.mp (of_decide_eq_false hopen)
      have hzero : ¬ 0 < d := fun hpos => hfinite ⟨rfl, decide_eq_true hpos⟩
      rw [le_antisymm (not_lt.mp hzero) hd]
      exact endless_zero hT
    · exact endless_infinite hd
    · cases hopen
    · exact endless_timeout (by simp) hnonneg
  · rcases timeout with T | (_ | _) | _
    · exact absurd ⟨rfl, rfl⟩ hfinite
    · exact absurd ⟨rfl, rfl⟩ hboth
    · cases hopen
    · exact endless_timeout (by simp) hnonneg
  · cases hnonneg
  · exact endless_interval (open_of_not_ends h)

end

end Extended

end Campaign
