import Campaign.Proofs.Unread
import Mathlib.Data.Rat.Floor
import Mathlib.Tactic.Linarith

/-!
# Waiting in exact time

Rational seconds are reckoned with exactly and refuse nothing, so what a wait does can be told to
the second.  The clock moves by sleeping alone: `Clock.Rests` bounds the sleeps between two of its
states.

`Looks` is the loop of looks without its counter: a look, and if it says no and the due time has not
come, a sleep up to that time and the loop again.  Every wait is such a loop (`looks_waitFor`), and
the loop says what the wait comes to (`Looks.waitFor`).  It sleeps no longer than up to the due time
and, for an interval above zero, only so often that it comes to an end by itself (`Looks.rests`),
and the limit on sleeps does not matter if there is room for those (`Looks.limited`).
-/

namespace Campaign

open Act

variable {ν : Type}

/-- The number of a reading.  What is no number or has no bound is not among the rationals and
counts as zero. -/
def Decimal.Reading.rational : Decimal.Reading → ℚ
  | .decimal negative digits exponent => Decimal.signedNat negative digits * 10 ^ exponent
  | _ => 0

/-- Rational seconds. -/
instance : Seconds ℚ where
  zero := 0
  add a b := .ok (a + b)
  sub a b := .ok (a - b)
  lt a b := .ok (decide (a < b))
  reached a b := .ok (decide (b ≤ a))
  isNegative a := .ok (decide (a < 0))
  ofReading := Decimal.Reading.rational
  text := toString
  written := toString

namespace Seconds

theorem least_rational (a b : ℚ) : least a b = .ok (min a b) := by
  show Except.ok (if decide (b < a) = true then b else a) = .ok (min a b)
  rcases lt_or_ge b a with h | h
  · simp [h, min_eq_right h.le]
  · simp [not_lt.mpr h, min_eq_left h]

theorem positivePart_rational (a : ℚ) : positivePart a = .ok (max 0 a) := by
  show Except.ok (if decide (0 < a) = true then a else 0) = .ok (max 0 a)
  rcases lt_or_ge 0 a with h | h
  · simp [h, max_eq_right h.le]
  · simp [not_lt.mpr h, max_eq_left h]

theorem isNegative_rational {a : ℚ} (h : 0 ≤ a) : (isNegative a : Except Fault Bool) = .ok false :=
  congrArg Except.ok (decide_eq_false (not_lt.mpr h))

end Seconds

/-! ### The clock -/

namespace Clock

/-- No sleep is interrupted. -/
def Steady (c : Clock ℚ) : Prop := c.interruptAt = none

/-- The limit on sleeps leaves room for some more. -/
def Fits (count : ℕ) (c : Clock ℚ) : Prop := c.slept.length + count ≤ c.limit

/-- The clock after some sleeps more. -/
def afterAll (lengths : List ℚ) (c : Clock ℚ) : Clock ℚ :=
  { c with now := c.now + lengths.sum, slept := lengths ++ c.slept }

/-- The clock with another limit on its sleeps. -/
def limited (limit : ℕ) (c : Clock ℚ) : Clock ℚ := { c with limit }

/-- **Between two states of a clock there is nothing but sleeps**, at most so many, of no more than
a total length.  None is below zero, so at no time between the two has more been slept. -/
def Rests (total : ℚ) (count : ℕ) (c d : Clock ℚ) : Prop :=
  ∃ lengths : List ℚ, (∀ l ∈ lengths, 0 ≤ l) ∧ lengths.sum ≤ total ∧ lengths.length ≤ count ∧
    d = c.afterAll lengths

variable {c d e : Clock ℚ} {total more : ℚ} {count times : ℕ}

theorem afterAll_append (later earlier : List ℚ) :
    (c.afterAll earlier).afterAll later = c.afterAll (later ++ earlier) := by
  simp only [afterAll, List.sum_append, List.append_assoc]
  congr 1
  ring

theorem Rests.refl (c : Clock ℚ) : Rests 0 0 c c := by
  refine ⟨[], by simp, by simp, by simp, ?_⟩
  simp [afterAll]

theorem Rests.trans (h : Rests total count c d) (g : Rests more times d e) :
    Rests (total + more) (count + times) c e := by
  obtain ⟨lengths, hnonneg, hsum, hcount, rfl⟩ := h
  obtain ⟨lengths', hnonneg', hsum', hcount', rfl⟩ := g
  refine ⟨lengths' ++ lengths, fun l hl => ?_, ?_, ?_, afterAll_append _ _⟩
  · exact (List.mem_append.mp hl).elim (hnonneg' l) (hnonneg l)
  · rw [List.sum_append]
    linarith
  · rw [List.length_append]
    omega

theorem Rests.mono (h : Rests total count c d) (htotal : total ≤ more) (hcount : count ≤ times) :
    Rests more times c d := by
  obtain ⟨lengths, hnonneg, hsum, hlength, rfl⟩ := h
  exact ⟨lengths, hnonneg, hsum.trans htotal, hlength.trans hcount, rfl⟩

theorem Rests.steady (h : Rests total count c d) (hc : c.Steady) : d.Steady := by
  obtain ⟨lengths, -, -, -, rfl⟩ := h
  exact hc

/-- Room for these sleeps and others leaves room for the others. -/
theorem Rests.fits (h : Rests total count c d) (hc : c.Fits (count + times)) : d.Fits times := by
  obtain ⟨lengths, -, -, hcount, rfl⟩ := h
  simp only [Fits, afterAll, List.length_append] at hc ⊢
  omega

theorem Rests.fits_limited {limit : ℕ} (h : Rests total count c d)
    (hc : (c.limited limit).Fits (count + times)) : (d.limited limit).Fits times := by
  obtain ⟨lengths, -, -, hcount, rfl⟩ := h
  simp only [Fits, limited, afterAll, List.length_append] at hc ⊢
  omega

/-- A sleep that nothing interrupts takes its time, if another sleep is allowed. -/
theorem runOn_sleep (hc : c.Steady) {length : ℚ} (hlength : 0 ≤ length) :
    (sleep length).runOn c =
      if c.limit ≤ c.slept.length then (.error .sleepLimit, c)
      else (.ok (), c.afterAll [length]) := by
  have hquiet : interrupts { c with slept := length :: c.slept } = false := by
    have hnone : c.interruptAt = none := hc
    simp only [interrupts, hnone]
  rw [runOn_sleep_eq, Seconds.isNegative_rational hlength]
  simp only [hquiet, Bool.false_eq_true, if_false, afterAll, List.sum_singleton]
  rfl

end Clock

/-! ### Worlds -/

namespace World

/-- The worlds before and after have the same clock. -/
def SameClock (w v : World ν ℚ) : Prop := v.clock = w.clock

instance : IsPreorder (World ν ℚ) SameClock where
  refl _ := rfl
  trans _ _ _ h g := g.trans h

/-- The world after a sleep. -/
def rested (length : ℚ) (w : World ν ℚ) : World ν ℚ :=
  { w with clock := w.clock.afterAll [length] }

/-- The world with another limit on its sleeps. -/
def limited (limit : ℕ) (w : World ν ℚ) : World ν ℚ := { w with clock := w.clock.limited limit }

theorem recast_limited (limit : ℕ) :
    recast (ν := ν) (Clock.limited limit) [] = limited limit := by
  funext w
  simp [recast, limited]

theorem runOn_sleep {w : World ν ℚ} (hw : w.clock.Steady) {length : ℚ} (hlength : 0 ≤ length) :
    (sleep length).runOn w =
      if w.clock.limit ≤ w.clock.slept.length then (.error .sleepLimit, w)
      else (.ok (), w.rested length) := by
  rw [sleep, runOn_within, Clock.runOn_sleep hw hlength]
  split <;> rfl

theorem runOn_expired (started timeout : ℚ) (w : World ν ℚ) :
    (timer.expired fun _ => { started, timeout }).runOn w =
      (.ok (decide (started + timeout ≤ w.clock.now)), w) := by
  have hdue : timeout ≤ w.clock.now - started ↔ started + timeout ≤ w.clock.now := by
    constructor <;> intro h <;> linarith
  rw [← decide_eq_decide.mpr hdue]
  rfl

theorem runOn_remaining (started timeout : ℚ) (w : World ν ℚ) :
    (timer.remaining fun _ => { started, timeout }).runOn w =
      (.ok (max 0 (started + timeout - w.clock.now)), w) := by
  have hleft : timeout - (w.clock.now - started) = started + timeout - w.clock.now := by ring
  have hpositive : ({ started, timeout } : Deadline ℚ).remaining w.clock.now =
      .ok (max 0 (started + timeout - w.clock.now)) := by
    rw [← hleft, ← Seconds.positivePart_rational]
    rfl
  show (ofExcept (({ started, timeout } : Deadline ℚ).remaining w.clock.now)).runOn w = _
  rw [hpositive, runOn_ofExcept]

end World

/-! ### The loop -/

/-- **The loop of looks without its counter**, in a world whose clock is moved by the loop alone.  A
look ends it that says yes or fails, or comes when the wait is due; after any other there is a
sleep, of the interval or up to the due time, and the loop goes on, unless no more sleeps are
allowed. -/
inductive Looks (holds : Act (World ν ℚ) Bool) (interval due : ℚ) :
    World ν ℚ → Except Fault Bool → World ν ℚ → Prop
  | yes {w v : World ν ℚ} (h : holds.runOn w = (.ok true, v)) :
      Looks holds interval due w (.ok true) v
  | fault {w v : World ν ℚ} {f : Fault} (h : holds.runOn w = (.error f, v)) :
      Looks holds interval due w (.error f) v
  | late {w v : World ν ℚ} (h : holds.runOn w = (.ok false, v)) (hlate : due ≤ v.clock.now) :
      Looks holds interval due w (.ok false) v
  | full {w v : World ν ℚ} (h : holds.runOn w = (.ok false, v)) (hearly : v.clock.now < due)
      (hfull : v.clock.limit ≤ v.clock.slept.length) :
      Looks holds interval due w (.error .sleepLimit) v
  | again {w v t : World ν ℚ} {out : Except Fault Bool} (h : holds.runOn w = (.ok false, v))
      (hearly : v.clock.now < due) (hroom : v.clock.slept.length < v.clock.limit)
      (rest : Looks holds interval due (v.rested (min interval (due - v.clock.now))) out t) :
      Looks holds interval due w out t

section

variable {holds : Act (World ν ℚ) Bool} {interval due started timeout : ℚ} {w t : World ν ℚ}
  {out : Except Fault Bool}

/-- One round of a loop with a counter. -/
theorem runOn_poll_succ (hinterval : 0 < interval) (hclock : Keeps World.SameClock holds)
    (hsteady : w.clock.Steady) (fuel : ℕ) :
    (World.timer.poll (fun _ => { started, timeout }) interval holds (fuel + 1)).runOn w =
      match holds.runOn w with
      | (.error f, v) => (.error f, v)
      | (.ok true, v) => (.ok true, v)
      | (.ok false, v) =>
        if started + timeout ≤ v.clock.now then (.ok false, v)
        else if v.clock.limit ≤ v.clock.slept.length then (.error .sleepLimit, v)
        else (World.timer.poll (fun _ => { started, timeout }) interval holds fuel).runOn
          (v.rested (min interval (started + timeout - v.clock.now))) := by
  rcases hlook : holds.runOn w with ⟨f | found, v⟩
  · exact runOn_bind_error hlook
  · rw [Timer.poll, runOn_bind_ok hlook]
    cases found with
    | true => rfl
    | false =>
      simp only [Bool.false_eq_true, if_false]
      rw [runOn_bind_ok (World.runOn_expired started timeout v)]
      simp only [decide_eq_true_eq]
      split
      · rfl
      · rename_i hearly
        have hleft : 0 < started + timeout - v.clock.now := sub_pos.mpr (not_le.mp hearly)
        have hsame : v.clock = w.clock := hclock.of_runOn hlook
        have hsleep : (World.timer.sleep (min interval (started + timeout - v.clock.now))).runOn v =
            _ := World.runOn_sleep (by rw [hsame]; exact hsteady) (lt_min hinterval hleft).le
        rw [runOn_bind_ok (World.runOn_remaining started timeout v), max_eq_right hleft.le,
          Seconds.least_rational, runOn_bind_ok (runOn_ofExcept _ _)]
        split at hsleep
        · rw [runOn_bind_error hsleep, if_pos ‹_›]
        · rw [runOn_bind_ok hsleep, if_neg ‹_›]

/-- **A loop with a counter goes the same way**, if the counter allows for one look more than there
may be sleeps. -/
theorem looks_poll (hinterval : 0 < interval) (hclock : Keeps World.SameClock holds) :
    ∀ {fuel : ℕ} {w t : World ν ℚ} {out : Except Fault Bool}, w.clock.Steady →
      w.clock.limit - w.clock.slept.length < fuel →
      (World.timer.poll (fun _ => { started, timeout }) interval holds fuel).runOn w = (out, t) →
      Looks holds interval (started + timeout) w out t := by
  intro fuel
  induction fuel with
  | zero => exact fun _ hfuel => absurd hfuel (Nat.not_lt_zero _)
  | succ fuel ih =>
    intro w t out hsteady hfuel h
    rw [runOn_poll_succ hinterval hclock hsteady] at h
    rcases hlook : holds.runOn w with ⟨f | _ | _, v⟩
    · rw [hlook] at h
      obtain ⟨rfl, rfl⟩ := Prod.mk.inj h
      exact .fault hlook
    · have hsame : v.clock = w.clock := hclock.of_runOn hlook
      simp only [hlook] at h
      split at h
      · rename_i hlate
        obtain ⟨rfl, rfl⟩ := Prod.mk.inj h
        exact .late hlook hlate
      · rename_i hearly
        split at h
        · rename_i hfull
          obtain ⟨rfl, rfl⟩ := Prod.mk.inj h
          exact .full hlook (not_le.mp hearly) hfull
        · rename_i hroom
          refine .again hlook (not_le.mp hearly) (not_le.mp hroom) (ih ?_ ?_ h)
          · exact (congrArg Clock.interruptAt hsame).trans hsteady
          · rw [← hsame] at hfuel
            simp only [World.rested, Clock.afterAll, List.length_append, List.length_singleton]
            omega
    · rw [hlook] at h
      obtain ⟨rfl, rfl⟩ := Prod.mk.inj h
      exact .yes hlook

/-- A loop is what comes of any counter that large, so the counter does not matter. -/
theorem Looks.poll (hinterval : 0 < interval) (hclock : Keeps World.SameClock holds)
    (h : Looks holds interval due w out t) (hdue : started + timeout = due)
    (hsteady : w.clock.Steady) {fuel : ℕ}
    (hfuel : w.clock.limit - w.clock.slept.length < fuel) :
    (World.timer.poll (fun _ => { started, timeout }) interval holds fuel).runOn w = (out, t) := by
  subst hdue
  induction h generalizing fuel with
  | yes hlook | fault hlook =>
    obtain ⟨fuel, rfl⟩ := Nat.exists_eq_succ_of_ne_zero (Nat.ne_zero_of_lt hfuel)
    rw [runOn_poll_succ hinterval hclock hsteady, hlook]
  | late hlook hlate =>
    obtain ⟨fuel, rfl⟩ := Nat.exists_eq_succ_of_ne_zero (Nat.ne_zero_of_lt hfuel)
    rw [runOn_poll_succ hinterval hclock hsteady, hlook]
    exact if_pos hlate
  | full hlook hearly hfull =>
    obtain ⟨fuel, rfl⟩ := Nat.exists_eq_succ_of_ne_zero (Nat.ne_zero_of_lt hfuel)
    rw [runOn_poll_succ hinterval hclock hsteady, hlook]
    exact (if_neg (not_le.mpr hearly)).trans (if_pos hfull)
  | @again w v t out hlook hearly hroom _ ih =>
    obtain ⟨fuel, rfl⟩ := Nat.exists_eq_succ_of_ne_zero (Nat.ne_zero_of_lt hfuel)
    have hsame : v.clock = w.clock := hclock.of_runOn hlook
    rw [runOn_poll_succ hinterval hclock hsteady, hlook]
    refine (if_neg (not_le.mpr hearly)).trans ((if_neg (not_le.mpr hroom)).trans (ih ?_ ?_))
    · exact (congrArg Clock.interruptAt hsame).trans hsteady
    · rw [← hsame] at hfuel
      simp only [World.rested, Clock.afterAll, List.length_append, List.length_singleton]
      omega

theorem World.runOn_waitFor : (World.waitFor timeout interval holds).runOn w =
    (World.timer.poll (fun _ => { started := w.clock.now, timeout }) interval holds
      (w.clock.limit - w.clock.slept.length + 1)).runOn w := by
  simp only [runOn, World.waitFor, World.waitUntil]

/-- **A wait from now on is a loop.** -/
theorem looks_waitFor (hinterval : 0 < interval) (hclock : Keeps World.SameClock holds)
    (hsteady : w.clock.Steady) (h : (World.waitFor timeout interval holds).runOn w = (out, t)) :
    Looks holds interval (w.clock.now + timeout) w out t := by
  rw [World.runOn_waitFor] at h
  exact looks_poll hinterval hclock hsteady (Nat.lt_succ_self _) h

/-- What a loop comes to is what the wait comes to. -/
theorem Looks.waitFor (hinterval : 0 < interval) (hclock : Keeps World.SameClock holds)
    (hsteady : w.clock.Steady) (h : Looks holds interval (w.clock.now + timeout) w out t) :
    (World.waitFor timeout interval holds).runOn w = (out, t) := by
  rw [World.runOn_waitFor]
  exact h.poll hinterval hclock rfl hsteady (Nat.lt_succ_self _)

/-- After a sleep of a round, one round less is left. -/
theorem ceil_left {left : ℚ} (hinterval : 0 < interval) (hleft : 0 < left) :
    ⌈(left - min interval left) / interval⌉₊ + 1 ≤ ⌈left / interval⌉₊ := by
  rcases le_total interval left with h | h
  · have hone : 1 ≤ ⌈left / interval⌉₊ := Nat.one_le_ceil_iff.mpr (div_pos hleft hinterval)
    rw [min_eq_left h, sub_div, div_self hinterval.ne', Nat.ceil_sub_one, Nat.sub_add_cancel hone]
  · rw [min_eq_right h, sub_self, zero_div, Nat.ceil_zero, Nat.zero_add]
    exact Nat.one_le_ceil_iff.mpr (div_pos hleft hinterval)

/-- How many sleeps there can be up to a due time. -/
def naps (interval due : ℚ) (c : Clock ℚ) : ℕ := ⌈(due - c.now) / interval⌉₊

/-- A round sleeps once, and leaves one sleep less to the rounds after it. -/
theorem rests_round (hinterval : 0 < interval) {v : World ν ℚ} (hsame : v.clock = w.clock)
    (hearly : v.clock.now < due) :
    Clock.Rests (min interval (due - w.clock.now)) 1 w.clock
        (v.rested (min interval (due - v.clock.now))).clock ∧
      1 + naps interval due (v.rested (min interval (due - v.clock.now))).clock ≤
        naps interval due w.clock := by
  rw [hsame] at hearly ⊢
  have hleft : 0 < due - w.clock.now := sub_pos.mpr hearly
  constructor
  · refine ⟨[min interval (due - w.clock.now)], ?_, by simp, by simp, ?_⟩
    · simpa using ⟨hinterval.le, hearly.le⟩
    · rw [World.rested, hsame]
  · have hnow : due - (v.rested (min interval (due - w.clock.now))).clock.now =
        due - w.clock.now - min interval (due - w.clock.now) := by
      simp only [World.rested, Clock.afterAll, List.sum_singleton, hsame]
      ring
    rw [naps, naps, hnow, Nat.add_comm]
    exact ceil_left hinterval hleft

/-- **A loop sleeps no longer than up to the due time**, and no more often than there are intervals
up to it. -/
theorem Looks.rests (hinterval : 0 < interval) (hclock : Keeps World.SameClock holds)
    (h : Looks holds interval due w out t) :
    Clock.Rests (max 0 (due - w.clock.now)) (naps interval due w.clock) w.clock t.clock := by
  have hnone : ∀ {w v : World ν ℚ} {r}, holds.runOn w = (r, v) →
      Clock.Rests (max 0 (due - w.clock.now)) (naps interval due w.clock) w.clock v.clock := by
    intro w v r hlook
    have hsame : v.clock = w.clock := hclock.of_runOn hlook
    rw [hsame]
    exact (Clock.Rests.refl _).mono (le_max_left _ _) (Nat.zero_le _)
  induction h with
  | yes hlook | fault hlook | late hlook _ | full hlook _ _ => exact hnone hlook
  | @again w v t out hlook hearly hroom _ ih =>
    have hsame : v.clock = w.clock := hclock.of_runOn hlook
    obtain ⟨hsleep, hnaps⟩ := rests_round hinterval hsame hearly
    refine (hsleep.trans ih).mono ?_ hnaps
    simp only [World.rested, Clock.afterAll, List.sum_singleton, hsame] at hearly ⊢
    rw [max_eq_right (sub_nonneg.mpr hearly.le), ← sub_sub,
      max_eq_right (sub_nonneg.mpr (min_le_right _ _))]
    linarith

/-- Before the due time at least one sleep is left. -/
theorem naps_pos (hinterval : 0 < interval) {c : Clock ℚ} (hearly : c.now < due) :
    1 ≤ naps interval due c :=
  Nat.one_le_ceil_iff.mpr (div_pos (sub_pos.mpr hearly) hinterval)

/-- **The limit on sleeps does not matter** to a loop that it leaves room for. -/
theorem Looks.limited (hinterval : 0 < interval) (hclock : Keeps World.SameClock holds) {limit : ℕ}
    (hignores : Ignores (World.limited limit) holds) (h : Looks holds interval due w out t)
    (hfits : w.clock.Fits (naps interval due w.clock))
    (hlimit : (w.clock.limited limit).Fits (naps interval due w.clock)) :
    Looks holds interval due (w.limited limit) out (t.limited limit) := by
  induction h with
  | yes hlook => exact .yes (hignores.of_runOn hlook)
  | fault hlook => exact .fault (hignores.of_runOn hlook)
  | late hlook hlate => exact .late (hignores.of_runOn hlook) hlate
  | @full w v hlook hearly hfull =>
    have hsame : v.clock = w.clock := hclock.of_runOn hlook
    rw [hsame] at hearly hfull
    have hone := naps_pos hinterval hearly
    simp only [Clock.Fits] at hfits
    omega
  | @again w v t out hlook hearly hroom _ ih =>
    have hsame : v.clock = w.clock := hclock.of_runOn hlook
    obtain ⟨hsleep, hnaps⟩ := rests_round hinterval hsame hearly
    refine .again (hignores.of_runOn hlook) hearly ?_ (ih ?_ ?_)
    · simp only [Clock.Fits, World.limited, Clock.limited, hsame] at hlimit ⊢
      omega
    · exact hsleep.fits (hfits.trans' (Nat.add_le_add_left hnaps _))
    · exact hsleep.fits_limited (hlimit.trans' (Nat.add_le_add_left hnaps _))

/-- A loop ends well if its looks do and the limit leaves room for its sleeps. -/
theorem Looks.ok (hinterval : 0 < interval) (hclock : Keeps World.SameClock holds)
    (hlook : ∀ w, ∃ b, (holds.runOn w).1 = .ok b) (h : Looks holds interval due w out t)
    (hfits : w.clock.Fits (naps interval due w.clock)) : ∃ b, out = .ok b := by
  induction h with
  | yes _ | late _ _ => exact ⟨_, rfl⟩
  | @fault w v f hfault =>
    obtain ⟨b, hb⟩ := hlook w
    rw [hfault] at hb
    cases hb
  | @full w v hmiss hearly hfull =>
    have hsame : v.clock = w.clock := hclock.of_runOn hmiss
    rw [hsame] at hearly hfull
    have hone := naps_pos hinterval hearly
    simp only [Clock.Fits] at hfits
    omega
  | @again w v t out hmiss hearly hroom _ ih =>
    obtain ⟨hsleep, hnaps⟩ := rests_round hinterval (hclock.of_runOn hmiss) hearly
    exact ih (hsleep.fits (hfits.trans' (Nat.add_le_add_left hnaps _)))

end

end Campaign
