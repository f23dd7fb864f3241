import Campaign.Proofs.Rational
import Mathlib.Algebra.BigOperators.Group.List.Basic

/-!
# When a wait looks

A wait in exact time keeps to a schedule that its timeout and its interval fix beforehand.
`World.pauses` are its sleeps: an interval each, and the last what is left until the timeout.
`World.watch` looks with given sleeps between the looks, whatever the time is, and
`World.waitFor_eq_watch` says that a wait does nothing else.

`World.upTo` is the world in which a look is made after some of the sleeps, all looks before it
having said no.  With the sums of the sleeps (`World.sum_take_pauses`) it gives the time of every
look.
-/

namespace Campaign

open Act

namespace World

variable {ν : Type}

/-! ### The sleeps of a wait -/

/-- The sleeps of a wait that is never told yes. -/
def pauses (timeout interval : ℚ) : List ℚ :=
  (List.range ⌈max 0 timeout / interval⌉₊).map fun k : ℕ => min interval (timeout - k * interval)

section

variable {timeout interval : ℚ}

theorem length_pauses : (pauses timeout interval).length = ⌈max 0 timeout / interval⌉₊ := by
  simp [pauses]

/-- Without time to wait there is no sleep. -/
theorem pauses_nonpos (htimeout : timeout ≤ 0) : pauses timeout interval = [] := by
  simp [pauses, max_eq_left htimeout]

theorem pauses_nonneg (hinterval : 0 < interval) : ∀ l ∈ pauses timeout interval, 0 ≤ l := by
  intro l hl
  obtain ⟨k, hk, rfl⟩ := List.mem_map.mp hl
  have hlt : (k : ℚ) * interval < max 0 timeout :=
    (lt_div_iff₀ hinterval).mp (Nat.lt_ceil.mp (List.mem_range.mp hk))
  rcases lt_max_iff.mp hlt with hneg | hlt
  · exact absurd hneg (not_lt.mpr (mul_nonneg k.cast_nonneg hinterval.le))
  · exact le_min hinterval.le (sub_nonneg.mpr hlt.le)

/-- After the first sleep, the wait is one for the time that is left. -/
theorem pauses_pos (hinterval : 0 < interval) (htimeout : 0 < timeout) :
    pauses timeout interval =
      min interval timeout :: pauses (timeout - min interval timeout) interval := by
  rcases le_or_gt timeout interval with hlast | hmore
  · have hone : ⌈timeout / interval⌉₊ = 1 := by
      refine le_antisymm (Nat.ceil_le.mpr ?_) (Nat.one_le_ceil_iff.mpr (div_pos htimeout hinterval))
      rw [Nat.cast_one]
      exact (div_le_one hinterval).mpr hlast
    rw [min_eq_right hlast, sub_self, pauses_nonpos le_rfl]
    simp [pauses, max_eq_right htimeout.le, hone, min_eq_right hlast]
  · have hleft : 0 ≤ timeout - interval := sub_nonneg.mpr hmore.le
    have hceil : ⌈timeout / interval⌉₊ = ⌈(timeout - interval) / interval⌉₊ + 1 := by
      rw [← Nat.ceil_add_one (div_nonneg hleft hinterval.le), sub_div, div_self hinterval.ne',
        sub_add_cancel]
    rw [min_eq_left hmore.le, pauses, pauses, max_eq_right htimeout.le, max_eq_right hleft, hceil,
      List.range_succ_eq_map, List.map_cons, List.map_map]
    refine congrArg₂ List.cons ?_ (List.map_congr_left fun k _ => ?_)
    · rw [Nat.cast_zero, zero_mul, sub_zero, min_eq_left hmore.le]
    · simp only [Function.comp_apply, Nat.cast_succ]
      congr 1
      ring

/-- **The first sleeps take an interval each**, and all together no more than the timeout. -/
theorem sum_take_pauses (hinterval : 0 < interval) {k : ℕ}
    (hk : k ≤ ⌈max 0 timeout / interval⌉₊) :
    ((pauses timeout interval).take k).sum = min (k * interval) (max 0 timeout) := by
  induction k with
  | zero => simp
  | succ k ih =>
    have hlt : (k : ℚ) * interval < max 0 timeout := (lt_div_iff₀ hinterval).mp (Nat.lt_ceil.mp hk)
    have htimeout : max 0 timeout = timeout := by
      rcases max_choice 0 timeout with h | h
      · rw [h] at hlt
        exact absurd hlt (not_lt.mpr (mul_nonneg k.cast_nonneg hinterval.le))
      · exact h
    rw [htimeout] at hlt
    have hnext : (pauses timeout interval)[k]? = some (min interval (timeout - k * interval)) := by
      simp [pauses, List.getElem?_range hk]
    rw [List.take_add_one, List.sum_append, ih (Nat.le_of_succ_le hk), hnext, htimeout,
      min_eq_left hlt.le, Option.toList_some, List.sum_singleton, ← min_add_add_left,
      add_sub_cancel, Nat.cast_succ, add_mul, one_mul]

end

/-! ### Looking with sleeps in between -/

/-- Looks until one says yes, with a sleep after every look but the last. -/
def watch (holds : Act (World ν ℚ) Bool) : List ℚ → Act (World ν ℚ) Bool
  | [] => holds
  | length :: lengths => do
    if ← holds then return true
    sleep length
    watch holds lengths

/-- The world after some looks that said no, each with its sleep. -/
def upTo (holds : Act (World ν ℚ) Bool) : List ℚ → World ν ℚ → World ν ℚ
  | [], w => w
  | length :: lengths, w => upTo holds lengths ((holds.runOn w).2.rested length)

section

variable {holds : Act (World ν ℚ) Bool} {w v : World ν ℚ} {lengths : List ℚ}

/-- The clock has moved by the sleeps. -/
theorem clock_upTo (hclock : Keeps SameClock holds) :
    (upTo holds lengths w).clock = w.clock.afterAll lengths.reverse := by
  induction lengths generalizing w with
  | nil => simp [upTo, Clock.afterAll]
  | cons length lengths ih =>
    have hsame : (holds.runOn w).2.clock = w.clock := hclock w
    rw [upTo, ih, rested, hsame, Clock.afterAll_append, List.reverse_cons]

/-- The first sleep, if the look before it has said no. -/
theorem runOn_watch_cons {length : ℚ} (hlook : holds.runOn w = (.ok false, v))
    (hsteady : v.clock.Steady) (hlength : 0 ≤ length)
    (hroom : v.clock.slept.length < v.clock.limit) :
    (watch holds (length :: lengths)).runOn w = (watch holds lengths).runOn (v.rested length) := by
  have hsleep : (sleep length).runOn v = (.ok (), v.rested length) := by
    rw [runOn_sleep hsteady hlength, if_neg (not_le.mpr hroom)]
  rw [watch, runOn_bind_ok hlook]
  exact runOn_bind_ok hsleep

/-- A look that says yes, or fails, is the last. -/
theorem runOn_watch_stop {out : Except Fault Bool} (hlook : holds.runOn w = (out, v))
    (hstop : out ≠ .ok false) : (watch holds lengths).runOn w = (out, v) := by
  cases lengths with
  | nil => exact hlook
  | cons length lengths =>
    rw [watch]
    match out, hstop with
    | .error f, _ => exact runOn_bind_error hlook
    | .ok true, _ => exact runOn_bind_ok hlook

/-- **After looks that said no, what is left of the looks decides.** -/
theorem runOn_watch (hclock : Keeps SameClock holds) (hsteady : w.clock.Steady)
    (hlengths : ∀ l ∈ lengths, 0 ≤ l) (hfits : w.clock.Fits lengths.length) {k : ℕ}
    (hk : k ≤ lengths.length)
    (hno : ∀ j < k, (holds.runOn (upTo holds (lengths.take j) w)).1 = .ok false) :
    (watch holds lengths).runOn w =
      (watch holds (lengths.drop k)).runOn (upTo holds (lengths.take k) w) := by
  induction k generalizing w lengths with
  | zero => rfl
  | succ k ih =>
    obtain ⟨length, lengths, rfl⟩ := List.exists_cons_of_length_pos (Nat.zero_lt_of_lt hk)
    rw [List.forall_mem_cons] at hlengths
    have hlook : holds.runOn w = (.ok false, (holds.runOn w).2) := by
      rw [← hno 0 k.succ_pos]
      rfl
    have hsame : (holds.runOn w).2.clock = w.clock := hclock w
    have hfirst : (watch holds (length :: lengths)).runOn w =
        (watch holds lengths).runOn ((holds.runOn w).2.rested length) := by
      refine runOn_watch_cons hlook (hsame ▸ hsteady) hlengths.1 ?_
      rw [hsame]
      simp only [Clock.Fits, List.length_cons] at hfits
      omega
    rw [hfirst, List.drop_succ_cons, List.take_succ_cons, upTo]
    refine ih ?_ hlengths.2 ?_ (Nat.le_of_succ_le_succ hk) fun j hj => ?_
    · exact (congrArg Clock.interruptAt hsame).trans hsteady
    · simp only [Clock.Fits, rested, Clock.afterAll, hsame, List.length_append, List.length_cons,
        List.length_nil] at hfits ⊢
      omega
    · exact hno (j + 1) (Nat.succ_lt_succ hj)

end

/-! ### The schedule -/

section

variable {holds : Act (World ν ℚ) Bool} {w : World ν ℚ} {timeout interval : ℚ}

/-- What looking at the sleeps of a wait comes to, the loop comes to. -/
theorem looks_watch (hinterval : 0 < interval) (hclock : Keeps SameClock holds) {lengths : List ℚ}
    {due : ℚ} (hsteady : w.clock.Steady) (hlengths : pauses (due - w.clock.now) interval = lengths)
    (hfits : w.clock.Fits lengths.length) :
    Looks holds interval due w ((watch holds lengths).runOn w).1
      ((watch holds lengths).runOn w).2 := by
  induction lengths generalizing w with
  | nil =>
    rcases hlook : holds.runOn w with ⟨f | _ | _, v⟩
    all_goals simp only [watch, hlook]
    · exact .fault hlook
    · -- Before the due time there would be a sleep.
      have hsame : v.clock = w.clock := hclock.of_runOn hlook
      refine .late hlook (not_lt.mp fun hearly => ?_)
      rw [hsame] at hearly
      rw [pauses_pos hinterval (sub_pos.mpr hearly)] at hlengths
      cases hlengths
    · exact .yes hlook
  | cons length lengths ih =>
    have hearly : w.clock.now < due := by
      by_contra hlate
      rw [pauses_nonpos (sub_nonpos.mpr (not_lt.mp hlate))] at hlengths
      cases hlengths
    rw [pauses_pos hinterval (sub_pos.mpr hearly)] at hlengths
    obtain ⟨rfl, hrest⟩ := List.cons.inj hlengths
    rcases hlook : holds.runOn w with ⟨f | _ | _, v⟩
    · rw [runOn_watch_stop hlook (by simp)]
      exact .fault hlook
    · have hsame : v.clock = w.clock := hclock.of_runOn hlook
      have hleft : 0 < due - w.clock.now := sub_pos.mpr hearly
      have hroom : v.clock.slept.length < v.clock.limit := by
        rw [hsame]
        simp only [Clock.Fits, List.length_cons] at hfits
        omega
      rw [runOn_watch_cons hlook (hsame ▸ hsteady) (le_min hinterval.le hleft.le) hroom, ← hsame]
      refine .again hlook (hsame ▸ hearly) hroom (ih ?_ ?_ ?_)
      · exact (congrArg Clock.interruptAt hsame).trans hsteady
      · rw [← hrest, ← hsame]
        simp only [rested, Clock.afterAll, List.sum_singleton]
        congr 1
        ring
      · simp only [Clock.Fits, rested, Clock.afterAll, hsame, List.length_append, List.length_cons,
          List.length_nil] at hfits ⊢
        omega
    · rw [runOn_watch_stop hlook (by simp)]
      exact .yes hlook

/-- **A wait looks with its sleeps in between, and does nothing else.** -/
theorem waitFor_eq_watch (hinterval : 0 < interval) (hclock : Keeps SameClock holds)
    (hsteady : w.clock.Steady) (hfits : w.clock.Fits ⌈max 0 timeout / interval⌉₊) :
    (waitFor timeout interval holds).runOn w =
      (watch holds (pauses timeout interval)).runOn w := by
  refine Looks.waitFor hinterval hclock hsteady (looks_watch hinterval hclock hsteady ?_ ?_)
  · rw [add_sub_cancel_left]
  · rwa [length_pauses]

/-- **A wait keeps to its schedule.**  The clock is moved by the wait alone, and no sleep is
refused.  Then a wait for a condition comes to the same as looks with fixed sleeps in between, as
many as intervals fit into the timeout, a part of one counting as one.  So there is one look more
than sleeps, and every look but the first comes an interval after the one before it or at the due
time, whichever is earlier.  The first look that says yes, or fails, ends the wait, at its time and
as it says.  If none does, the wait ends with no after the last, at the due time. -/
theorem looks_on_schedule (hinterval : 0 < interval) (hclock : Keeps SameClock holds)
    (hsteady : w.clock.Steady) (hfits : w.clock.Fits ⌈max 0 timeout / interval⌉₊) :
    let last := ⌈max 0 timeout / interval⌉₊
    let lengths := pauses timeout interval
    let atLook k := upTo holds (lengths.take k) w
    let wait := (waitFor timeout interval holds).runOn w
    wait = (watch holds lengths).runOn w ∧ lengths.length = last ∧
      (timeout ≤ 0 → wait = holds.runOn w) ∧
      (∀ k ≤ last,
        (atLook k).clock.now = w.clock.now + min (k * interval) (max 0 timeout) ∧
        (atLook k).clock.slept = (lengths.take k).reverse ++ w.clock.slept ∧
        ∀ out v, (∀ j < k, (holds.runOn (atLook j)).1 = .ok false) →
          holds.runOn (atLook k) = (out, v) → out ≠ .ok false → wait = (out, v)) ∧
      (atLook last).clock.now = w.clock.now + max 0 timeout ∧
      ((∀ k ≤ last, (holds.runOn (atLook k)).1 = .ok false) →
        wait = (.ok false, (holds.runOn (atLook last)).2) ∧
        wait.2.clock.now = w.clock.now + max 0 timeout) := by
  intro last lengths atLook wait
  have hwait : wait = (watch holds lengths).runOn w :=
    waitFor_eq_watch hinterval hclock hsteady hfits
  have hlength : lengths.length = last := length_pauses
  have hupTo : ∀ k ≤ last, (∀ j < k, (holds.runOn (atLook j)).1 = .ok false) →
      wait = (watch holds (lengths.drop k)).runOn (atLook k) := fun k hk hno =>
    hwait.trans (runOn_watch hclock hsteady (pauses_nonneg hinterval) (hlength ▸ hfits)
      (hlength ▸ hk) hno)
  have htime : ∀ k ≤ last,
      (atLook k).clock.now = w.clock.now + min (k * interval) (max 0 timeout) := by
    intro k hk
    rw [← sum_take_pauses hinterval hk, ← List.sum_reverse, clock_upTo hclock]
    rfl
  have hdue : (atLook last).clock.now = w.clock.now + max 0 timeout := by
    rw [htime last le_rfl, min_eq_right ((div_le_iff₀ hinterval).mp (Nat.le_ceil _))]
  refine ⟨hwait, hlength, fun hnone => ?_,
    fun k hk => ⟨htime k hk, ?_, fun out v hno hlook hstop => ?_⟩, hdue, fun hno => ?_⟩
  · rw [hwait, show lengths = [] from pauses_nonpos hnone, watch]
  · rw [clock_upTo hclock]
    rfl
  · rw [hupTo k hk hno, runOn_watch_stop hlook hstop]
  · have hend : wait = holds.runOn (atLook last) := by
      rw [hupTo last le_rfl fun j hj => hno j hj.le, List.drop_of_length_le hlength.le, watch]
    have hsame : (holds.runOn (atLook last)).2.clock = (atLook last).clock := hclock _
    rw [hend]
    exact ⟨Prod.ext (hno last le_rfl) rfl, hsame ▸ hdue⟩

/-- A condition that holds after so many looks, and writes down when it is looked at. -/
def holdsAfter (looks : ℕ) : Act (World (List ℚ) ℚ) Bool := fun w =>
  .ok (w.node.length == looks) { w with node := w.clock.now :: w.node }

/-- The timeout is two intervals and a half, and three sleeps are allowed.  A condition that holds
after four looks is looked at four times, the last time after a sleep of half an interval. One that
holds after two looks is looked at once more and not again. -/
theorem looks_on_schedule_late :
    let w : World (List ℚ) ℚ := { node := [], clock := { now := 10, limit := 3 } }
    let wait looks := (waitFor (1 / 2) (1 / 5) (holdsAfter looks)).runOn w
    ((wait 4).1 = .ok false ∧ (wait 4).2.node = [21 / 2, 52 / 5, 51 / 5, 10] ∧
      (wait 4).2.clock.slept = [1 / 10, 1 / 5, 1 / 5]) ∧
    (wait 2).1 = .ok true ∧ (wait 2).2.node = [52 / 5, 51 / 5, 10] ∧
      (wait 2).2.clock.slept = [1 / 5, 1 / 5] := by
  intro w wait
  have hlast : ⌈max 0 (1 / 2 : ℚ) / (1 / 5)⌉₊ = 3 := by decide +kernel
  have hfits : w.clock.Fits ⌈max 0 (1 / 2 : ℚ) / (1 / 5)⌉₊ := by
    rw [hlast]
    exact le_rfl
  have hinterval : (0 : ℚ) < 1 / 5 := by norm_num
  have hclock looks : Keeps SameClock (holdsAfter looks) := fun _ => rfl
  have hsteady : w.clock.Steady := rfl
  have hschedule looks := looks_on_schedule hinterval (hclock looks) hsteady hfits
  rw [hlast] at hschedule
  let made looks k := (upTo (holdsAfter looks) ((pauses (1 / 2) (1 / 5)).take k) w).node.length
  constructor
  · have hno : ∀ k ≤ 3, (made 4 k == 4) = false := by decide +kernel
    obtain ⟨-, -, -, -, -, hnever⟩ := hschedule 4
    obtain ⟨hwait, -⟩ := hnever fun k hk => congrArg Except.ok (hno k hk)
    rw [show wait 4 = _ from hwait]
    exact ⟨rfl, by decide +kernel, by decide +kernel⟩
  · have hno : ∀ j < 2, (made 2 j == 2) = false := by decide +kernel
    have hyes : (made 2 2 == 2) = true := by decide +kernel
    obtain ⟨-, -, -, hlook, -⟩ := hschedule 2
    obtain ⟨-, -, hwait⟩ := hlook 2 (by decide)
    rw [show wait 2 = _ from hwait (.ok true) _ (fun j hj => congrArg Except.ok (hno j hj))
      (Prod.ext (congrArg Except.ok hyes) rfl) (by simp)]
    exact ⟨rfl, by decide +kernel, by decide +kernel⟩

end

end World

end Campaign
