import Campaign.Proofs.Rational
import Mathlib.Data.Int.ConditionallyCompleteOrder

/-!
# How promptly a wait for a nonce ends

Here the nonce that a node shows for an address depends on the time alone (`Node.Shows`) and never
goes down.  A wait then looks at a step function, but only now and then, so two things could go
wrong: it could miss a nonce that arrives between its last look and the end of its timeout, and it
could notice one late.  Neither happens.  The last look comes at the due time itself, so the answer
is what the nonce says there, whatever the interval is, and a nonce that has arrived is noticed at
the next look, which is less than an interval away.

`Prompt` puts this for a loop of looks that starts in any world, `Looked` counts what the loop
reads, and `Looks.prompt` proves both by going through the loop.
-/

namespace Campaign

open Act

variable {ν : Type}

/-- **The nonce shown for an address depends on the time alone**, in all states of a kind that
queries for it do not leave. -/
structure Node.Shows (node : Node ν ℚ) (a : String) (nonce : ℚ → ℤ) (valid : ν → Prop) :
    Prop where
  nonce : ∀ now n, valid n →
    ((node.query now "System" "Account" (.list [.text a])).runOn n).1.bind Client.nonceOf =
      .ok (nonce now)
  valid : ∀ now n, valid n →
    valid ((node.query now "System" "Account" (.list [.text a])).runOn n).2

/-- A look at an address that has shown its nonce of some time. -/
def Event.Shows (a : String) (nonce : ℚ → ℤ) (x : Event ℚ) : Prop :=
  ∃ answer now, x = .look a answer ∧ answer.bind Client.nonceOf = .ok (nonce now)

section

variable {node : Node ν ℚ} {a : String} {nonce : ℚ → ℤ} {valid : ν → Prop} {target : ℤ}

/-- A look compares the nonce of its time, and reads once. -/
theorem Client.hasReached_shows (hshows : node.Shows a nonce valid) {w v : World ν ℚ}
    {out : Except Fault Bool} (hw : valid w.node)
    (h : (hasReached node a target).runOn w = (out, v)) :
    out = .ok (decide (target ≤ nonce w.clock.now)) ∧ v.clock = w.clock ∧ valid v.node ∧
      ∃ x, x.Shows a nonce ∧ v.journal = x :: w.journal := by
  obtain ⟨answer, n, hq, rfl, rfl⟩ := hasReached_cases h
  have hnonce := hshows.nonce w.clock.now w.node hw
  have hvalid := hshows.valid w.clock.now w.node hw
  rw [hq] at hnonce hvalid
  exact ⟨by rw [hnonce]; rfl, rfl, hvalid, _, ⟨answer, _, rfl, hnonce⟩, rfl⟩

/-- What happened between two worlds in which somebody looked: nothing but the looks was written
down, and there was one look more than sleeps. -/
def Looked (a : String) (nonce : ℚ → ℤ) (w t : World ν ℚ) : Prop :=
  ∃ reads lengths, t.journal = reads ++ w.journal ∧ t.clock = w.clock.afterAll lengths ∧
    reads.length = lengths.length + 1 ∧ ∀ x ∈ reads, x.Shows a nonce

/-- **How a wait comes out** that goes on from a world to a due time at the latest: it says whether
the target is reached by then, and ends less than an interval after any time at which it is. -/
structure Prompt (nonce : ℚ → ℤ) (target : ℤ) (interval due : ℚ) (w : World ν ℚ)
    (out : Except Fault Bool) (t : World ν ℚ) : Prop where
  answer : out = .ok (decide (target ≤ nonce (max w.clock.now due)))
  inTime : t.clock.now ≤ max w.clock.now due
  soon : ∀ time, w.clock.now ≤ time → time ≤ max w.clock.now due → target ≤ nonce time →
    t.clock.now < time + interval
  atOnce : target ≤ nonce w.clock.now → t.clock.now = w.clock.now

variable {interval due : ℚ} {w v t : World ν ℚ} {out : Except Fault Bool}

/-- A look that says yes ends the wait at its time. -/
theorem prompt_yes (hmono : Monotone nonce) (hinterval : 0 < interval)
    (hreached : target ≤ nonce w.clock.now) (hsame : v.clock = w.clock) :
    Prompt nonce target interval due w (.ok true) v where
  answer := by rw [decide_eq_true (hreached.trans (hmono (le_max_left _ _)))]
  inTime := hsame ▸ le_max_left _ _
  soon time htime _ _ := by
    rw [hsame]
    linarith
  atOnce _ := by rw [hsame]

/-- A look at the due time or later ends the wait. -/
theorem prompt_late (hmono : Monotone nonce) (hmissed : ¬ target ≤ nonce w.clock.now)
    (hlate : due ≤ w.clock.now) (hsame : v.clock = w.clock) :
    Prompt nonce target interval due w (.ok false) v where
  answer := by rw [max_eq_left hlate, decide_eq_false hmissed]
  inTime := hsame ▸ le_max_left _ _
  soon time _ hle hreached := by
    rw [max_eq_left hlate] at hle
    exact absurd (hreached.trans (hmono hle)) hmissed
  atOnce hreached := absurd hreached hmissed

/-- What comes soon after a sleep, of an interval or up to the due time, comes soon after the look
before that sleep as well. -/
theorem Prompt.before (hmono : Monotone nonce) (hmissed : ¬ target ≤ nonce w.clock.now)
    (hsame : v.clock = w.clock) (hearly : w.clock.now < due)
    (h : Prompt nonce target interval due (v.rested (min interval (due - w.clock.now))) out t) :
    Prompt nonce target interval due w out t := by
  have hnow : (v.rested (min interval (due - w.clock.now))).clock.now =
      w.clock.now + min interval (due - w.clock.now) := by
    simp [World.rested, Clock.afterAll, hsame]
  have hdue : w.clock.now + min interval (due - w.clock.now) ≤ due := by
    linarith [min_le_right interval (due - w.clock.now)]
  have hnext : w.clock.now + min interval (due - w.clock.now) ≤ w.clock.now + interval := by
    linarith [min_le_left interval (due - w.clock.now)]
  obtain ⟨hanswer, hinTime, hsoon, hatOnce⟩ := h
  rw [hnow, max_eq_right hdue] at hanswer hinTime hsoon
  rw [hnow] at hatOnce
  have hmax : max w.clock.now due = due := max_eq_right hearly.le
  refine ⟨by rw [hmax, hanswer], by rwa [hmax], fun time hfrom hto hreached => ?_,
    fun hreached => absurd hreached hmissed⟩
  rw [hmax] at hto
  have hafter : w.clock.now < time := lt_of_not_ge fun hle => hmissed (hreached.trans (hmono hle))
  rcases le_or_gt (w.clock.now + min interval (due - w.clock.now)) time with hlater | hbetween
  · exact hsoon time hlater hto hreached
  · -- the next look says yes, and it is less than an interval after the arrival
    rw [hatOnce (hreached.trans (hmono hbetween.le))]
    linarith

theorem looked_once {x : Event ℚ} (hx : x.Shows a nonce) (hsame : v.clock = w.clock)
    (hjournal : v.journal = x :: w.journal) : Looked a nonce w v := by
  refine ⟨[x], [], hjournal, ?_, rfl, by simpa using hx⟩
  rw [hsame]
  simp [Clock.afterAll]

theorem Looked.before {x : Event ℚ} {length : ℚ} (hx : x.Shows a nonce)
    (hsame : v.clock = w.clock) (hjournal : v.journal = x :: w.journal)
    (h : Looked a nonce (v.rested length) t) : Looked a nonce w t := by
  obtain ⟨reads, lengths, hreads, hclock, hcount, hshown⟩ := h
  refine ⟨reads ++ [x], lengths ++ [length], ?_, ?_, by simp [hcount], fun y hy => ?_⟩
  · rw [hreads, List.append_assoc, List.singleton_append, ← hjournal]
    rfl
  · rw [hclock, ← Clock.afterAll_append, ← hsame]
    rfl
  · rcases List.mem_append.mp hy with hy | hy
    · exact hshown y hy
    · rwa [List.mem_singleton.mp hy]

/-- **A loop of looks at such a nonce is prompt**, and every look of it is one read. -/
theorem Looks.prompt (hshows : node.Shows a nonce valid) (hmono : Monotone nonce)
    (hinterval : 0 < interval)
    (h : Looks (Client.hasReached node a target) interval due w out t) (hw : valid w.node)
    (hfits : w.clock.Fits (naps interval due w.clock)) :
    Prompt nonce target interval due w out t ∧ Looked a nonce w t := by
  induction h with
  | yes hlook =>
    obtain ⟨hout, hsame, -, x, hx, hjournal⟩ := Client.hasReached_shows hshows hw hlook
    have hreached : target ≤ nonce _ := of_decide_eq_true (Except.ok.inj hout).symm
    exact ⟨prompt_yes hmono hinterval hreached hsame, looked_once hx hsame hjournal⟩
  | fault hlook => cases (Client.hasReached_shows hshows hw hlook).1
  | late hlook hlate =>
    obtain ⟨hout, hsame, -, x, hx, hjournal⟩ := Client.hasReached_shows hshows hw hlook
    have hmissed : ¬ target ≤ nonce _ := of_decide_eq_false (Except.ok.inj hout).symm
    rw [hsame] at hlate
    exact ⟨prompt_late hmono hmissed hlate hsame, looked_once hx hsame hjournal⟩
  | full hlook hearly hfull =>
    -- there is room for a sleep as long as the due time has not come
    obtain ⟨-, hsame, -⟩ := Client.hasReached_shows hshows hw hlook
    rw [hsame] at hearly hfull
    have hone := naps_pos hinterval hearly
    simp only [Clock.Fits] at hfits
    omega
  | again hlook hearly _ _ ih =>
    obtain ⟨hout, hsame, hv, x, hx, hjournal⟩ := Client.hasReached_shows hshows hw hlook
    have hmissed : ¬ target ≤ nonce _ := of_decide_eq_false (Except.ok.inj hout).symm
    obtain ⟨hsleep, hnaps⟩ := rests_round hinterval hsame hearly
    obtain ⟨hprompt, hlooked⟩ := ih hv (hsleep.fits (hfits.trans' (Nat.add_le_add_left hnaps _)))
    rw [hsame] at hprompt hearly
    exact ⟨hprompt.before hmono hmissed hsame hearly, hlooked.before hx hsame hjournal⟩

namespace Client

variable {timeout : ℚ}

/-- Every look is one read. -/
theorem runOn_hasReached (node : Node ν ℚ) (a : String) (target : ℤ) (w : World ν ℚ) :
    ∃ answer n, ((hasReached node a target).runOn w).2 = w.after n (.look a answer) := by
  rcases hlook : (hasReached node a target).runOn w with ⟨out, v⟩
  obtain ⟨answer, n, -, rfl, -⟩ := hasReached_cases hlook
  exact ⟨answer, n, rfl⟩

/-- **A wait for a nonce is exact at its due time and prompt before it.**  The nonce on chain
depends on the time alone and never goes down, the clock is moved by the wait alone, and no sleep is
refused.  Then the wait says yes exactly if the nonce has reached the target at the due time, a
nonce past the target counting as well; the interval does not matter to the answer.  The wait ends
at the due time at the latest, and less than an interval after any time up to then at which the
nonce has reached the target.  A look of it is one read of the nonce; it writes down its reads
between two notices, and there is one more of them than sleeps. -/
theorem wait_tells_arrival (hshows : node.Shows a nonce valid) (hmono : Monotone nonce)
    (hinterval : 0 < interval) (hw : valid w.node) (hsteady : w.clock.Steady)
    (hfits : w.clock.Fits ⌈timeout / interval⌉₊) :
    let wait := (waitForNonce node (.text a) (.int target) timeout interval none).runOn w
    let due := w.clock.now + max 0 timeout
    wait.1 = .ok (decide (target ≤ nonce due)) ∧
      wait.2.clock.now ≤ due ∧
      (∀ time, w.clock.now ≤ time → time ≤ due → target ≤ nonce time →
        wait.2.clock.now < time + interval) ∧
      (∀ v : World ν ℚ, ∃ answer,
        ((hasReached node a target).runOn v).2.journal = .look a answer :: v.journal) ∧
      ∃ reads lengths, wait.2.journal =
          .noticed (if target ≤ nonce due then .reached (.int target) (.text a)
            else .timedOut timeout (.int target) (.text a)) ::
            (reads ++ .noticed (.waiting (.int target) (.text a) timeout) :: w.journal) ∧
        wait.2.clock = w.clock.afterAll lengths ∧ reads.length = lengths.length + 1 ∧
        ∀ x ∈ reads, x.Shows a nonce := by
  intro wait due
  let started := w.noted (.waiting (.int target) (.text a) timeout)
  rcases hloop : (World.waitFor timeout interval (hasReached node a target)).runOn started with
    ⟨out, t⟩
  have hclock : Keeps World.SameClock (hasReached node a target) := fun v => by
    obtain ⟨answer, n, hv⟩ := runOn_hasReached node a target v
    rw [hv]
    rfl
  have hnaps : naps interval (started.clock.now + timeout) started.clock =
      ⌈timeout / interval⌉₊ := by
    rw [naps, add_sub_cancel_left]
  obtain ⟨hprompt, reads, lengths, hreads, hlengths, hcount, hshown⟩ :=
    (looks_waitFor hinterval hclock (show started.clock.Steady from hsteady) hloop).prompt hshows
      hmono hinterval (show valid started.node from hw)
      (show started.clock.Fits _ from hnaps ▸ hfits)
  have hdue : max started.clock.now (started.clock.now + timeout) = due := by
    show max w.clock.now (w.clock.now + timeout) = w.clock.now + max 0 timeout
    rw [← max_add_add_left, add_zero]
  obtain ⟨hanswer, hinTime, hsoon, -⟩ := hprompt
  rw [hdue] at hanswer hinTime hsoon
  have hwait : wait = (.ok (decide (target ≤ nonce due)),
      t.noted (if target ≤ nonce due then .reached (.int target) (.text a)
        else .timedOut timeout (.int target) (.text a))) := by
    rw [hanswer] at hloop
    show (waitForNonce node (.text a) (.int target) timeout interval none).runOn w = _
    rw [waitForNonce_eq, runOn_bind_ok (World.runOn_note _ w), runOn_bind_ok hloop,
      runOn_bind_ok (World.runOn_note _ t)]
    simp only [decide_eq_true_eq]
    rfl
  rw [hwait]
  refine ⟨rfl, hinTime, hsoon, fun v => ?_, reads, lengths, ?_, hlengths, hcount, hshown⟩
  · obtain ⟨answer, n, hv⟩ := runOn_hasReached node a target v
    exact ⟨answer, by rw [hv]; rfl⟩
  · exact congrArg _ hreads

/-- A node whose nonces go from ten to eleven after a second.  It counts the queries. -/
def rising : Node ℕ ℚ where
  chain := "Development"
  version := "1.0.0"
  query now _ _ _ := fun queries =>
    .ok (some (.object [("nonce", .int (if 1 ≤ now then 11 else 10))])) (queries + 1)
  queryMap _ _ _ _ := pure []
  compose _ _ _ := pure .null
  sign _ := pure ()
  submit _ := pure none

theorem shows_rising :
    rising.Shows "a" (fun now => if 1 ≤ now then 11 else 10) fun _ => True where
  nonce _ _ _ := rfl
  valid _ _ _ := trivial

theorem monotone_rising : Monotone fun now : ℚ => if 1 ≤ now then (11 : ℤ) else 10 := by
  intro s t hst
  by_cases hs : 1 ≤ s
  · simp [hs, hs.trans hst]
  · simp only [hs, if_false]
    split <;> decide

/-- The nonce arrives exactly at the due time, in the middle of an interval: the last of four looks
sees it. -/
theorem wait_tells_arrival_due :
    let w : World ℕ ℚ := { node := 0, clock := { now := 0, limit := 3 } }
    let wait := (waitForNonce rising (.text "a") (.int 11) 1 (2 / 5) none).runOn w
    wait.1 = .ok true ∧ wait.2.node = 4 ∧ wait.2.clock.slept = [1 / 5, 2 / 5, 2 / 5] ∧
      wait.2.clock.now < 1 + 2 / 5 := by
  intro w wait
  have hceil : ⌈(1 : ℚ) / (2 / 5)⌉₊ = 3 := by decide +kernel
  have hfits : w.clock.Fits ⌈(1 : ℚ) / (2 / 5)⌉₊ := by
    rw [hceil]
    exact le_rfl
  have hinterval : (0 : ℚ) < 2 / 5 := by norm_num
  obtain ⟨hanswer, -, hsoon, -⟩ := @wait_tells_arrival _ rising "a" _ _ 11 (2 / 5) w 1 shows_rising
    monotone_rising hinterval trivial rfl hfits
  refine ⟨?_, by decide +kernel, by decide +kernel, hsoon 1 ?_ ?_ ?_⟩
  · rw [show wait.1 = _ from hanswer]
    exact congrArg Except.ok (by decide +kernel)
  · norm_num
  · norm_num
  · norm_num

end Client

end

end Campaign
