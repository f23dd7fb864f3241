import Campaign.Command.Basic
import Campaign.Proofs.Extended

/-!
# Which barriers end

A barrier without a timeout of its own takes timeout and interval from the settings, and these are
whatever numbers the environment writes: there may be no sleep between two looks, or less than none,
or a timeout that is never over.  `Command.barrier_comes_to_end` says for which of them the barrier
ends on every chain, and what it does with the others as long as the nonce stays too low.

A look leaves the time alone, so the loop of looks follows the time as `Extended.nap` moves it on.
`looping_stops` goes along `Extended.Stops`, where the number of sleeps is bounded, and
`looping_endless` stays among the times of `Extended.Endless` until no more sleeps are allowed,
however many were.
-/

namespace Campaign

open Act

variable {ν : Type}

/-! ### A clock that shows such seconds -/

namespace Clock

/-- The clock after a sleep. -/
def woken (length : Extended) (c : Clock Extended) : Clock Extended :=
  { c with now := c.now.add length, slept := length :: c.slept }

@[simp] theorem now_woken (length : Extended) (c : Clock Extended) :
    (c.woken length).now = c.now.add length := rfl

@[simp] theorem length_slept_woken (length : Extended) (c : Clock Extended) :
    (c.woken length).slept.length = c.slept.length + 1 := rfl

@[simp] theorem limit_woken (length : Extended) (c : Clock Extended) :
    (c.woken length).limit = c.limit := rfl

@[simp] theorem interruptAt_woken (length : Extended) (c : Clock Extended) :
    (c.woken length).interruptAt = c.interruptAt := rfl

/-- A sleep that nothing interrupts is refused, or takes its time. -/
theorem runOn_sleep_extended {c : Clock Extended} (hsteady : c.interruptAt = none)
    (length : Extended) :
    (sleep length).runOn c =
      if length.lt .zero then (.error .negativeSleep, c)
      else if c.limit ≤ c.slept.length then (.error .sleepLimit, c)
      else (.ok (), c.woken length) := by
  have hquiet : interrupts { c with slept := length :: c.slept } = false := by
    simp only [interrupts, hsteady]
  have hnegative : (Seconds.isNegative length : Except Fault Bool) = .ok (length.lt .zero) := rfl
  rw [runOn_sleep_eq, hnegative]
  cases length.lt .zero with
  | true => rfl
  | false =>
    simp only [hquiet, Bool.false_eq_true, if_false]
    rfl

end Clock

namespace World

/-- The world after a sleep. -/
def woken (length : Extended) (w : World ν Extended) : World ν Extended :=
  { w with clock := w.clock.woken length }

theorem clock_woken {w v : World ν Extended} (hsame : v.clock = w.clock) (length : Extended) :
    (v.woken length).clock = w.clock.woken length := congrArg (Clock.woken length) hsame

theorem runOn_sleep_extended {w : World ν Extended} (hsteady : w.clock.interruptAt = none)
    (length : Extended) :
    (sleep length).runOn w =
      if length.lt .zero then (.error .negativeSleep, w)
      else if w.clock.limit ≤ w.clock.slept.length then (.error .sleepLimit, w)
      else (.ok (), w.woken length) := by
  rw [sleep, runOn_within, Clock.runOn_sleep_extended hsteady]
  split
  · rfl
  · split <;> rfl

end World

/-- What a loop does after a look that says no. -/
theorem runOn_poll_missed {started timeout interval : Extended}
    {holds : Act (World ν Extended) Bool} {w v : World ν Extended}
    (hlook : holds.runOn w = (.ok false, v)) (hsteady : v.clock.interruptAt = none) (fuel : ℕ) :
    (World.timer.poll (fun _ => { started, timeout }) interval holds (fuel + 1)).runOn w =
      if Extended.expired started timeout v.clock.now then (.ok false, v)
      else if (Extended.nap started timeout interval v.clock.now).lt .zero then
        (.error .negativeSleep, v)
      else if v.clock.limit ≤ v.clock.slept.length then (.error .sleepLimit, v)
      else (World.timer.poll (fun _ => { started, timeout }) interval holds fuel).runOn
        (v.woken (Extended.nap started timeout interval v.clock.now)) := by
  have hexpired : (World.timer.expired fun _ => { started, timeout }).runOn v =
      (.ok (Extended.expired started timeout v.clock.now), v) := rfl
  have hremaining : (World.timer.remaining fun _ => { started, timeout }).runOn v =
      (.ok (Extended.remaining started timeout v.clock.now), v) := rfl
  have hsleep :
      (World.timer.sleep (Extended.nap started timeout interval v.clock.now)).runOn v = _ :=
    World.runOn_sleep_extended hsteady _
  rw [Timer.poll, runOn_bind_ok hlook]
  simp only [Bool.false_eq_true, if_false]
  rw [runOn_bind_ok hexpired]
  split
  · rfl
  · rw [runOn_bind_ok hremaining, Extended.least_eq, runOn_bind_ok (runOn_ofExcept _ _),
      ← Extended.nap]
    by_cases hnegative : (Extended.nap started timeout interval v.clock.now).lt .zero = true
    · rw [if_pos hnegative] at hsleep ⊢
      exact runOn_bind_error hsleep
    · rw [if_neg hnegative] at hsleep ⊢
      by_cases hfull : v.clock.limit ≤ v.clock.slept.length
      · rw [if_pos hfull] at hsleep ⊢
        exact runOn_bind_error hsleep
      · rw [if_neg hfull] at hsleep ⊢
        exact runOn_bind_ok hsleep

/-! ### Looks at a nonce -/

/-- **Reading the nonce of an address succeeds** and shows nonces of a kind, in all states of a kind
that queries for it do not leave. -/
structure Node.Answers (node : Node ν Extended) (a : String) (shown : ℤ → Prop) (valid : ν → Prop) :
    Prop where
  nonce : ∀ now n, valid n → ∃ r, shown r ∧
    ((node.query now "System" "Account" (.list [.text a])).runOn n).1.bind Client.nonceOf = .ok r
  valid : ∀ now n, valid n →
    valid ((node.query now "System" "Account" (.list [.text a])).runOn n).2

section

variable {node : Node ν Extended} {a : String} {shown : ℤ → Prop} {valid : ν → Prop} {target : ℤ}
  {timeout interval : Extended} {s : ℚ} {w : World ν Extended}

/-- A look compares a nonce of that kind, and leaves the time alone. -/
theorem Client.hasReached_answers (target : ℤ) (hreads : node.Answers a shown valid)
    (hw : valid w.node) :
    ∃ r v, shown r ∧ (hasReached node a target).runOn w = (.ok (decide (target ≤ r)), v) ∧
      v.clock = w.clock ∧ valid v.node := by
  rcases hlook : (hasReached node a target).runOn w with ⟨out, v⟩
  obtain ⟨answer, n, hq, rfl, rfl⟩ := hasReached_cases hlook
  obtain ⟨r, hr, hnonce⟩ := hreads.nonce w.clock.now w.node hw
  have hvalid := hreads.valid w.clock.now w.node hw
  rw [hq] at hnonce hvalid
  exact ⟨r, w.after n (.look a answer), hr, by rw [hnonce]; rfl, rfl, hvalid⟩

/-- The loop of looks of a wait. -/
def looping (node : Node ν Extended) (a : String) (target : ℤ) (s : ℚ)
    (timeout interval : Extended) (fuel : ℕ) : Act (World ν Extended) Bool :=
  World.timer.poll (fun _ => { started := .finite s, timeout }) interval
    (Client.hasReached node a target) fuel

/-- One round of the loop. -/
theorem looping_succ (target : ℤ) (s : ℚ) (timeout interval : Extended)
    (hreads : node.Answers a shown valid) (hw : valid w.node)
    (hsteady : w.clock.interruptAt = none) (fuel : ℕ) :
    ∃ r v, shown r ∧ v.clock = w.clock ∧ valid v.node ∧
      (looping node a target s timeout interval (fuel + 1)).runOn w =
        if target ≤ r then (.ok true, v)
        else if Extended.expired (.finite s) timeout w.clock.now then (.ok false, v)
        else if (Extended.nap (.finite s) timeout interval w.clock.now).lt .zero then
          (.error .negativeSleep, v)
        else if w.clock.limit ≤ w.clock.slept.length then (.error .sleepLimit, v)
        else (looping node a target s timeout interval fuel).runOn
          (v.woken (Extended.nap (.finite s) timeout interval w.clock.now)) := by
  obtain ⟨r, v, hr, hlook, hsame, hv⟩ := Client.hasReached_answers target hreads hw
  refine ⟨r, v, hr, hsame, hv, ?_⟩
  split
  · rename_i hreached
    rw [decide_eq_true hreached] at hlook
    rw [looping, Timer.poll, runOn_bind_ok hlook]
    rfl
  · rename_i hmissed
    rw [decide_eq_false hmissed] at hlook
    rw [← hsame] at hsteady ⊢
    exact runOn_poll_missed hlook hsteady fuel

/-- **A loop whose time comes to where the waiting stops ends**, if there is room for its sleeps. -/
theorem looping_stops (target : ℤ) (hreads : node.Answers a shown valid) {count : ℕ}
    {now : Extended}
    (hstops : Extended.Stops s timeout interval count now) (hnow : w.clock.now = now)
    (hw : valid w.node) (hsteady : w.clock.interruptAt = none)
    (hroom : w.clock.slept.length + count ≤ w.clock.limit) {fuel : ℕ} (hfuel : count < fuel) :
    ∃ ok v, (looping node a target s timeout interval fuel).runOn w = (.ok ok, v) ∧
      v.clock.slept.length ≤ w.clock.slept.length + count := by
  obtain ⟨fuel, rfl⟩ : ∃ k, fuel = k + 1 := ⟨fuel - 1, by omega⟩
  -- the induction is on the course of the time, of which each look and sleep is a step
  induction hstops generalizing w fuel with
  | @due count now hexpired =>
    obtain ⟨r, v, -, hsame, -, hround⟩ := looping_succ target s timeout interval hreads hw hsteady
      fuel
    rw [hnow, hexpired] at hround
    rw [hround, ← hsame]
    split
    · exact ⟨true, v, rfl, Nat.le_add_right _ _⟩
    · exact ⟨false, v, rfl, Nat.le_add_right _ _⟩
  | @nap count now hopen hnap _ ih =>
    obtain ⟨r, v, -, hsame, hv, hround⟩ := looping_succ target s timeout interval hreads hw hsteady
      fuel
    have hallowed : ¬ w.clock.limit ≤ w.clock.slept.length := by omega
    rw [hnow, hopen, hnap] at hround
    simp only [Bool.false_eq_true, if_false, if_neg hallowed] at hround
    rw [hround]
    split
    · exact ⟨true, v, rfl, by rw [hsame]; exact Nat.le_add_right _ _⟩
    · have hclock := World.clock_woken hsame (Extended.nap (.finite s) timeout interval now)
      obtain ⟨fuel, rfl⟩ : ∃ k, fuel = k + 1 := ⟨fuel - 1, by omega⟩
      obtain ⟨ok, u, hrest, hslept⟩ := @ih (v.woken (Extended.nap (.finite s) timeout interval now))
        (by rw [hclock, Clock.now_woken, hnow]) hv (by rwa [hclock])
        (by rw [hclock, Clock.length_slept_woken, Clock.limit_woken]; omega) fuel (by omega)
      rw [hclock, Clock.length_slept_woken] at hslept
      exact ⟨ok, u, hrest, by omega⟩

/-- **A loop whose time never comes there goes on** as long as the nonce stays too low, until no
more sleeps are allowed. -/
theorem looping_endless (hreads : node.Answers a shown valid) (hlow : ∀ r, shown r → r < target)
    (hendless : Extended.Endless s timeout interval w.clock.now) (hw : valid w.node)
    (hsteady : w.clock.interruptAt = none) {fuel : ℕ}
    (hfuel : w.clock.limit ≤ w.clock.slept.length + fuel) :
    ∃ v, (looping node a target s timeout interval fuel).runOn w = (.error .sleepLimit, v) ∧
      w.clock.limit ≤ v.clock.slept.length := by
  obtain ⟨among, hfirst, hstays⟩ := hendless
  induction fuel generalizing w with
  | zero => exact ⟨w, rfl, hfuel⟩
  | succ fuel ih =>
    obtain ⟨r, v, hr, hsame, hv, hround⟩ := looping_succ target s timeout interval hreads hw hsteady
      fuel
    obtain ⟨hopen, hnap, hnext⟩ := hstays _ hfirst
    rw [if_neg (not_le.mpr (hlow r hr)), hopen, hnap] at hround
    simp only [Bool.false_eq_true, if_false] at hround
    rw [hround]
    split
    · rename_i hfull
      exact ⟨v, rfl, by rwa [hsame]⟩
    · have hclock := World.clock_woken hsame (Extended.nap (.finite s) timeout interval w.clock.now)
      obtain ⟨u, hrest, hslept⟩ := @ih
        (v.woken (Extended.nap (.finite s) timeout interval w.clock.now)) hv (by rwa [hclock])
        (by rw [hclock, Clock.length_slept_woken, Clock.limit_woken]; omega)
        (by rwa [hclock, Clock.now_woken])
      exact ⟨u, hrest, by rwa [hclock] at hslept⟩

/-- A loop that would sleep for less than no time fails, as long as the nonce stays too low. -/
theorem looping_refused (hreads : node.Answers a shown valid) (hlow : ∀ r, shown r → r < target)
    (hopen : Extended.expired (.finite s) timeout w.clock.now = false)
    (hnegative : interval.lt .zero = true) (hw : valid w.node)
    (hsteady : w.clock.interruptAt = none) (fuel : ℕ) :
    ∃ v, (looping node a target s timeout interval (fuel + 1)).runOn w =
      (.error .negativeSleep, v) := by
  obtain ⟨r, v, hr, -, -, hround⟩ := looping_succ target s timeout interval hreads hw hsteady fuel
  rw [if_neg (not_le.mpr (hlow r hr)), hopen, Extended.nap_of_negative hnegative, hnegative]
    at hround
  exact ⟨v, hround⟩

/-! ### Barriers -/

namespace Script

/-- A wait for a nonce is the loop between two notices. -/
theorem waitOn_looping (script : Script ν Extended) {b : Barrier Extended}
    (hown : b.timeout = none) (hnow : w.clock.now = .finite s) {out : Except Fault Bool}
    {v : World ν Extended}
    (h : (looping script.node a target s script.barrierTimeout script.pollInterval
      (w.clock.limit - w.clock.slept.length + 1)).runOn
        (w.noted (.waiting (.int target) (.text a) script.barrierTimeout)) = (out, v)) :
    ∃ t, (script.waitOn b a target).runOn w = (out, t) ∧ t.clock = v.clock := by
  have hloop : (World.waitFor script.barrierTimeout script.pollInterval
      (Client.hasReached script.node a target)).runOn
        (w.noted (.waiting (.int target) (.text a) script.barrierTimeout)) = (out, v) := by
    rw [← h, looping, ← hnow]
    simp only [Act.runOn, World.waitFor, World.waitUntil, World.noted]
  rw [waitOn, hown, Option.getD_none, Client.waitForNonce_eq, runOn_bind_ok (World.runOn_note _ w)]
  rcases out with f | ok
  · exact ⟨v, runOn_bind_error hloop, rfl⟩
  · exact ⟨v.noted _, runOn_bind_ok hloop, rfl⟩

end Script

namespace Command

variable {settings : Settings Extended} {accounts : Roster} {b : Barrier Extended}
  {st : Session ν Extended}

/-- A barrier on a tracked account, with timeout and interval from some settings, when the clock
shows a time and is not interrupted. -/
structure Waiting (node : Node ν Extended) (settings : Settings Extended) (accounts : Roster)
    (b : Barrier Extended) (a : String) (target : ℤ) (s : ℚ) (st : Session ν Extended) : Prop where
  own : b.timeout = none
  address : (scriptFor node settings accounts).address b.account = .ok a
  tracked : st.nonces.get? (.text a) = some target
  now : st.world.clock.now = .finite s
  steady : st.world.clock.interruptAt = none

/-- What such a barrier comes to is what its loop does. -/
theorem Waiting.runOn (h : Waiting node settings accounts b a target s st)
    {out : Except Fault Bool} {v : World ν Extended}
    (hloop : (looping node a target s settings.barrierTimeout settings.pollInterval
      (st.world.clock.limit - st.world.clock.slept.length + 1)).runOn
        (st.world.noted (.waiting (.int target) (.text a) settings.barrierTimeout)) = (out, v)) :
    ∃ w : World ν Extended, w.clock = v.clock ∧
      ((scriptFor node settings accounts).wait b).runOn st =
        (out.bind ((scriptFor node settings accounts).verdict b target),
          { st with world := w }) := by
  obtain ⟨w, hwait, hclock⟩ := Script.waitOn_looping (scriptFor node settings accounts) (b := b)
    h.own h.now hloop
  refine ⟨w, hclock, ?_⟩
  rcases hrun : ((scriptFor node settings accounts).wait b).runOn st with ⟨result, t⟩
  rcases Script.wait_cases hrun with ⟨f, hf, -⟩ | ⟨c, hc, hcases⟩
  · rw [h.address] at hf
    cases hf
  · rw [h.address] at hc
    cases hc
    rcases hcases with ⟨hnone, -⟩ | ⟨target', polled, w', htarget, hpoll, rfl, rfl⟩
    · rw [h.tracked] at hnone
      cases hnone
    · rw [h.tracked] at htarget
      cases htarget
      rw [hwait] at hpoll
      cases hpoll
      rfl

theorem Waiting.ends (h : Waiting node settings accounts b a target s st)
    (hreads : node.Answers a shown valid) (hvalid : valid st.world.node)
    (hends : Extended.Ends settings.barrierTimeout settings.pollInterval)
    (hroom : st.world.clock.slept.length +
      Extended.naps settings.barrierTimeout settings.pollInterval ≤ st.world.clock.limit) :
    ∃ ok w, ((scriptFor node settings accounts).wait b).runOn st =
        ((scriptFor node settings accounts).verdict b target ok, { st with world := w }) ∧
      w.clock.slept.length ≤ st.world.clock.slept.length +
        Extended.naps settings.barrierTimeout settings.pollInterval := by
  have hfuel : Extended.naps settings.barrierTimeout settings.pollInterval <
      st.world.clock.limit - st.world.clock.slept.length + 1 := by omega
  obtain ⟨ok, v, hloop, hslept⟩ := looping_stops
    (w := st.world.noted (.waiting (.int target) (.text a) settings.barrierTimeout)) target hreads
    hends.stops h.now hvalid h.steady hroom hfuel
  obtain ⟨w, hclock, hrun⟩ := h.runOn hloop
  exact ⟨ok, w, hrun, by rwa [hclock]⟩

theorem Waiting.refused (h : Waiting node settings accounts b a target s st)
    (hreads : node.Answers a shown valid) (hvalid : valid st.world.node)
    (hlow : ∀ r, shown r → r < target)
    (hnever : ¬ Extended.Ends settings.barrierTimeout settings.pollInterval)
    (hnegative : settings.pollInterval.lt .zero = true) :
    (((scriptFor node settings accounts).wait b).runOn st).1 = .error .negativeSleep := by
  let begun := st.world.noted (.waiting (.int target) (.text a) settings.barrierTimeout)
  have hopen : Extended.expired (.finite s) settings.barrierTimeout begun.clock.now = false := by
    rw [show begun.clock.now = .finite s from h.now]
    exact Extended.open_of_not_ends hnever
  obtain ⟨v, hloop⟩ := looping_refused hreads hlow hopen hnegative hvalid h.steady
    (st.world.clock.limit - st.world.clock.slept.length)
  obtain ⟨w, -, hrun⟩ := h.runOn hloop
  rw [hrun]
  rfl

theorem Waiting.endless (h : Waiting node settings accounts b a target s st)
    (hreads : node.Answers a shown valid) (hvalid : valid st.world.node)
    (hlow : ∀ r, shown r → r < target)
    (hnever : ¬ Extended.Ends settings.barrierTimeout settings.pollInterval)
    (hnonneg : settings.pollInterval.lt .zero = false) :
    ∃ w, ((scriptFor node settings accounts).wait b).runOn st =
        (.error .sleepLimit, { st with world := w }) ∧
      st.world.clock.limit ≤ w.clock.slept.length := by
  let begun := st.world.noted (.waiting (.int target) (.text a) settings.barrierTimeout)
  have hendless : Extended.Endless s settings.barrierTimeout settings.pollInterval
      begun.clock.now := by
    rw [show begun.clock.now = .finite s from h.now]
    exact Extended.endless_of_not_ends hnever hnonneg
  have hfuel : begun.clock.limit ≤ begun.clock.slept.length +
      (st.world.clock.limit - st.world.clock.slept.length + 1) := by
    show st.world.clock.limit ≤ st.world.clock.slept.length + _
    omega
  obtain ⟨v, hloop, hslept⟩ := looping_endless hreads hlow hendless hvalid h.steady hfuel
  obtain ⟨w, hclock, hrun⟩ := h.runOn hloop
  exact ⟨w, hrun, by rw [hclock]; exact hslept⟩

/-- An environment that writes a timeout and an interval. -/
def writing (timeout interval : String) : Environment :=
  ⟨[("PW_BARRIER_TIMEOUT", timeout), ("PW_POLL_INTERVAL", interval)]⟩

/-- The timeout and the interval in the settings of an environment. -/
def timesOf (env : Environment) : Option (Extended × Extended) :=
  (Settings.ofEnvironment env : Except Fault (Settings Extended)).toOption.map fun settings =>
    (settings.barrierTimeout, settings.pollInterval)

theorem exists_settings {env : Environment} {T d : Extended} (h : timesOf env = some (T, d)) :
    ∃ settings : Settings Extended, Settings.ofEnvironment env = .ok settings ∧
      settings.barrierTimeout = T ∧ settings.pollInterval = d := by
  rw [timesOf] at h
  cases hread : (Settings.ofEnvironment env : Except Fault (Settings Extended)) with
  | error f =>
    rw [hread] at h
    cases h
  | ok settings =>
    rw [hread] at h
    cases h
    exact ⟨settings, rfl, rfl, rfl⟩

/-- A node on which nothing is ever included. -/
def still : Node Unit Extended where
  chain := "Development"
  version := "1.0.0"
  query _ _ _ _ := pure (some (.object [("nonce", .int 0)]))
  queryMap _ _ _ _ := pure []
  compose _ _ _ := pure .null
  sign _ := pure ()
  submit _ := pure none

theorem answers_still (a : String) : still.Answers a (· = 0) fun _ => True where
  nonce _ _ _ := ⟨0, rfl, rfl⟩
  valid _ _ _ := trivial

/-- A session in which something was accepted from an account, and so many sleeps are allowed. -/
def pending (limit : ℕ) : Session Unit Extended where
  world := { node := (), clock := { now := .finite 0, limit } }
  nonces := ⟨[("a", 1)]⟩

theorem waiting_pending (settings : Settings Extended) (limit : ℕ) :
    Waiting still settings ⟨[("root", ⟨"a", true⟩)]⟩ ⟨"root", none, .bool true⟩ "a" 1 0
      (pending limit) where
  own := rfl
  address := rfl
  tracked := rfl
  now := rfl
  steady := rfl

theorem endless_of_times {env : Environment} {T d : Extended} (h : timesOf env = some (T, d))
    (hnever : ¬ Extended.Ends T d) (hnonneg : d.lt .zero = false) :
    ∃ settings : Settings Extended, Settings.ofEnvironment env = .ok settings ∧
      ∀ limit, (((scriptFor still settings ⟨[("root", ⟨"a", true⟩)]⟩).wait
        ⟨"root", none, .bool true⟩).runOn (pending limit)).1 = .error .sleepLimit := by
  obtain ⟨settings, hread, rfl, rfl⟩ := exists_settings h
  refine ⟨settings, hread, fun limit => ?_⟩
  obtain ⟨w, hrun, -⟩ := (waiting_pending settings limit).endless (answers_still "a") trivial
    (by simp) hnever hnonneg
  rw [hrun]

/-- **Which barriers end.**  A barrier without a timeout of its own waits on a tracked account, with
timeout and interval from any settings, and reading the nonce succeeds whenever it is tried.

If such a wait comes to an end (`Extended.Ends`), then so does the barrier, after no more sleeps
than `Extended.naps` says: it tells whether the nonce has been reached, or raises a timeout if it is
strict.  If not, and the nonce stays below the tracked one, then it fails by asking for a sleep of
less than no time if the interval is below zero, and else it never ends: whatever limit there is on
the sleeps, it runs into that. -/
theorem barrier_comes_to_end (h : Waiting node settings accounts b a target s st)
    (hreads : node.Answers a shown valid) (hvalid : valid st.world.node) :
    let T := settings.barrierTimeout
    let d := settings.pollInterval
    let run := ((scriptFor node settings accounts).wait b).runOn st
    (Extended.Ends T d →
        st.world.clock.slept.length + Extended.naps T d ≤ st.world.clock.limit →
        ((∃ ok, run.1 = .ok ok) ∨ b.strict.truthy = true ∧
          run.1 = .error (.barrierTimeout b.account.shown target (Seconds.text T))) ∧
        run.2.world.clock.slept.length ≤ st.world.clock.slept.length + Extended.naps T d) ∧
      (¬ Extended.Ends T d → (∀ r, shown r → r < target) →
        if d.lt .zero then run.1 = .error .negativeSleep
        else run.1 = .error .sleepLimit ∧
          st.world.clock.limit ≤ run.2.world.clock.slept.length) := by
  intro T d run
  refine ⟨fun hends hroom => ?_, fun hnever hlow => ?_⟩
  · obtain ⟨ok, w, hrun, hslept⟩ := h.ends hreads hvalid hends hroom
    rw [show run = _ from hrun]
    refine ⟨?_, hslept⟩
    cases ok with
    | true => exact Or.inl ⟨true, rfl⟩
    | false =>
      rw [Script.verdict_false]
      split
      · rename_i hstrict
        rw [h.own]
        exact Or.inr ⟨hstrict, rfl⟩
      · exact Or.inl ⟨false, rfl⟩
  · split
    · rename_i hnegative
      exact h.refused hreads hvalid hlow hnever hnegative
    · rename_i hnonneg
      obtain ⟨w, hrun, hslept⟩ := h.endless hreads hvalid hlow hnever (Bool.not_eq_true _ ▸ hnonneg)
      rw [show run = _ from hrun]
      exact ⟨rfl, hslept⟩

/-- An interval without end is cut off by the timeout, and the barrier ends after one sleep; a
timeout that is no number is never over, with any limit on the sleeps. -/
theorem barrier_comes_to_end_unbounded :
    (∃ settings : Settings Extended, Settings.ofEnvironment (writing "1" "inf") = .ok settings ∧
      let run := ((scriptFor still settings ⟨[("root", ⟨"a", true⟩)]⟩).wait
        ⟨"root", none, .bool true⟩).runOn (pending 1)
      ((∃ ok, run.1 = .ok ok) ∨ (Value.bool true).truthy = true ∧
          run.1 = .error (.barrierTimeout "root" 1 "1")) ∧
        run.2.world.clock.slept.length ≤ 1) ∧
      ∃ settings : Settings Extended, Settings.ofEnvironment (writing "nan" "0.5") = .ok settings ∧
        let run := ((scriptFor still settings ⟨[("root", ⟨"a", true⟩)]⟩).wait
          ⟨"root", none, .bool true⟩).runOn (pending 7)
        run.1 = .error .sleepLimit ∧ 7 ≤ run.2.world.clock.slept.length := by
  constructor
  · obtain ⟨settings, hread, hT, hd⟩ :=
      @exists_settings (writing "1" "inf") (.finite 1) (.infinite false) (by decide +kernel)
    have hends := (barrier_comes_to_end (waiting_pending settings 1) (answers_still "a") trivial).1
    rw [hT, hd] at hends
    exact ⟨settings, hread, hends (by decide) (by decide)⟩
  · obtain ⟨settings, hread, hT, hd⟩ :=
      @exists_settings (writing "nan" "0.5") .notANumber (.finite (1 / 2)) (by decide +kernel)
    have hnever := (barrier_comes_to_end (waiting_pending settings 7) (answers_still "a") trivial).2
    rw [hT, hd, if_neg (by decide +kernel)] at hnever
    exact ⟨settings, hread, hnever (by decide) (by simp)⟩

/-- Environments may write intervals that a barrier would have to sleep for less than no time with,
and timeouts and intervals with which it never ends. -/
theorem configured_barriers_may_not_end :
    (∃ settings : Settings Extended, Settings.ofEnvironment (writing "2" "-1") = .ok settings ∧
      (((scriptFor still settings ⟨[("root", ⟨"a", true⟩)]⟩).wait
        ⟨"root", none, .bool true⟩).runOn (pending 5000)).1 = .error .negativeSleep) ∧
      ∀ written ∈ [("2", "0"), ("2", "nan"), ("nan", "0.1"), ("inf", "0.1")],
        ∃ settings : Settings Extended,
          Settings.ofEnvironment (writing written.1 written.2) = .ok settings ∧
          ∀ limit, (((scriptFor still settings ⟨[("root", ⟨"a", true⟩)]⟩).wait
            ⟨"root", none, .bool true⟩).runOn (pending limit)).1 = .error .sleepLimit := by
  refine ⟨?_, ?_⟩
  · obtain ⟨settings, hread, hT, hd⟩ :=
      @exists_settings (writing "2" "-1") (.finite 2) (.finite (-1)) (by decide +kernel)
    refine ⟨settings, hread, (waiting_pending settings 5000).refused (answers_still "a") trivial
      (by simp) ?_ ?_⟩
    · rw [hT, hd]
      decide
    · rw [hd]
      decide
  · have hzero : timesOf (writing "2" "0") = some (.finite 2, .finite 0) := by decide +kernel
    have hinterval : timesOf (writing "2" "nan") = some (.finite 2, .notANumber) := by
      decide +kernel
    have htimeout : timesOf (writing "nan" "0.1") = some (.notANumber, .finite (1 / 10)) := by
      decide +kernel
    have hinfinite : timesOf (writing "inf" "0.1") =
        some (.infinite false, .finite (1 / 10)) := by decide +kernel
    have htenth : (Extended.finite (1 / 10)).lt .zero = false := by decide +kernel
    simp only [List.forall_mem_cons]
    exact ⟨endless_of_times hzero (by decide) (by decide),
      endless_of_times hinterval (by decide) (by decide),
      endless_of_times htimeout (by decide) htenth,
      endless_of_times hinfinite (by decide) htenth, by simp⟩

end Command

end

end Campaign
