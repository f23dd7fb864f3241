import Campaign.Proofs.Rounds
import Mathlib.Data.List.Chain

/-!
# One deadline for several waits

A deadline may be given to several waits, and be cancelled between them or by what they wait for.
Here it stands beside the state of the node (`Sharing`), so that everything can get at it, and a
sequence of uses is performed one after the other: the clock is moved on, the deadline is cancelled,
or a wait is made that goes by the deadline and may fail.

Everything follows from two facts about a round.  The state only moves onward (`Timer.Onward`), so
what is over stays over.  And a sleep ends before the deadline does, so all sleeps up to some time
fit between the start of the deadline and that time: this is the invariant `Spent`, which is carried
through the rounds of one wait (`spent_rounds`) and from use to use (`spent_uses`).
-/

namespace Campaign

open Act

variable {σ ν : Type}

/-! ### Going onward -/

instance (timer : Timer σ ℚ) (deadline : σ → Deadline ℚ) :
    IsPreorder σ (timer.Onward deadline) where
  refl _ := ⟨le_rfl, rfl, rfl, id⟩
  trans _ _ _ h g :=
    ⟨h.now.trans g.now, g.started.trans h.started, g.timeout.trans h.timeout,
      g.cancelled ∘ h.cancelled⟩

namespace Deadline

variable {d e : Deadline ℚ} {now later : ℚ}

/-- Something is left exactly before the deadline is over. -/
theorem left_eq_zero_iff : d.left now = 0 ↔ d.Over now := by
  rw [left, Over]
  cases d.cancelled with
  | true => simp
  | false => simp

theorem left_of_not_cancelled (h : d.cancelled = false) :
    d.left now = max 0 (d.timeout - (now - d.started)) := by
  rw [left, h, if_neg Bool.false_ne_true]

end Deadline

/-- What is left never grows. -/
theorem Timer.Onward.left_le {timer : Timer σ ℚ} {deadline : σ → Deadline ℚ} {s t : σ}
    (h : timer.Onward deadline s t) : timer.left deadline t ≤ timer.left deadline s := by
  cases ht : (deadline t).cancelled with
  | true =>
    rw [Timer.left, Deadline.left_eq_zero_iff.mpr (Or.inl ht), Timer.left, Deadline.left]
    split
    · exact le_rfl
    · exact le_max_left _ _
  | false =>
    have hs : (deadline s).cancelled = false := by
      rw [← Bool.not_eq_true]
      intro hs
      rw [h.cancelled hs] at ht
      cases ht
    rw [Timer.left, Deadline.left_of_not_cancelled ht, Timer.left,
      Deadline.left_of_not_cancelled hs, h.started, h.timeout]
    exact max_le_max le_rfl (by linarith [h.now])

/-! ### Sleeps, and waits with a deadline -/

/-- What a sleep of a world does, however it ends: it moves the clock by its length, or not at all.
-/
theorem World.sleep_moves {length : ℚ} {w t : World ν ℚ} {ended : Except Fault Unit}
    (hlength : 0 ≤ length) (h : (sleep length).runOn w = (ended, t)) :
    t.node = w.node ∧ (t.clock.now = w.clock.now ∨ t.clock.now = w.clock.now + length) := by
  rw [sleep, runOn_within] at h
  obtain ⟨-, rfl⟩ := Prod.mk.inj h
  refine ⟨rfl, ?_⟩
  rw [Clock.runOn_sleep_eq, Seconds.isNegative_rational hlength]
  simp only []
  split
  · exact Or.inl rfl
  · split
    · exact Or.inl rfl
    · exact Or.inr rfl

theorem Client.waitForNonce_given (node : Node ν ℚ) (address target : Value) (timeout interval : ℚ)
    (deadline : World ν ℚ → Deadline ℚ) :
    waitForNonce node address target timeout interval (some deadline) = (do
      World.note (.waiting target address timeout)
      let ok ← World.waitUntil deadline interval (do
        let nonce ← accountNonce node address
        Act.ofExcept (Value.atLeast (.int nonce) target))
      World.note (if ok then .reached target address else .timedOut timeout target address)
      return ok) := rfl

/-! ### Worlds that share a deadline -/

/-- A world in which a deadline stands beside the state of the node. -/
abbrev Sharing (ν : Type) := World (ν × Deadline ℚ) ℚ

namespace Sharing

/-- A deadline is made beside the node of a world. -/
def opened (timeout : ℚ) (w : World ν ℚ) : Sharing ν where
  node := (w.node, { started := w.clock.now, timeout })
  clock := w.clock
  journal := w.journal

/-- The deadline that is shared. -/
def deadline (w : Sharing ν) : Deadline ℚ := w.node.2

/-- A world comes after another one. -/
abbrev Onward : Sharing ν → Sharing ν → Prop := World.timer.Onward deadline

/-- The deadline stops the waiting. -/
abbrev Over (w : Sharing ν) : Prop := World.timer.Over deadline w

/-- How many looks a wait may take that begins here. -/
def room (w : Sharing ν) : ℕ := w.clock.limit - w.clock.slept.length + 1

/-- Reading the clock of a world changes nothing. -/
theorem asked_eq (w : Sharing ν) : World.timer.asked deadline w = w := by
  rw [Timer.asked]
  split <;> rfl

theorem ready_eq (w : Sharing ν) : World.timer.ready deadline w = w := by
  rw [Timer.ready, asked_eq, asked_eq]

/-- A notice changes neither the clock nor the deadline. -/
theorem onward_noted (w : Sharing ν) (n : Notice ℚ) : Onward w (w.noted n) :=
  ⟨le_rfl, rfl, rfl, id⟩

theorem onward_sleep {length : ℚ} {w t : Sharing ν} {ended : Except Fault Unit}
    (hlength : 0 ≤ length) (h : (World.sleep length).runOn w = (ended, t)) : Onward w t := by
  obtain ⟨hnode, hnow⟩ := World.sleep_moves hlength h
  have hsame : t.deadline = w.deadline := congrArg Prod.snd hnode
  refine ⟨?_, by rw [hsame], by rw [hsame], by rw [hsame]; exact id⟩
  show w.clock.now ≤ t.clock.now
  rcases hnow with hnow | hnow <;> rw [hnow]
  exact le_add_of_nonneg_right hlength

/-- A sleep before the deadline is over takes some time and ends before the deadline does. -/
theorem nap_fits {interval : ℚ} (hinterval : 0 < interval) {w : Sharing ν} (hopen : ¬ w.Over) :
    0 < World.timer.nap deadline interval w ∧
      w.clock.now + World.timer.nap deadline interval w ≤
        w.deadline.started + w.deadline.timeout := by
  obtain ⟨hcancelled, htime⟩ := not_or.mp hopen
  have hleft : World.timer.left deadline w =
      max 0 (w.deadline.timeout - (w.clock.now - w.deadline.started)) :=
    Deadline.left_of_not_cancelled (Bool.not_eq_true _ ▸ hcancelled)
  have hpos : 0 < w.deadline.timeout - (w.clock.now - w.deadline.started) :=
    sub_pos.mpr (not_le.mp htime)
  rw [Timer.nap, asked_eq, hleft, max_eq_right hpos.le]
  refine ⟨lt_min hinterval hpos, ?_⟩
  linarith [min_le_right interval (w.deadline.timeout - (w.clock.now - w.deadline.started))]

/-! ### Rounds that go by the deadline -/

/-- The worlds that a mark is about, in order: the one after a look, and those around a sleep. -/
def moments : Mark (Sharing ν) → List (Sharing ν)
  | .looked _ after => [after]
  | .slept length _ before => [before, ((World.sleep length).runOn before).2]

/-- How far a sleep has moved the clock. -/
def moved : Mark (Sharing ν) → ℚ
  | .looked _ _ => 0
  | .slept length _ before =>
    ((World.sleep length).runOn before).2.clock.now - before.clock.now

/-- How far all sleeps have moved the clock. -/
def slept (marks : List (Mark (Sharing ν))) : ℚ := (marks.map moved).sum

theorem slept_append (earlier later : List (Mark (Sharing ν))) :
    slept (earlier ++ later) = slept earlier + slept later := by
  rw [slept, List.map_append, List.sum_append, slept, slept]

/-- **What has been slept** under a deadline is not more than the time since its start, and fits
into its timeout. -/
structure Spent (s T total : ℚ) (w : Sharing ν) : Prop where
  started : w.deadline.started = s
  timeout : w.deadline.timeout = T
  since : total ≤ w.clock.now - s
  within : total ≤ max 0 T

section

variable {interval s T total : ℚ} {holds : Act (Sharing ν) Bool} {fuel : ℕ}
  {w t : Sharing ν} {marks : List (Mark (Sharing ν))} {out : Except Fault Bool}

theorem spent_opened (timeout : ℚ) (w : World ν ℚ) :
    Spent w.clock.now timeout 0 (opened timeout w) :=
  ⟨rfl, rfl, (sub_self _).ge, le_max_left _ _⟩

theorem Spent.onward (h : Spent s T total w) (honward : Onward w t) :
    Spent s T total t := by
  refine ⟨honward.started.trans h.started, honward.timeout.trans h.timeout, ?_, h.within⟩
  exact h.since.trans (sub_le_sub_right honward.now _)

/-- A sleep that ends before the deadline does adds what it moves the clock by. -/
theorem Spent.sleep {length : ℚ} {ended : Except Fault Unit} (h : Spent s T total w)
    (hlength : 0 ≤ length) (hfits : w.clock.now + length ≤ s + T)
    (hsleep : (World.sleep length).runOn w = (ended, t)) :
    Spent s T (total + moved (.slept length ended w)) t := by
  have hmoved : moved (.slept length ended w) = t.clock.now - w.clock.now := by
    rw [moved, hsleep]
  obtain ⟨hstarted, htimeout, hsince, hwithin⟩ := h.onward (onward_sleep hlength hsleep)
  refine ⟨hstarted, htimeout, ?_, ?_⟩
  · linarith [h.since]
  · rcases (World.sleep_moves hlength hsleep).2 with hnow | hnow
    · rw [hmoved, hnow, sub_self, add_zero]
      exact hwithin
    · exact le_max_of_le_right (by linarith [h.since])

/-- The worlds of a loop come one after the other, and between those before and after it. -/
theorem chain_rounds (hinterval : 0 < interval) (honward : Keeps Onward holds)
    (h : World.timer.Rounds deadline interval holds fuel w marks out t) {v u : Sharing ν}
    (hbefore : Onward v w) (hafter : Onward t u) :
    (v :: marks.flatMap moments ++ [u]).IsChain Onward := by
  induction h generalizing v with
  | spent => simpa using trans_of Onward hbefore hafter
  | stop hlook _ =>
    simpa [moments] using ⟨trans_of Onward hbefore (honward.of_runOn hlook), hafter⟩
  | late hlook _ =>
    rw [asked_eq] at hafter
    simpa [moments] using ⟨trans_of Onward hbefore (honward.of_runOn hlook), hafter⟩
  | @broken _ _ m t _ hlook hopen hsleep =>
    rw [ready_eq] at hsleep ⊢
    have hnap := onward_sleep (nap_fits hinterval hopen).1.le hsleep
    have hwoken : ((World.sleep (World.timer.nap deadline interval m)).runOn m).2 = t :=
      congrArg Prod.snd hsleep
    simpa [moments, hwoken] using
      ⟨trans_of Onward hbefore (honward.of_runOn hlook), refl_of Onward m, hnap, hafter⟩
  | @again _ _ m t _ _ _ hlook hopen hsleep _ ih =>
    rw [ready_eq] at hsleep ⊢
    have hnap := onward_sleep (nap_fits hinterval hopen).1.le hsleep
    have hwoken : ((World.sleep (World.timer.nap deadline interval m)).runOn m).2 = t :=
      congrArg Prod.snd hsleep
    simpa [moments, hwoken] using ⟨trans_of Onward hbefore (honward.of_runOn hlook),
      refl_of Onward m, hnap, ih (refl_of Onward t) hafter⟩

/-- **Rounds keep what has been slept within the deadline.** -/
theorem spent_rounds (hinterval : 0 < interval) (honward : Keeps Onward holds)
    (h : World.timer.Rounds deadline interval holds fuel w marks out t)
    (hw : Spent s T total w) : Spent s T (total + slept marks) t := by
  induction h generalizing total with
  | spent => simpa [slept] using hw
  | stop hlook _ => simpa [slept, moved] using hw.onward (honward.of_runOn hlook)
  | late hlook _ =>
    rw [asked_eq]
    simpa [slept, moved] using hw.onward (honward.of_runOn hlook)
  | broken hlook hopen hsleep =>
    rw [ready_eq] at hsleep ⊢
    have hm := hw.onward (honward.of_runOn hlook)
    obtain ⟨hpos, hfits⟩ := nap_fits hinterval hopen
    rw [hm.started, hm.timeout] at hfits
    simpa [slept, moved] using hm.sleep hpos.le hfits hsleep
  | again hlook hopen hsleep _ ih =>
    rw [ready_eq] at hsleep ⊢
    have hm := hw.onward (honward.of_runOn hlook)
    obtain ⟨hpos, hfits⟩ := nap_fits hinterval hopen
    rw [hm.started, hm.timeout] at hfits
    simpa [slept, moved, add_assoc] using ih (hm.sleep hpos.le hfits hsleep)

/-- No sleep of a loop carries the clock past the end of the deadline. -/
theorem slept_rounds (hinterval : 0 < interval) (honward : Keeps Onward holds)
    (h : World.timer.Rounds deadline interval holds fuel w marks out t)
    (hw : Spent s T total w) {length : ℚ} {ended : Except Fault Unit} {m : Sharing ν}
    (hmark : .slept length ended m ∈ marks) :
    0 < length ∧ m.clock.now + length ≤ s + T := by
  have hchain := chain_rounds hinterval honward h (refl_of Onward w) (refl_of Onward t)
  rw [List.isChain_iff_pairwise] at hchain
  obtain ⟨earlier, later, hmarks⟩ := List.append_of_mem hmark
  obtain ⟨before, seen, -, hopen, rfl, hm⟩ := h.slept hmarks
  rw [ready_eq] at hm
  subst hm
  -- the deadline is still the one that the loop began with
  have hthen : Spent s T total m := by
    refine hw.onward (List.rel_of_pairwise_cons hchain ?_)
    exact List.mem_append_left _ (List.mem_flatMap.mpr ⟨_, hmark, by simp [moments]⟩)
  have hfits := nap_fits hinterval hopen
  rwa [hthen.started, hthen.timeout] at hfits

end

/-! ### Calls that wait -/

/-- A call that waits and is given the deadline, whatever its timeout is. -/
inductive Call (ν : Type) where
  | check (timeout interval : ℚ) (holds : Act (Sharing ν) Bool)
  | nonce (node : Node (ν × Deadline ℚ) ℚ) (address target : Value) (timeout interval : ℚ)

namespace Call

def timeout : Call ν → ℚ
  | check timeout _ _ | nonce _ _ _ timeout _ => timeout

def interval : Call ν → ℚ
  | check _ interval _ | nonce _ _ _ _ interval => interval

/-- What the call looks at. -/
def holds : Call ν → Act (Sharing ν) Bool
  | check _ _ holds => holds
  | nonce node address target _ _ => do
    let nonce ← Client.accountNonce node address
    Act.ofExcept (Value.atLeast (.int nonce) target)

/-- What the call does. -/
def perform : Call ν → Act (Sharing ν) Bool
  | check _ interval holds => World.waitUntil deadline interval holds
  | nonce node address target timeout interval =>
    Client.waitForNonce node address target timeout interval (some deadline)

/-- The world in which its looks begin. -/
def begun : Call ν → Sharing ν → Sharing ν
  | check _ _ _, w => w
  | nonce _ address target timeout _, w => w.noted (.waiting target address timeout)

/-- The world that it leaves after its looks. -/
def closed : Call ν → Except Fault Bool → Sharing ν → Sharing ν
  | nonce _ address target timeout _, .ok ok, w =>
    w.noted (if ok then .reached target address else .timedOut timeout target address)
  | _, _, w => w

/-- Its looks, written down. -/
def looking (c : Call ν) : Act (Sharing ν × List (Mark (Sharing ν))) Bool := fun p =>
  World.timer.logged.check c.timeout c.interval c.holds.logged (some fun p => deadline p.1)
    (room p.1) p

/-- What the call does, its looks and sleeps written down. -/
def logged : Call ν → Act (Sharing ν × List (Mark (Sharing ν))) Bool
  | c@(check _ _ _) => c.looking
  | c@(nonce _ address target timeout _) => do
    within Prod.fst (fun w p => (w, p.2)) (World.note (.waiting target address timeout))
    let ok ← c.looking
    within Prod.fst (fun w p => (w, p.2))
      (World.note (if ok then .reached target address else .timedOut timeout target address))
    return ok

/-- The looks and the sleeps of the call. -/
def marks (c : Call ν) (w : Sharing ν) : List (Mark (Sharing ν)) := (c.logged.runOn (w, [])).2.2

/-- It sleeps between its looks, and these do nothing to the clock but move it on, and nothing to
the deadline but cancel it. -/
def Fair (c : Call ν) : Prop := 0 < c.interval ∧ Keeps Onward c.holds

section

variable {c : Call ν} {w t : Sharing ν} {out : Except Fault Bool}

theorem runOn_perform (h : (World.timer.check c.timeout c.interval c.holds (some deadline)
    w.room).runOn (c.begun w) = (out, t)) : c.perform.runOn w = (out, c.closed out t) := by
  cases c with
  | check timeout interval holds => exact (World.waitUntil_eq_check _ timeout _ _ w).trans h
  | nonce node address target timeout interval =>
    have hwait : (World.waitUntil deadline interval
        (nonce node address target timeout interval).holds).runOn
          (w.noted (.waiting target address timeout)) = (out, t) :=
      (World.waitUntil_eq_check _ timeout _ _ _).trans h
    rw [perform, Client.waitForNonce_given, runOn_bind_ok (World.runOn_note _ w)]
    rcases out with f | ok
    · exact runOn_bind_error hwait
    · exact runOn_bind_ok hwait

theorem runOn_logged {marks : List (Mark (Sharing ν))}
    (h : c.looking.runOn (c.begun w, []) = (out, t, marks)) :
    c.logged.runOn (w, []) = (out, c.closed out t, marks) := by
  cases c with
  | check timeout interval holds => exact h
  | nonce node address target timeout interval =>
    have hfirst : (within Prod.fst (fun w p => (w, p.2)) (World.note
        (.waiting target address timeout)) : Act (Sharing ν × List (Mark (Sharing ν))) Unit).runOn
          (w, []) = (.ok (), w.noted (.waiting target address timeout), []) := rfl
    rw [logged, runOn_bind_ok hfirst]
    rcases out with f | ok
    · exact runOn_bind_error h
    · exact runOn_bind_ok h

/-- **A call is rounds between its notices**, and writing them down changes nothing else. -/
theorem rounds (c : Call ν) (w : Sharing ν) :
    ∃ out t, World.timer.Rounds deadline c.interval c.holds w.room (c.begun w) (c.marks w) out t ∧
      c.perform.runOn w = (out, c.closed out t) ∧
      c.logged.runOn (w, []) = (out, c.closed out t, c.marks w) := by
  rcases hloop : (World.timer.check c.timeout c.interval c.holds (some deadline) w.room).runOn
    (c.begun w) with ⟨out, t⟩
  obtain ⟨marks, hrounds, hlogged⟩ := Timer.rounds_check hloop
  have hlooking : c.looking.runOn (c.begun w, []) = (out, t, marks) := by
    cases c <;> exact hlogged
  have hmarks : c.marks w = marks := by rw [Call.marks, runOn_logged hlooking]
  rw [hmarks]
  exact ⟨out, t, hrounds, runOn_perform hloop, runOn_logged hlooking⟩

end

theorem onward_begun (c : Call ν) (w : Sharing ν) : Onward w (c.begun w) := by
  cases c with
  | check => exact refl_of Onward w
  | nonce => exact onward_noted w _

theorem onward_closed (c : Call ν) (out : Except Fault Bool) (t : Sharing ν) :
    Onward t (c.closed out t) := by
  cases c with
  | check => exact refl_of Onward t
  | nonce =>
    cases out with
    | error f => exact refl_of Onward t
    | ok ok => exact onward_noted t _

/-- A call that begins when the deadline is over looks once. -/
theorem once {c : Call ν} (hc : c.Fair) {w : Sharing ν} (hover : w.Over) :
    ∃ found m, c.marks w = [.looked found m] := by
  obtain ⟨out, t, hrounds, -⟩ := c.rounds w
  obtain ⟨m, hm⟩ := hrounds.once hc.2 ((c.onward_begun w).over hover)
  exact ⟨out, m, hm⟩

end Call

/-! ### Uses of the deadline -/

/-- Something that is done in a world with a shared deadline. -/
inductive Use (ν : Type) where
  /-- The clock is moved on. -/
  | advance (length : ℚ)
  | cancel
  | call (c : Call ν)

namespace Use

/-- The world after it, however it ends. -/
def after : Use ν → Sharing ν → Sharing ν
  | advance length, w =>
    ((within World.clock (fun c w => { w with clock := c }) (Clock.advance length)).runOn w).2
  | cancel, w => { w with node := (w.node.1, w.node.2.cancel) }
  | call c, w => (c.perform.runOn w).2

def marks : Use ν → Sharing ν → List (Mark (Sharing ν))
  | call c, w => c.marks w
  | _, _ => []

/-- The clock is not turned back. -/
def Fair : Use ν → Prop
  | advance length => 0 ≤ length
  | cancel => True
  | call c => c.Fair

variable {u : Use ν} {s T total : ℚ} {w : Sharing ν}

theorem onward_advance {length : ℚ} (hlength : 0 ≤ length) (w : Sharing ν) :
    Onward w ((advance length).after w) := by
  refine ⟨?_, rfl, rfl, id⟩
  show w.clock.now ≤ w.clock.now + length
  exact le_add_of_nonneg_right hlength

theorem onward_cancel (w : Sharing ν) : Onward w (cancel.after w) :=
  ⟨le_rfl, rfl, rfl, fun _ => rfl⟩

/-- The worlds of a use come one after the other. -/
theorem chain (hu : u.Fair) (w : Sharing ν) :
    (w :: (u.marks w).flatMap moments ++ [u.after w]).IsChain Onward := by
  cases u with
  | advance length => simpa [marks] using onward_advance hu w
  | cancel => simpa [marks] using onward_cancel w
  | call c =>
    obtain ⟨out, t, hrounds, hperform, -⟩ := c.rounds w
    have hclosed : (call c).after w = c.closed out t := congrArg Prod.snd hperform
    rw [hclosed]
    exact chain_rounds hu.1 hu.2 hrounds (c.onward_begun w) (c.onward_closed out t)

/-- **A use keeps what has been slept within the deadline.** -/
theorem spent (hu : u.Fair) (hw : Spent s T total w) :
    Spent s T (total + slept (u.marks w)) (u.after w) := by
  cases u with
  | advance length => simpa [marks, slept] using hw.onward (onward_advance hu w)
  | cancel => simpa [marks, slept] using hw.onward (onward_cancel w)
  | call c =>
    obtain ⟨out, t, hrounds, hperform, -⟩ := c.rounds w
    have hclosed : (call c).after w = c.closed out t := congrArg Prod.snd hperform
    rw [hclosed]
    exact (spent_rounds hu.1 hu.2 hrounds (hw.onward (c.onward_begun w))).onward
      (c.onward_closed out t)

theorem slept_fits (hu : u.Fair) (hw : Spent s T total w) {length : ℚ} {ended : Except Fault Unit}
    {m : Sharing ν} (hmark : .slept length ended m ∈ u.marks w) :
    0 < length ∧ m.clock.now + length ≤ s + T := by
  cases u with
  | advance | cancel => cases hmark
  | call c =>
    obtain ⟨out, t, hrounds, -⟩ := c.rounds w
    exact slept_rounds hu.1 hu.2 hrounds (hw.onward (c.onward_begun w)) hmark

end Use

/-- The worlds of a sequence of uses, in order. -/
def worlds : List (Use ν) → Sharing ν → List (Sharing ν)
  | [], w => [w]
  | u :: uses, w => w :: (u.marks w).flatMap moments ++ worlds uses (u.after w)

/-- The looks and sleeps of all its calls. -/
def allMarks : List (Use ν) → Sharing ν → List (Mark (Sharing ν))
  | [], _ => []
  | u :: uses, w => u.marks w ++ allMarks uses (u.after w)

variable {uses : List (Use ν)} {s T total : ℚ} {w : Sharing ν}

theorem worlds_eq_cons (uses : List (Use ν)) (w : Sharing ν) :
    ∃ later, worlds uses w = w :: later := by
  cases uses with
  | nil => exact ⟨[], rfl⟩
  | cons u uses => exact ⟨_, rfl⟩

theorem chain_worlds (hfair : ∀ u ∈ uses, u.Fair) (w : Sharing ν) :
    (worlds uses w).IsChain Onward := by
  induction uses generalizing w with
  | nil => simp [worlds]
  | cons u uses ih =>
    rw [List.forall_mem_cons] at hfair
    have hrest := ih hfair.2 (u.after w)
    obtain ⟨later, hlater⟩ := worlds_eq_cons uses (u.after w)
    rw [hlater] at hrest
    have hchain := (u.chain hfair.1 w).append_overlap hrest (List.cons_ne_nil _ _)
    rwa [worlds, hlater, List.append_cons]

/-- **Uses keep what has been slept within the deadline.** -/
theorem spent_uses (hfair : ∀ u ∈ uses, u.Fair) (hw : Spent s T total w) :
    (∀ length ended m, .slept length ended m ∈ allMarks uses w →
        0 < length ∧ m.clock.now + length ≤ s + T) ∧
      total + slept (allMarks uses w) ≤ max 0 T := by
  induction uses generalizing w total with
  | nil => exact ⟨by simp [allMarks], by simpa [allMarks, slept] using hw.within⟩
  | cons u uses ih =>
    rw [List.forall_mem_cons] at hfair
    obtain ⟨hrest, htotal⟩ := ih hfair.2 (u.spent hfair.1 hw)
    refine ⟨fun length ended m hmark => ?_, ?_⟩
    · rcases List.mem_append.mp hmark with hmark | hmark
      · exact u.slept_fits hfair.1 hw hmark
      · exact hrest length ended m hmark
    · rwa [allMarks, slept_append, ← add_assoc]

/-- What the deadline says in a world. -/
theorem told (w : Sharing ν) :
    w.deadline.expired w.clock.now = .ok (decide w.Over) ∧
      w.deadline.remaining w.clock.now = .ok (World.timer.left deadline w) :=
  ⟨w.deadline.expired_rational _, w.deadline.remaining_rational _⟩

theorem expired_iff (w : Sharing ν) : w.deadline.expired w.clock.now = .ok true ↔ w.Over := by
  rw [(told w).1]
  simp

/-- **One deadline bounds all waits that are given it.**  It is made in some world, and then there
is a sequence of uses: the clock is moved on, the deadline is cancelled, or a call waits for any
condition or for a nonce, with any timeout of its own and an interval above zero.  A call may fail.
Writing down its looks and sleeps changes nothing else.

In all worlds between, and around every look and sleep, what has expired stays so, and the time that
remains never grows.  It is zero exactly if the deadline has expired and, unless the deadline has
been cancelled, it is what the timeout leaves after the time since the start.  No sleep carries the
clock past the end of the deadline, and all sleeps of all calls together fit into its timeout.  Any
call that begins when the deadline has expired or been cancelled looks once and does not sleep. -/
theorem waits_share_deadline (hfair : ∀ u ∈ uses, u.Fair) (start : World ν ℚ) (T : ℚ) :
    let s := start.clock.now
    let w := opened T start
    (∀ (c : Call ν) (v : Sharing ν),
        c.perform.runOn v = ((c.logged.runOn (v, [])).1, (c.logged.runOn (v, [])).2.1)) ∧
      (worlds uses w).Pairwise (fun v v' =>
        (v.deadline.expired v.clock.now = .ok true →
          v'.deadline.expired v'.clock.now = .ok true) ∧
        ∀ r r', v.deadline.remaining v.clock.now = .ok r →
          v'.deadline.remaining v'.clock.now = .ok r' → r' ≤ r) ∧
      (∀ v ∈ worlds uses w, ∃ r, v.deadline.remaining v.clock.now = .ok r ∧
        (v.deadline.expired v.clock.now = .ok true ↔ r = 0) ∧
        (v.deadline.cancelled = false → r = max 0 (T - (v.clock.now - s)))) ∧
      (∀ length ended m, .slept length ended m ∈ allMarks uses w →
        0 < length ∧ m.clock.now + length ≤ s + T ∧
          ((World.sleep length).runOn m).2.clock.now ≤ s + T) ∧
      slept (allMarks uses w) ≤ max 0 T ∧
      ∀ c : Call ν, c.Fair → ∀ v : Sharing ν, v.deadline.expired v.clock.now = .ok true →
        ∃ found m, c.marks v = [.looked found m] := by
  intro s w
  have hpairwise : (worlds uses w).Pairwise Onward :=
    List.isChain_iff_pairwise.mp (chain_worlds hfair w)
  obtain ⟨hfits, htotal⟩ := spent_uses hfair (spent_opened T start)
  refine ⟨fun c v => ?_, hpairwise.imp ?_, fun v hv => ?_, fun length ended m hmark => ?_,
    by rwa [zero_add] at htotal, fun c hc v hover => ?_⟩
  · obtain ⟨out, t, -, hperform, hlogged⟩ := c.rounds v
    rw [hperform, hlogged]
  · intro v v' honward
    rw [expired_iff, expired_iff, (told v).2, (told v').2]
    refine ⟨honward.over, ?_⟩
    rintro r r' ⟨⟩ ⟨⟩
    exact honward.left_le
  · have hmade : Onward w v := by
      obtain ⟨later, hlater⟩ := worlds_eq_cons uses w
      rw [hlater] at hpairwise hv
      rcases List.mem_cons.mp hv with rfl | hv
      · exact refl_of Onward _
      · exact List.rel_of_pairwise_cons hpairwise hv
    refine ⟨_, (told v).2, ?_, fun hcancelled => ?_⟩
    · rw [expired_iff]
      exact Deadline.left_eq_zero_iff.symm
    · have hstarted : v.deadline.started = s := hmade.started
      have htimeout : v.deadline.timeout = T := hmade.timeout
      rw [← hstarted, ← htimeout]
      exact Deadline.left_of_not_cancelled hcancelled
  · obtain ⟨hpos, hend⟩ := hfits length ended m hmark
    refine ⟨hpos, hend, ?_⟩
    rcases (World.sleep_moves hpos.le (Prod.mk.eta (p := _)).symm).2 with hnow | hnow
    · rw [hnow]
      linarith
    · rwa [hnow]
  · exact Call.once hc ((expired_iff v).mp hover)

/-- A condition that comes to hold with a number of looks. -/
def seenTimes (count : ℕ) : Act (Sharing ℕ) Bool := fun w =>
  .ok (decide (count ≤ w.node.1 + 1)) { w with node := (w.node.1 + 1, w.node.2) }

theorem onward_seenTimes (count : ℕ) : Keeps Onward (seenTimes count) := fun _ =>
  ⟨le_rfl, rfl, rfl, id⟩

/-- Three waits under five seconds: the first sleeps for four, and when half a second has passed,
the second has no more than the last half; the third only looks. -/
theorem waits_share_deadline_thrice :
    let third : Call ℕ := .check 60 2 (seenTimes 9)
    let uses : List (Use ℕ) := [.call (.check 1 2 (seenTimes 3)), .advance (1 / 2),
      .call (.check 60 2 (seenTimes 9)), .call third]
    let w := opened 5 { node := 0, clock := { now := 0 } }
    let v := (uses.take 3).foldl (fun w u => u.after w) w
    slept (allMarks uses w) = 9 / 2 ∧ slept (allMarks uses w) ≤ max 0 5 ∧
      ∃ found m, third.marks v = [.looked found m] := by
  intro third uses w v
  have hthird : ∀ (timeout : ℚ) (count : ℕ), (Call.check timeout 2 (seenTimes count)).Fair :=
    fun _ count => ⟨two_pos, onward_seenTimes count⟩
  have hfair : ∀ u ∈ uses, u.Fair := by
    simp only [uses, List.forall_mem_cons]
    exact ⟨hthird _ _, by norm_num [Use.Fair], hthird _ _, hthird _ _, by simp⟩
  obtain ⟨-, -, -, -, htotal, honce⟩ :=
    @waits_share_deadline _ uses hfair { node := 0, clock := { now := 0 } } 5
  exact ⟨by decide +kernel, htotal,
    honce third (hthird _ _) v ((expired_iff v).mpr (by decide +kernel))⟩

end Sharing

end Campaign
