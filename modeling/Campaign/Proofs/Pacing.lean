import Campaign.Node.Sequential
import Campaign.Proofs.Rational
import Campaign.Proofs.Walk
import Mathlib.Algebra.Order.BigOperators.Group.List

/-!
# How long a run sleeps

A run sleeps in its pauses and its barriers, and `Script.allowance` says how long each step may: a
pause its length, a barrier its timeout if that is above zero.  `Act.Paced` says of an action that
it sleeps no longer and no more often than given, and that the limit on sleeps does not matter to it
if there is room for those.  This passes from the parts of an action to the whole, so a run sleeps
no longer than all its steps may (`Script.paced_run`), and no part of it longer than its own steps
(`Walk.rests`).
-/

namespace Campaign

open Act

variable {σ ν α β : Type}

/-! ### Actions that sleep -/

namespace Act

section

variable {clock : σ → Clock ℚ} {limited : ℕ → σ → σ} {total more : ℚ} {count times : ℕ}

/-- **An action sleeps no longer and no more often than given**, on a clock that nothing interrupts.
If the limit on sleeps has room for that, any other with room for it does as well. -/
def Paced (clock : σ → Clock ℚ) (limited : ℕ → σ → σ) (total : ℚ) (count : ℕ) (act : Act σ α) :
    Prop :=
  ∀ s t out, act.runOn s = (out, t) → (clock s).Steady →
    Clock.Rests total count (clock s) (clock t) ∧
      ∀ limit, (clock s).Fits count → ((clock s).limited limit).Fits count →
        act.runOn (limited limit s) = (out, limited limit t)

/-- What leaves the clock alone and does not ask for the limit does not sleep. -/
theorem paced_of_ignores {act : Act σ α} (hclock : Keeps (fun s t => clock t = clock s) act)
    (hignores : ∀ limit, Ignores (limited limit) act) : Paced clock limited 0 0 act := by
  intro s t out h _
  have hsame : clock t = clock s := hclock.of_runOn h
  exact ⟨hsame ▸ Clock.Rests.refl _, fun limit _ _ => (hignores limit).of_runOn h⟩

theorem Paced.mono {act : Act σ α} (h : Paced clock limited total count act) (htotal : total ≤ more)
    (hcount : count ≤ times) : Paced clock limited more times act := by
  intro s t out hrun hsteady
  obtain ⟨hrests, hlimit⟩ := h s t out hrun hsteady
  refine ⟨hrests.mono htotal hcount, fun limit hfits hfits' => hlimit limit ?_ ?_⟩
  · exact hfits.trans' (Nat.add_le_add_left hcount _)
  · exact hfits'.trans' (Nat.add_le_add_left hcount _)

/-- What comes after may sleep in addition. -/
theorem paced_bind {act : Act σ α} {next : α → Act σ β} (h : Paced clock limited total count act)
    (hmore : 0 ≤ more) (hnext : ∀ a, Paced clock limited more times (next a)) :
    Paced clock limited (total + more) (count + times) (act >>= next) := by
  intro s t out hrun hsteady
  rcases bind_cases hrun with ⟨a, m, ha, hn⟩ | ⟨f, hf, rfl⟩
  · obtain ⟨hfirst, hlimit⟩ := h s m _ ha hsteady
    obtain ⟨hrest, hlimit'⟩ := hnext a m t out hn (hfirst.steady hsteady)
    refine ⟨hfirst.trans hrest, fun limit hfits hfits' => ?_⟩
    rw [runOn_bind_ok (hlimit limit (hfits.trans' (by omega)) (hfits'.trans' (by omega)))]
    exact hlimit' limit (hfirst.fits hfits) (hfirst.fits_limited hfits')
  · obtain ⟨hfirst, hlimit⟩ := h s t _ hf hsteady
    refine ⟨hfirst.mono (by linarith) (Nat.le_add_right _ _), fun limit hfits hfits' => ?_⟩
    exact runOn_bind_error (hlimit limit (hfits.trans' (by omega)) (hfits'.trans' (by omega)))

theorem paced_after {act : Act σ α} {next : α → Act σ β} (h : Paced clock limited 0 0 act)
    (htotal : 0 ≤ total) (hnext : ∀ a, Paced clock limited total count (next a)) :
    Paced clock limited total count (act >>= next) := by
  have hboth := paced_bind h htotal hnext
  rwa [zero_add, Nat.zero_add] at hboth

theorem paced_before {act : Act σ α} {next : α → Act σ β}
    (h : Paced clock limited total count act) (hnext : ∀ a, Paced clock limited 0 0 (next a)) :
    Paced clock limited total count (act >>= next) := by
  have hboth := paced_bind h le_rfl hnext
  rwa [add_zero, Nat.add_zero] at hboth

theorem paced_attempt {act : Act σ α} (h : Paced clock limited total count act) :
    Paced clock limited total count act.attempt := by
  intro s t out hrun hsteady
  rcases hact : act.runOn s with ⟨r, m⟩
  rw [runOn_attempt, hact] at hrun
  obtain ⟨rfl, rfl⟩ := Prod.mk.inj hrun
  obtain ⟨hrests, hlimit⟩ := h s m r hact hsteady
  refine ⟨hrests, fun limit hfits hfits' => ?_⟩
  rw [runOn_attempt, hlimit limit hfits hfits']

theorem paced_ite {p : Prop} [Decidable p] {yes no : Act σ α}
    (hyes : Paced clock limited total count yes) (hno : Paced clock limited total count no) :
    Paced clock limited total count (if p then yes else no) := by
  split
  · exact hyes
  · exact hno

end

end Act

/-! ### Submissions do not sleep -/

namespace World

theorem sameClock_call (act : ℚ → Act ν α) (event : Except Fault α → Event ℚ) :
    Keeps SameClock (call act event) := fun w => by
  rw [runOn_call]
  exact rfl

end World

theorem Client.sameClock_hasReached (node : Node ν ℚ) (a : String) (target : Int) :
    Keeps World.SameClock (hasReached node a target) :=
  keeps_bind (keeps_bind (World.sameClock_call _ _) fun _ => keeps_ofExcept _) fun _ =>
    keeps_ofExcept _

namespace Session

/-- The sessions before and after have the same clock. -/
def SameClock (s t : Session ν ℚ) : Prop := t.world.clock = s.world.clock

instance : IsPreorder (Session ν ℚ) SameClock where
  refl _ := rfl
  trans _ _ _ h g := g.trans h

theorem sameClock_inWorld {act : Act (World ν ℚ) α} (h : Keeps World.SameClock act) :
    Keeps SameClock (inWorld act) :=
  keeps_within fun s => h s.world

/-- The session with another limit on its sleeps. -/
def limited (limit : ℕ) (s : Session ν ℚ) : Session ν ℚ :=
  { s with world := s.world.limited limit }

theorem recast_limited (limit : ℕ) :
    recast (ν := ν) (Clock.limited limit) [] = limited limit := by
  funext s
  rw [recast, World.recast_limited]
  rfl

end Session

namespace Script

open Session

variable {script : Script ν ℚ}

theorem sameClock_ensureTracked (a : String) : Keeps SameClock (script.ensureTracked a) := by
  refine keeps_of fun s t out h => ?_
  rcases ensureTracked_cases h with ⟨-, -, rfl⟩ | ⟨-, r, hstart, -⟩
  · rfl
  · obtain ⟨answer, n, -, ⟨v, -, -, rfl⟩ | ⟨f, -, -, rfl⟩⟩ := startTracking_cases hstart <;> rfl

theorem sameClock_composeCall (x : Submit) (params : Value) :
    Keeps World.SameClock (script.composeCall x params) := by
  have hcompose : ∀ pallet function fields : Value,
      Keeps World.SameClock (Client.compose script.node pallet function fields) := by
    intro pallet function fields
    rw [Client.compose]
    exact World.sameClock_call _ _
  exact keeps_bind (hcompose _ _ _) fun _ => keeps_ite (hcompose _ _ _) (keeps_pure _)

theorem sameClock_prepare (x : Submit) : Keeps SameClock (script.prepare x) := by
  refine keeps_bind (keeps_ofExcept _) fun a => ?_
  refine keeps_bind (sameClock_ensureTracked a) fun _ => ?_
  refine keeps_bind keeps_get fun _ => ?_
  refine keeps_bind (keeps_ofExcept _) fun params => ?_
  refine keeps_bind (sameClock_inWorld (sameClock_composeCall x params)) fun call => ?_
  refine keeps_bind (keeps_bind keeps_get fun _ => keeps_ofExcept _) fun nonce => ?_
  exact keeps_bind (sameClock_inWorld fun _ => rfl) fun _ => keeps_pure _

/-- A submission does not sleep. -/
theorem sameClock_submit (x : Submit) : Keeps SameClock (script.submit x) := by
  refine keeps_of fun s t out h => ?_
  rw [submit_eq] at h
  rcases bind_cases h with ⟨e, m, hprep, hsend⟩ | ⟨_, hprep, -⟩
  · have hsame : SameClock s m := (sameClock_prepare x).of_runOn hprep
    rcases send_cases (prepare_ok hprep).2.1 hsend with ⟨f, n, -, -, rfl⟩ |
      ⟨n, -, ⟨f, n', -, -, rfl⟩ | ⟨hash, n', -, -, rfl⟩⟩ <;> exact hsame
  · exact (sameClock_prepare x).of_runOn hprep

end Script

/-! ### Waits -/

namespace World

/-- How long an action on a world sleeps. -/
abbrev Paced (total : ℚ) (count : ℕ) (act : Act (World ν ℚ) α) : Prop :=
  Act.Paced World.clock World.limited total count act

theorem paced_note (n : Notice ℚ) : Paced 0 0 (note (ν := ν) n) :=
  paced_of_ignores (fun _ => rfl) fun _ _ => rfl

theorem paced_sleep {length : ℚ} (hlength : 0 ≤ length) :
    Paced length 1 (sleep (ν := ν) length) := by
  intro w v out h hsteady
  have hlimited : ∀ limit, (w.limited limit).clock.Steady := fun _ => hsteady
  rw [runOn_sleep hsteady hlength] at h
  split at h
  · obtain ⟨rfl, rfl⟩ := Prod.mk.inj h
    refine ⟨(Clock.Rests.refl _).mono hlength (Nat.zero_le _), fun limit hfits _ => ?_⟩
    simp only [Clock.Fits] at hfits
    omega
  · obtain ⟨rfl, rfl⟩ := Prod.mk.inj h
    refine ⟨⟨[length], by simpa using hlength, by simp, by simp, rfl⟩, fun limit _ hfits' => ?_⟩
    rw [runOn_sleep (hlimited limit) hlength, if_neg]
    · rfl
    · simp only [Clock.Fits, limited, Clock.limited] at hfits' ⊢
      omega

/-- **A wait sleeps no longer than its timeout**, and once in an interval. -/
theorem paced_waitFor {timeout interval : ℚ} {holds : Act (World ν ℚ) Bool}
    (hinterval : 0 < interval) (hclock : Keeps SameClock holds)
    (hignores : ∀ limit, Ignores (limited limit) holds) :
    Paced (max 0 timeout) ⌈timeout / interval⌉₊ (waitFor timeout interval holds) := by
  intro w t out h hsteady
  have hloop := looks_waitFor hinterval hclock hsteady h
  have hnaps : naps interval (w.clock.now + timeout) w.clock = ⌈timeout / interval⌉₊ := by
    rw [naps, add_sub_cancel_left]
  have hrests := hloop.rests hinterval hclock
  rw [hnaps, add_sub_cancel_left] at hrests
  refine ⟨hrests, fun limit hfits hfits' => ?_⟩
  rw [← hnaps] at hfits hfits'
  exact (hloop.limited hinterval hclock (hignores limit) hfits hfits').waitFor hinterval hclock
    hsteady

end World

namespace Session

/-- How long an action on a session sleeps. -/
abbrev Paced (total : ℚ) (count : ℕ) (act : Act (Session ν ℚ) α) : Prop :=
  Act.Paced (fun s => s.world.clock) Session.limited total count act

theorem paced_inWorld {total : ℚ} {count : ℕ} {act : Act (World ν ℚ) α}
    (h : World.Paced total count act) : Paced total count (inWorld act) := by
  intro s t out hrun hsteady
  rcases hact : act.runOn s.world with ⟨r, w⟩
  rw [runOn_inWorld, hact] at hrun
  obtain ⟨rfl, rfl⟩ := Prod.mk.inj hrun
  obtain ⟨hrests, hlimit⟩ := h s.world w r hact hsteady
  refine ⟨hrests, fun limit hfits hfits' => ?_⟩
  rw [runOn_inWorld, show (limited limit s).world = s.world.limited limit from rfl,
    hlimit limit hfits hfits']
  rfl

/-- What leaves the clock alone and asks it for the time alone does not sleep. -/
theorem paced_of_recast {act : Act (Session ν ℚ) α} (hclock : Keeps SameClock act)
    (hignores : ∀ f : Clock ℚ → Clock ℚ, (∀ c, (f c).now = c.now) → Ignores (recast f []) act) :
    Paced 0 0 act := by
  refine paced_of_ignores hclock fun limit => ?_
  rw [← recast_limited]
  exact hignores _ fun _ => rfl

theorem paced_ofExcept (r : Except Fault α) : Paced 0 0 (Act.ofExcept r : Act (Session ν ℚ) α) :=
  paced_of_ignores (keeps_ofExcept (R := SameClock) r) fun _ => ignores_ofExcept r

theorem paced_pure (a : α) : Paced 0 0 (pure a : Act (Session ν ℚ) α) :=
  paced_of_ignores (keeps_pure (R := SameClock) a) fun _ => ignores_pure a

theorem paced_throw (f : Fault) : Paced 0 0 (throw f : Act (Session ν ℚ) α) :=
  paced_of_ignores (keeps_throw (R := SameClock) f) fun _ => ignores_throw f

theorem paced_note (n : Notice ℚ) : Paced (ν := ν) 0 0 (inWorld (World.note n)) :=
  paced_inWorld (World.paced_note n)

end Session

namespace Script

open Session

variable {script : Script ν ℚ}

/-- How long a barrier may wait. -/
def patience (script : Script ν ℚ) (b : Barrier ℚ) : ℚ := b.timeout.getD script.barrierTimeout

/-- How long a step may sleep. -/
def allowance (script : Script ν ℚ) : Step ℚ → ℚ
  | .pause length => length
  | .barrier b => max 0 (script.patience b)
  | .submit _ | .other _ => 0

/-- How often a step may sleep. -/
def rounds (script : Script ν ℚ) : Step ℚ → ℕ
  | .pause _ => 1
  | .barrier b => ⌈script.patience b / script.pollInterval⌉₊
  | .submit _ | .other _ => 0

theorem paced_waitOn (hinterval : 0 < script.pollInterval) (b : Barrier ℚ) (a : String)
    (target : Int) : World.Paced (script.allowance (.barrier b)) (script.rounds (.barrier b))
      (script.waitOn b a target) := by
  have hignores : ∀ limit,
      Ignores (World.limited limit) (Client.hasReached script.node a target) := by
    intro limit
    rw [← World.recast_limited]
    exact Client.ignores_hasReached (f := Clock.limited limit) (fun _ => rfl) a target
  refine paced_after (World.paced_note _) (le_max_left _ _) fun _ => ?_
  have hclock := Client.sameClock_hasReached script.node a target
  refine paced_before (World.paced_waitFor hinterval hclock hignores) fun _ => ?_
  exact paced_before (World.paced_note _) fun _ =>
    paced_of_ignores (keeps_pure (R := World.SameClock) _) fun _ => ignores_pure _

theorem waitOn_eq (b : Barrier ℚ) (a : String) (target : Int) : script.waitOn b a target = (do
    World.note (.waiting (.int target) (.text a) (script.patience b))
    let ok ← World.waitFor (script.patience b) script.pollInterval
      (Client.hasReached script.node a target)
    World.note (if ok then .reached (.int target) (.text a)
      else .timedOut (script.patience b) (.int target) (.text a))
    return ok) := rfl

/-- A barrier that has time for its sleeps fails no more than its looks do. -/
theorem waitOn_ok (hinterval : 0 < script.pollInterval) {b : Barrier ℚ} {a : String} {target : Int}
    {w v : World ν ℚ} {out : Except Fault Bool} (hsteady : w.clock.Steady)
    (hfits : w.clock.Fits (script.rounds (.barrier b)))
    (hlook : ∀ w, ∃ found, ((Client.hasReached script.node a target).runOn w).1 = .ok found)
    (h : (script.waitOn b a target).runOn w = (out, v)) : ∃ reached, out = .ok reached := by
  rw [waitOn_eq, runOn_bind_ok (World.runOn_note _ w)] at h
  rcases bind_cases h with ⟨reached, k, -, h⟩ | ⟨f, hwait, -⟩
  · rw [runOn_bind_ok (World.runOn_note _ k)] at h
    exact ⟨reached, (Prod.mk.inj h).1.symm⟩
  · -- the loop would end well
    have hnoted : (w.noted (.waiting (.int target) (.text a) (script.patience b))).clock.Steady :=
      hsteady
    have hloop :=
      looks_waitFor hinterval (Client.sameClock_hasReached script.node a target) hnoted hwait
    have hnaps : naps script.pollInterval (w.clock.now + script.patience b) w.clock =
        script.rounds (.barrier b) := by
      rw [naps, add_sub_cancel_left]
      rfl
    obtain ⟨found, hfound⟩ :=
      hloop.ok hinterval (Client.sameClock_hasReached script.node a target) hlook
      (show w.clock.Fits _ from hnaps ▸ hfits)
    cases hfound

/-- **A barrier sleeps no longer than it may wait.** -/
theorem paced_wait (hinterval : 0 < script.pollInterval) (b : Barrier ℚ) :
    Paced (script.allowance (.barrier b)) (script.rounds (.barrier b)) (script.wait b) := by
  refine paced_after (paced_ofExcept _) (le_max_left _ _) fun a => ?_
  refine paced_after (paced_of_recast ?_ fun f _ => ignores_peekNonce _) (le_max_left _ _)
    fun target => ?_
  · exact keeps_bind keeps_get fun _ => keeps_ofExcept _
  · refine paced_before (paced_inWorld (paced_waitOn hinterval b a target)) fun reached => ?_
    exact paced_ite (paced_throw _) (paced_pure _)

/-! ### Steps and runs -/

/-- **A step sleeps no longer and no more often than it may.** -/
theorem paced_execute (hinterval : 0 < script.pollInterval) {step : Step ℚ}
    (hstep : 0 ≤ script.allowance step) :
    Paced (script.allowance step) (script.rounds step) (script.execute step) := by
  cases step with
  | submit x =>
    refine paced_before (paced_of_recast (sameClock_submit x) fun f hnow => ?_)
      fun _ => paced_pure _
    exact ignores_submit hnow x
  | barrier b => exact paced_before (paced_wait hinterval b) fun _ => paced_pure _
  | pause length =>
    refine paced_before (paced_inWorld ?_) fun _ => paced_pure _
    exact paced_after (World.paced_note _) hstep fun _ => World.paced_sleep hstep
  | other v => exact paced_throw _

variable {steps : List (Step ℚ)} {s t : Session ν ℚ}

theorem sum_allowance_nonneg (hsteps : ∀ step ∈ steps, 0 ≤ script.allowance step) :
    0 ≤ (steps.map script.allowance).sum :=
  List.sum_nonneg (by simpa using hsteps)

theorem paced_runSteps (hinterval : 0 < script.pollInterval) (phase : Phase ℚ) :
    ∀ (steps : List (Step ℚ)) (index : ℕ), (∀ step ∈ steps, 0 ≤ script.allowance step) →
      Paced (steps.map script.allowance).sum (steps.map script.rounds).sum
        (script.runSteps phase index steps) := by
  intro steps
  induction steps with
  | nil => exact fun _ _ => paced_pure _
  | cons step rest ih =>
    intro index hsteps
    have hrest : ∀ step ∈ rest, 0 ≤ script.allowance step := fun x hx => hsteps x (by simp [hx])
    have hfirst := paced_attempt (paced_execute hinterval (hsteps step (by simp)))
    refine paced_bind hfirst (sum_allowance_nonneg hrest) fun r => ?_
    cases r with
    | ok _ => exact ih (index + 1) hrest
    | error f =>
      have hfailed := paced_before (paced_note (ν := ν) (.phaseFailed phase.name index
        phase.steps.length step.text)) fun _ => paced_throw (α := Unit) f
      exact (paced_ite hfailed (paced_throw f)).mono (sum_allowance_nonneg hrest) (Nat.zero_le _)

theorem paced_runPhase (hinterval : 0 < script.pollInterval) {phase : Phase ℚ}
    (hsteps : ∀ step ∈ phase.steps, 0 ≤ script.allowance step) :
    Paced (phase.steps.map script.allowance).sum (phase.steps.map script.rounds).sum
      (script.runPhase phase) := by
  have hnonneg := sum_allowance_nonneg hsteps
  refine paced_after (paced_note _) hnonneg fun _ => ?_
  exact paced_before (paced_runSteps hinterval phase _ _ hsteps) fun _ => paced_note _

/-- **A run sleeps no longer and no more often than all its steps may.** -/
theorem paced_run (hinterval : 0 < script.pollInterval) : ∀ {phases : List (Phase ℚ)},
    (∀ step ∈ phases.flatMap Phase.steps, 0 ≤ script.allowance step) →
      Paced ((phases.flatMap Phase.steps).map script.allowance).sum
        ((phases.flatMap Phase.steps).map script.rounds).sum (script.run phases) := by
  intro phases
  induction phases with
  | nil =>
    exact fun _ => paced_of_recast (keeps_bind keeps_get fun _ => keeps_pure _) fun _ _ =>
      ignores_get_bind (fun _ => rfl) fun _ => ignores_pure _
  | cons phase rest ih =>
    intro hsteps
    simp only [List.flatMap_cons, List.map_append, List.sum_append]
    have hfirst : ∀ step ∈ phase.steps, 0 ≤ script.allowance step :=
      fun x hx => hsteps x (by simp [hx])
    have hrest : ∀ step ∈ rest.flatMap Phase.steps, 0 ≤ script.allowance step :=
      fun x hx => hsteps x (by rw [List.flatMap_cons]; exact List.mem_append_right _ hx)
    exact paced_bind (paced_runPhase hinterval hfirst) (sum_allowance_nonneg hrest)
      fun _ => ih hrest

/-- Pauses alone could be below zero. -/
theorem allowance_nonneg (hpauses : ∀ length, .pause length ∈ steps → 0 ≤ length) :
    ∀ step ∈ steps, 0 ≤ script.allowance step := by
  intro step hstep
  cases step with
  | pause length => exact hpauses length hstep
  | barrier b => exact le_max_left _ _
  | submit x => exact le_rfl
  | other v => exact le_rfl

/-- **A walk sleeps no longer and no more often than all its steps may.** -/
theorem Walk.rests (hinterval : 0 < script.pollInterval) {out : Except Fault Unit}
    (h : Walk script steps s out t) (hsteady : s.world.clock.Steady)
    (hsteps : ∀ step ∈ steps, 0 ≤ script.allowance step) :
    Clock.Rests (steps.map script.allowance).sum (steps.map script.rounds).sum s.world.clock
      t.world.clock := by
  induction h with
  | done => exact Clock.Rests.refl _
  | mark hn _ ih => exact ih hsteady hsteps
  | @step step steps s m t r out hstep _ ih =>
    have hfirst := (paced_execute hinterval (hsteps step (by simp)) s m _ hstep hsteady).1
    exact hfirst.trans (ih (hfirst.steady hsteady) fun x hx => hsteps x (by simp [hx]))
  | @stop step steps s m t f hstep ht =>
    have hclock : t.world.clock = m.world.clock := by rcases ht with rfl | ⟨n, -, rfl⟩ <;> rfl
    have hfirst := (paced_execute hinterval (hsteps step (by simp)) s m _ hstep hsteady).1
    rw [hclock, List.map_cons, List.sum_cons, List.map_cons, List.sum_cons]
    refine hfirst.mono (le_add_of_nonneg_right ?_) (Nat.le_add_right _ _)
    exact sum_allowance_nonneg fun x hx => hsteps x (by simp [hx])

/-- **Runs are bounded in time.**  On a clock that is moved by sleeping alone and interrupts
nothing, with a poll interval above zero and no pause below zero, whatever the node does: a run
sleeps no longer than all its pauses and, for each barrier, its timeout if that is above zero.  The
same holds of the part of the run up to any of its steps and of the part after it.  The sleeps are
no more than can be told beforehand, and a limit that has room for them does not matter to the run:
it ends by itself. -/
theorem runs_are_bounded_in_time (hinterval : 0 < script.pollInterval) {phases : List (Phase ℚ)}
    (hpauses : ∀ length, .pause length ∈ phases.flatMap Phase.steps → 0 ≤ length)
    (hsteady : s.world.clock.Steady) {out : Except Fault (List Sent)}
    (h : (script.run phases).runOn s = (out, t)) :
    Clock.Rests ((phases.flatMap Phase.steps).map script.allowance).sum
        ((phases.flatMap Phase.steps).map script.rounds).sum s.world.clock t.world.clock ∧
      (∀ before after, phases.flatMap Phase.steps = before ++ after →
        (∃ m, Walk script before s (.ok ()) m ∧ Walk script after m (out.map fun _ => ()) t ∧
          Clock.Rests (before.map script.allowance).sum (before.map script.rounds).sum
            s.world.clock m.world.clock ∧
          Clock.Rests (after.map script.allowance).sum (after.map script.rounds).sum
            m.world.clock t.world.clock) ∨
        ∃ f, out = .error f ∧ Walk script before s (.error f) t ∧
          Clock.Rests (before.map script.allowance).sum (before.map script.rounds).sum
            s.world.clock t.world.clock) ∧
      (s.world.clock.Fits ((phases.flatMap Phase.steps).map script.rounds).sum →
        ∀ limit, (s.world.clock.limited limit).Fits
            ((phases.flatMap Phase.steps).map script.rounds).sum →
          (script.run phases).runOn (s.limited limit) = (out, t.limited limit)) := by
  have hsteps : ∀ step ∈ phases.flatMap Phase.steps, 0 ≤ script.allowance step :=
    allowance_nonneg hpauses
  obtain ⟨hrests, hlimit⟩ := paced_run hinterval hsteps s t out h hsteady
  refine ⟨hrests, fun before after hsplit => ?_,
    fun hfits limit hfits' => hlimit limit hfits hfits'⟩
  have hwalk := walk_run h
  rw [hsplit] at hwalk hsteps
  have hbefore : ∀ step ∈ before, 0 ≤ script.allowance step :=
    fun step hstep => hsteps step (List.mem_append_left _ hstep)
  have hafter : ∀ step ∈ after, 0 ≤ script.allowance step :=
    fun step hstep => hsteps step (List.mem_append_right _ hstep)
  rcases hwalk.append_cases with ⟨m, hfirst, hrest⟩ | ⟨f, hf, hfirst⟩
  · have hm := hfirst.rests hinterval hsteady hbefore
    exact Or.inl ⟨m, hfirst, hrest, hm, hrest.rests hinterval (hm.steady hsteady) hafter⟩
  · cases out with
    | ok sent => cases hf
    | error g =>
      exact Or.inr ⟨f, congrArg _ (Except.error.inj hf), hfirst,
        hfirst.rests hinterval hsteady hbefore⟩

/-- A script that polls once in three quarters of a second, on a node that includes late. -/
def patient : Script Sequential.State ℚ where
  node := Sequential.node { includeAfter := 9 }
  accounts := ⟨[("root", ⟨"a", true⟩)]⟩
  barrierTimeout := 1
  pollInterval := 3 / 4

set_option maxRecDepth 10000 in
/-- A barrier in vain, a pause, and a strict barrier with a timeout of zero, which ends the run: two
seconds are slept. -/
theorem runs_are_bounded_in_time_patient :
    let s : Session Sequential.State ℚ := .fresh (.ofNonces ⟨[("a", 5)]⟩) { now := 10 }
    let steps : List (Step ℚ) := [.submit ⟨"root", "System", "remark", .absent, .null⟩,
      .barrier ⟨"root", none, .null⟩, .pause 1, .barrier ⟨"root", some 0, .bool true⟩, .pause 7]
    let run := (patient.run [⟨"one", steps⟩]).runOn s
    run.1.isOk = false ∧ run.2.world.clock.slept = [1, 1 / 4, 3 / 4] ∧
      Clock.Rests 9 4 s.world.clock run.2.world.clock ∧
      (patient.run [⟨"one", steps⟩]).runOn (s.limited 4) = (run.1, run.2.limited 4) := by
  intro s steps run
  have hpauses : ∀ length, .pause length ∈ [(⟨"one", steps⟩ : Phase ℚ)].flatMap Phase.steps →
      0 ≤ length := by
    simp [steps]
  have hinterval : 0 < patient.pollInterval := by norm_num [patient]
  have hrun : (patient.run [⟨"one", steps⟩]).runOn s = (run.1, run.2) := rfl
  have hsteady : s.world.clock.Steady := rfl
  obtain ⟨hrests, -, hlimit⟩ := runs_are_bounded_in_time hinterval hpauses hsteady hrun
  have hallowance : (([(⟨"one", steps⟩ : Phase ℚ)].flatMap Phase.steps).map
      patient.allowance).sum = 9 := by decide +kernel
  have hrounds : (([(⟨"one", steps⟩ : Phase ℚ)].flatMap Phase.steps).map
      patient.rounds).sum = 4 := by decide +kernel
  rw [hallowance, hrounds] at hrests
  rw [hrounds] at hlimit
  refine ⟨by decide +kernel, by decide +kernel, hrests, hlimit ?_ 4 ?_⟩
  · show 0 + 4 ≤ 5000
    omega
  · show 0 + 4 ≤ 4
    omega

end Script

end Campaign
