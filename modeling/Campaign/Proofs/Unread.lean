import Campaign.Proofs.Steps

/-!
# What a step does not read

The journal is written and never read, and of the clock it is only the time that anything but a
sleep asks for.  `Act.Ignores φ act` says so of an action and a change `φ` of the state: the action
ends in the same way with and without the change, and leaves the changed state.  This passes from
the parts of an action to the whole.

`World.recast f base` is the change in question: another clock of the same time, and a history that
goes further back.  Submissions ignore it (`Script.ignores_submit`), and if the clock stays as it
is, so do all steps (`Script.ignores_execute`).
-/

namespace Campaign

variable {σ ρ ν τ α β : Type}

namespace Act

/-- An action does the same to a changed state, and the change stays. -/
def Ignores (φ : σ → σ) (act : Act σ α) : Prop :=
  ∀ s, act.runOn (φ s) = ((act.runOn s).1, φ (act.runOn s).2)

section

variable {φ : σ → σ}

theorem Ignores.of_runOn {act : Act σ α} (h : Ignores φ act) {s t : σ} {out : Except Fault α}
    (hrun : act.runOn s = (out, t)) : act.runOn (φ s) = (out, φ t) := by
  rw [h s, hrun]

theorem ignores_pure (a : α) : Ignores φ (pure a : Act σ α) := fun _ => rfl

theorem ignores_throw (f : Fault) : Ignores φ (throw f : Act σ α) := fun _ => rfl

theorem ignores_ofExcept (r : Except Fault α) : Ignores φ (ofExcept r : Act σ α) := fun s => by
  rw [runOn_ofExcept, runOn_ofExcept]

theorem ignores_bind {act : Act σ α} {next : α → Act σ β} (h : Ignores φ act)
    (hnext : ∀ a, Ignores φ (next a)) : Ignores φ (act >>= next) := by
  intro s
  rcases hact : act.runOn s with ⟨f | a, t⟩
  · rw [runOn_bind_error hact, runOn_bind_error (h.of_runOn hact)]
  · rw [runOn_bind_ok hact, runOn_bind_ok (h.of_runOn hact)]
    exact hnext a t

/-- What is taken from the state may be anything that the change leaves alone. -/
theorem ignores_get_bind {next : σ → Act σ α} (hsame : ∀ s, next (φ s) = next s)
    (hnext : ∀ s, Ignores φ (next s)) : Ignores φ (get >>= next) := by
  intro s
  rw [runOn_bind_ok (runOn_get _), runOn_bind_ok (runOn_get _), hsame]
  exact hnext s s

theorem ignores_modify {g : σ → σ} (h : ∀ s, g (φ s) = φ (g s)) :
    Ignores φ (modify g : Act σ Unit) := fun s => by
  rw [runOn_modify, runOn_modify, h]

theorem ignores_ite {p : Prop} [Decidable p] {yes no : Act σ α} (hyes : Ignores φ yes)
    (hno : Ignores φ no) : Ignores φ (if p then yes else no) := by
  split
  · exact hyes
  · exact hno

theorem ignores_attempt {act : Act σ α} (h : Ignores φ act) : Ignores φ act.attempt := fun s => by
  rw [runOn_attempt, runOn_attempt, h s]

/-- An action on a part ignores a change of the whole that it ignores as a change of the part. -/
theorem ignores_within {ψ : ρ → ρ} {get : σ → ρ} {put : ρ → σ → σ} {act : Act ρ α}
    (hget : ∀ s, get (φ s) = ψ (get s)) (hput : ∀ r s, put (ψ r) (φ s) = φ (put r s))
    (h : Ignores ψ act) : Ignores φ (within get put act) := fun s => by
  rw [runOn_within, runOn_within, hget, h (get s), hput]

end

end Act

open Act

namespace Timer

variable [Seconds τ] {timer : Timer σ τ} {deadline : σ → Deadline τ} {φ : σ → σ}

theorem ignores_expired (hread : ∀ s, timer.read (φ s) = ((timer.read s).1, φ (timer.read s).2))
    (hdeadline : ∀ s, deadline (φ s) = deadline s) : Ignores φ (timer.expired deadline) := by
  intro s
  simp only [expired, runOn, hdeadline, hread]
  cases (deadline s).cancelled
  · cases (deadline s).expired (timer.read s).1 <;> rfl
  · rfl

theorem ignores_remaining (hread : ∀ s, timer.read (φ s) = ((timer.read s).1, φ (timer.read s).2))
    (hdeadline : ∀ s, deadline (φ s) = deadline s) : Ignores φ (timer.remaining deadline) := by
  intro s
  simp only [remaining, runOn, hdeadline, hread]
  cases (deadline s).cancelled
  · cases (deadline s).remaining (timer.read s).1 <;> rfl
  · rfl

/-- A loop of looks ignores what its looks and sleeps ignore. -/
theorem ignores_poll {interval : τ} {holds : Act σ Bool} (hholds : Ignores φ holds)
    (hread : ∀ s, timer.read (φ s) = ((timer.read s).1, φ (timer.read s).2))
    (hdeadline : ∀ s, deadline (φ s) = deadline s)
    (hsleep : ∀ length, Ignores φ (timer.sleep length)) :
    ∀ fuel, Ignores φ (timer.poll deadline interval holds fuel) := by
  intro fuel
  induction fuel with
  | zero => exact ignores_throw _
  | succ fuel ih =>
    refine ignores_bind hholds fun held => ignores_ite (ignores_pure _) ?_
    refine ignores_bind (ignores_expired hread hdeadline) fun e => ignores_ite (ignores_pure _) ?_
    refine ignores_bind (ignores_remaining hread hdeadline) fun l => ?_
    exact ignores_bind (ignores_ofExcept _) fun l' => ignores_bind (hsleep l') fun _ => ih

end Timer

/-! ### Worlds -/

namespace World

variable {f : Clock τ → Clock τ} {base : History τ}

/-- The world with a clock put through a function, and with a history before its own. -/
def recast (f : Clock τ → Clock τ) (base : History τ) (w : World ν τ) : World ν τ :=
  { w with clock := f w.clock, journal := w.journal ++ base }

theorem ignores_note (n : Notice τ) : Ignores (recast (ν := ν) f base) (note n) := fun _ => rfl

theorem ignores_call (hnow : ∀ c, (f c).now = c.now) (act : τ → Act ν α)
    (event : Except Fault α → Event τ) : Ignores (recast f base) (call act event) := by
  intro w
  rw [runOn_call, runOn_call]
  simp only [recast, hnow, after]
  rfl

end World

namespace Client

variable {f : Clock τ → Clock τ} {base : History τ} {node : Node ν τ}

theorem ignores_accountNonce (hnow : ∀ c, (f c).now = c.now) (address : Value) :
    Ignores (World.recast f base) (accountNonce node address) :=
  ignores_bind (World.ignores_call hnow _ _) fun _ => ignores_ofExcept _

theorem ignores_compose (hnow : ∀ c, (f c).now = c.now) (pallet function params : Value) :
    Ignores (World.recast f base) (compose node pallet function params) := by
  rw [compose]
  exact World.ignores_call hnow _ _

theorem ignores_submit (hnow : ∀ c, (f c).now = c.now) (e : Extrinsic) :
    Ignores (World.recast f base) (submit node e) := by
  refine ignores_bind (World.ignores_call hnow _ _) fun _ => ?_
  refine ignores_bind (ignores_attempt (World.ignores_call hnow _ _)) fun answer => ?_
  cases answer with
  | ok hash => exact ignores_bind (World.ignores_note _) fun _ => ignores_pure _
  | error fault => exact ignores_throw _

/-- A look at a nonce asks for the time alone. -/
theorem ignores_hasReached (hnow : ∀ c, (f c).now = c.now) (a : String) (target : Int) :
    Ignores (World.recast f base) (hasReached node a target) :=
  ignores_bind (ignores_accountNonce hnow _) fun _ => ignores_ofExcept _

end Client

/-! ### Sessions -/

namespace Session

variable {f : Clock τ → Clock τ} {base : History τ} {node : Node ν τ}

/-- The session with its world recast. -/
def recast (f : Clock τ → Clock τ) (base : History τ) (s : Session ν τ) : Session ν τ :=
  { s with world := s.world.recast f base }

theorem ignores_inWorld {act : Act (World ν τ) α} (h : Ignores (World.recast f base) act) :
    Ignores (recast f base) (inWorld act) :=
  ignores_within (fun _ => rfl) (fun _ _ => rfl) h

theorem ignores_track (a : Value) (n : Int) :
    Ignores (recast (ν := ν) f base) (track a n) :=
  ignores_bind (ignores_ofExcept _) fun _ => ignores_modify fun _ => rfl

theorem ignores_peekNonce (a : Value) : Ignores (recast (ν := ν) f base) (peekNonce a) :=
  ignores_get_bind (fun _ => rfl) fun _ => ignores_ofExcept _

theorem ignores_takeNonce (a : Value) : Ignores (recast (ν := ν) f base) (takeNonce a) :=
  ignores_bind (ignores_peekNonce a) fun _ =>
    ignores_bind (ignores_track a _) fun _ => ignores_pure _

theorem ignores_startTracking (hnow : ∀ c, (f c).now = c.now) (a : Value) :
    Ignores (recast f base) (startTracking node a) := by
  refine ignores_bind (ignores_inWorld (Client.ignores_accountNonce hnow a)) fun n => ?_
  refine ignores_bind (ignores_track a n) fun _ => ?_
  exact ignores_bind (ignores_inWorld (World.ignores_note _)) fun _ => ignores_pure _

end Session

namespace Script

open Session

variable {script : Script ν τ} {f : Clock τ → Clock τ} {base : History τ}

theorem ignores_ensureTracked (hnow : ∀ c, (f c).now = c.now) (a : String) :
    Ignores (recast f base) (script.ensureTracked a) := by
  refine ignores_get_bind (fun _ => rfl) fun _ => ignores_ite (ignores_pure _) ?_
  exact ignores_bind (ignores_startTracking hnow _) fun _ => ignores_pure _

theorem ignores_composeCall (hnow : ∀ c, (f c).now = c.now) (x : Submit) (params : Value) :
    Ignores (World.recast f base) (script.composeCall x params) :=
  ignores_bind (Client.ignores_compose hnow _ _ _) fun _ =>
    ignores_ite (Client.ignores_compose hnow _ _ _) (ignores_pure _)

theorem ignores_startRoles (hnow : ∀ c, (f c).now = c.now) : ∀ (roles : List Value)
    (started : Table Value Int), Ignores (recast f base) (script.startRoles started roles)
  | [], _ => ignores_pure _
  | role :: rest, started => by
    refine ignores_bind ?_ fun _ => ignores_startRoles hnow rest _
    refine ignores_bind (ignores_ofExcept _) fun _ => ?_
    refine ignores_bind (ignores_startTracking hnow _) fun _ => ?_
    exact ignores_bind (ignores_inWorld (World.ignores_note _)) fun _ => ignores_pure _

/-- **A submission asks the clock for the time alone**, and reads no history. -/
theorem ignores_submit (hnow : ∀ c, (f c).now = c.now) (x : Submit) :
    Ignores (recast f base) (script.submit x) := by
  refine ignores_bind (ignores_ofExcept _) fun a => ?_
  refine ignores_bind (ignores_ensureTracked hnow a) fun _ => ?_
  refine ignores_get_bind (fun _ => rfl) fun _ => ?_
  refine ignores_bind (ignores_ofExcept _) fun params => ?_
  refine ignores_bind (ignores_inWorld (ignores_composeCall hnow x params)) fun call => ?_
  refine ignores_bind (ignores_peekNonce _) fun nonce => ?_
  refine ignores_bind (ignores_inWorld (World.ignores_note _)) fun _ => ?_
  refine ignores_bind (ignores_inWorld (Client.ignores_submit hnow _)) fun hash => ?_
  refine ignores_bind (ignores_takeNonce _) fun _ => ?_
  exact ignores_bind (ignores_modify fun _ => rfl) fun _ => ignores_pure _

section

variable [Seconds τ]

theorem ignores_sleep (length : τ) :
    Ignores (World.recast (ν := ν) id base) (World.sleep length) := fun _ => by
  rw [World.sleep, runOn_within, runOn_within]
  rfl

theorem ignores_waitOn (b : Barrier τ) (a : String) (target : Int) :
    Ignores (World.recast id base) (script.waitOn b a target) := by
  refine ignores_bind (World.ignores_note _) fun _ => ?_
  refine ignores_bind ?_ fun _ => ignores_bind (World.ignores_note _) fun _ => ignores_pure _
  intro w
  exact Timer.ignores_poll (Client.ignores_hasReached (fun _ => rfl) a target) (fun _ => rfl)
    (fun _ => rfl) ignores_sleep _ w

theorem ignores_wait (b : Barrier τ) : Ignores (recast id base) (script.wait b) := by
  refine ignores_bind (ignores_ofExcept _) fun a => ?_
  refine ignores_bind (ignores_peekNonce _) fun target => ?_
  refine ignores_bind (ignores_inWorld (ignores_waitOn b a target)) fun reached => ?_
  exact ignores_ite (ignores_throw _) (ignores_pure _)

/-- **No step reads the history.** -/
theorem ignores_execute (step : Step τ) : Ignores (recast id base) (script.execute step) := by
  cases step with
  | submit x => exact ignores_bind (ignores_submit (fun _ => rfl) x) fun _ => ignores_pure _
  | barrier b => exact ignores_bind (ignores_wait b) fun _ => ignores_pure _
  | pause length =>
    refine ignores_bind (ignores_inWorld ?_) fun _ => ignores_pure _
    exact ignores_bind (World.ignores_note _) fun _ => ignores_sleep length
  | other v => exact ignores_throw _

theorem ignores_runSteps (phase : Phase τ) : ∀ (steps : List (Step τ)) (index : Nat),
    Ignores (recast id base) (script.runSteps phase index steps)
  | [], _ => ignores_pure ()
  | step :: rest, index => by
    refine ignores_bind (ignores_attempt (ignores_execute step)) fun answer => ?_
    cases answer with
    | ok _ => exact ignores_runSteps phase rest (index + 1)
    | error fault =>
      refine ignores_ite (ignores_bind ?_ fun _ => ignores_throw _) (ignores_throw _)
      exact ignores_inWorld (World.ignores_note _)

/-- **No run reads the history.** -/
theorem ignores_run : ∀ phases : List (Phase τ), Ignores (recast id base) (script.run phases)
  | [] => ignores_get_bind (fun _ => rfl) fun _ => ignores_pure _
  | phase :: rest => by
    refine ignores_bind ?_ fun _ => ignores_run rest
    refine ignores_bind (ignores_inWorld (World.ignores_note _)) fun _ => ?_
    refine ignores_bind (ignores_runSteps phase _ 1) fun _ => ?_
    exact ignores_inWorld (World.ignores_note _)

end

end Script

end Campaign
