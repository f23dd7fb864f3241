import Campaign.Proofs.Steps

/-!
# What a run adds to its history

A history only grows.  `Session.Adds P` says that everything it has grown by is in `P`, and each
operation is bounded by the kind of events that it may add: a barrier watches its account
(`Event.Watches`), starting roles hands nothing in and announces nothing (`Event.Quiet`), preparing
an extrinsic announces it under its own role (`Event.Leads`), and so does all of a submission
(`Event.Under`).

The last part is about failure.  A run meets at most one extrinsic that is not taken, and with it
the run ends (`StopsAtRefusal`): what comes after is a notice that the phase has failed.
-/

namespace Campaign

open Act

variable {ν τ α β : Type}

namespace Event

/-- The extrinsic that the node has not taken, and why. -/
def refused? : Event τ → Option (Extrinsic × Fault)
  | .submitted e (.error f) => some (e, f)
  | _ => none

/-- A notice that a phase has failed. -/
def IsPhaseFailure (x : Event τ) : Prop :=
  ∃ name index count step, x = .noticed (.phaseFailed name index count step)

/-- A look at the nonce of an address, or a notice that announces and tracks nothing. -/
def Watches (a : String) (x : Event τ) : Prop :=
  (∃ answer, x = .look a answer) ∨ ∃ n : Notice τ, x = .noticed n ∧ n.IsPlain

/-- Nothing is signed, handed in or announced. -/
def Quiet (x : Event τ) : Prop := x.attempt? = none ∧ x.sender? = none

/-- Nothing is signed or handed in, and what is announced is announced under a role. -/
def Leads (role : Value) (x : Event τ) : Prop :=
  x.attempt? = none ∧ ∀ r, x.sender? = some r → r = role

/-- What is announced is announced under a role. -/
def Under (role : Value) (x : Event τ) : Prop := ∀ r, x.sender? = some r → r = role

variable {x : Event τ}

theorem Watches.quiet {a : String} (h : x.Watches a) : x.Quiet := by
  rcases h with ⟨answer, rfl⟩ | ⟨n, rfl, hplain⟩
  · exact ⟨rfl, rfl⟩
  · exact ⟨rfl, hplain.1⟩

theorem Quiet.leads (h : x.Quiet) (role : Value) : x.Leads role :=
  ⟨h.1, fun r hr => by rw [h.2] at hr; cases hr⟩

theorem refused?_of_attempt? (h : x.attempt? = none) : x.refused? = none := by
  cases x <;> first | rfl | cases h

end Event

/-! ### Growth -/

namespace History

/-- A history goes on with events of one kind. -/
def Grows (P : Event τ → Prop) (h g : History τ) : Prop := ∃ new, g = new ++ h ∧ ∀ x ∈ new, P x

variable {P Q : Event τ → Prop} {h g : History τ}

instance : IsPreorder (History τ) (Grows P) where
  refl h := ⟨[], rfl, by simp⟩
  trans := by
    rintro h _ _ ⟨new, rfl, hnew⟩ ⟨more, rfl, hmore⟩
    refine ⟨more ++ new, (List.append_assoc ..).symm, fun x hx => ?_⟩
    rcases List.mem_append.mp hx with hx | hx
    · exact hmore x hx
    · exact hnew x hx

theorem grows_cons (x : Event τ) (hx : P x) : Grows P h (x :: h) :=
  ⟨[x], rfl, fun y hy => by rwa [List.mem_singleton.mp hy]⟩

theorem Grows.mono (hgrow : Grows P h g) (hPQ : ∀ x, P x → Q x) : Grows Q h g := by
  obtain ⟨new, rfl, hnew⟩ := hgrow
  exact ⟨new, rfl, fun x hx => hPQ x (hnew x hx)⟩

/-- An event that came after a history which has grown by one kind is of that kind. -/
theorem Grows.of_split (hgrow : Grows P h g) {later earlier : History τ} {x : Event τ}
    (hg : g = later ++ x :: earlier) (hafter : h <:+ earlier) : P x := by
  obtain ⟨new, rfl, hnew⟩ := hgrow
  obtain ⟨mid, rfl⟩ := hafter
  have hsplit : new = later ++ x :: mid := by
    rw [← List.cons_append, ← List.append_assoc] at hg
    exact List.append_cancel_right hg
  exact hnew x (by simp [hsplit])

theorem Grows.suffix (hgrow : Grows P h g) : h <:+ g := by
  obtain ⟨new, rfl, -⟩ := hgrow
  exact List.suffix_append new h

end History

/-- Everything that the history of a world has grown by is of one kind. -/
def World.Adds (P : Event τ → Prop) (w v : World ν τ) : Prop := History.Grows P w.journal v.journal

/-- Everything that the history of a session has grown by is of one kind. -/
def Session.Adds (P : Event τ → Prop) (s t : Session ν τ) : Prop := World.Adds P s.world t.world

section

variable {P Q : Event τ → Prop}

instance : IsPreorder (World ν τ) (World.Adds P) where
  refl w := refl_of (History.Grows P) w.journal
  trans _ _ _ h g := trans_of (History.Grows P) h g

instance : IsPreorder (Session ν τ) (Session.Adds P) where
  refl s := refl_of (World.Adds P) s.world
  trans _ _ _ h g := trans_of (World.Adds P) h g

theorem Session.Adds.mono {s t : Session ν τ} (h : Session.Adds P s t) (hPQ : ∀ x, P x → Q x) :
    Session.Adds Q s t := History.Grows.mono h hPQ

theorem Session.adds_after (s : Session ν τ) (n : ν) {x : Event τ} (h : P x) :
    Session.Adds P s (s.after n x) := History.grows_cons x h

theorem Session.adds_noted (s : Session ν τ) {n : Notice τ} (h : P (.noticed n)) :
    Session.Adds P s (s.noted n) := History.grows_cons _ h

theorem keeps_adds_mono {act : Act (Session ν τ) α} (h : Keeps (Session.Adds P) act)
    (hPQ : ∀ x, P x → Q x) : Keeps (Session.Adds Q) act := fun s => (h s).mono hPQ

theorem adds_inWorld {act : Act (World ν τ) α} (h : Keeps (World.Adds P) act) :
    Keeps (Session.Adds P) (Session.inWorld act) := keeps_within fun s => h s.world

/-! ### Kinds of additions -/

theorem adds_note {n : Notice τ} (h : P (.noticed n)) :
    Keeps (World.Adds P) (World.note (ν := ν) n) := fun _ => History.grows_cons _ h

theorem adds_sleep [Seconds τ] (length : τ) :
    Keeps (World.Adds P) (World.sleep (ν := ν) length) := by
  intro w
  obtain ⟨c, hc⟩ := World.sleep_clock length w
  rw [hc]
  exact refl_of (World.Adds P) w

theorem adds_compose (node : Node ν τ) (pallet function params : Value)
    (h : ∀ x answer, P (.composed pallet function x answer)) :
    Keeps (World.Adds P) (Client.compose node pallet function params) := by
  intro w
  rw [Client.compose, World.runOn_call]
  exact History.grows_cons _ (h _ _)

theorem adds_waitForNonce [Seconds τ] (node : Node ν τ) (a : String) (target : Int)
    (timeout interval : τ) :
    Keeps (World.Adds (Event.Watches a))
      (Client.waitForNonce node (.text a) (.int target) timeout interval none) := by
  have hnote : ∀ (n : Notice τ) (w : World ν τ), n.IsPlain →
      World.Adds (Event.Watches a) w (w.noted n) :=
    fun n _ plain => History.grows_cons _ (Or.inr ⟨n, rfl, plain⟩)
  have hlook : ∀ (w : World ν τ) answer n,
      World.Adds (Event.Watches a) w (w.after n (.look a answer)) :=
    fun _ answer _ => History.grows_cons _ (Or.inl ⟨answer, rfl⟩)
  refine keeps_of fun w v out h => ?_
  rcases Client.waitForNonce_cases (R := World.Adds (Event.Watches a)) hnote
    (fun c w => refl_of (World.Adds _) w) (fun w answer n _ _ => hlook w answer n) h with
    ⟨-, m, answer, n, r, hm, -, -, -, rfl⟩ | ⟨-, hm⟩
  · exact trans_of (World.Adds _) hm
      (trans_of (World.Adds _) (hlook m answer n) (hnote _ _ ⟨rfl, rfl⟩))
  · exact hm

theorem adds_startTracking {node : Node ν τ} {a : String} {s t : Session ν τ}
    {out : Except Fault Int} (h : (Session.startTracking node (.text a)).runOn s = (out, t)) :
    Session.Adds Event.Quiet s t := by
  obtain ⟨answer, n, -, hend⟩ := Session.startTracking_cases h
  have hread : Session.Adds Event.Quiet s (s.after n (.look a answer)) :=
    Session.adds_after s n ⟨rfl, rfl⟩
  rcases hend with ⟨v, -, -, rfl⟩ | ⟨f, -, -, rfl⟩
  · have htrack : Session.Adds Event.Quiet (s.after n (.look a answer))
        ((s.after n (.look a answer)).tracking a v) := History.grows_cons _ ⟨rfl, rfl⟩
    exact trans_of (Session.Adds _) hread htrack
  · exact hread

end

namespace Script

variable {script : Script ν τ}

theorem adds_startRoles : ∀ (roles : List Value) (started : Table Value Int),
    Keeps (Session.Adds Event.Quiet) (script.startRoles started roles) := by
  intro roles
  induction roles with
  | nil => exact fun _ => keeps_pure _
  | cons role rest ih =>
    intro started
    refine keeps_bind ?_ fun _ => ih _
    refine keeps_bind (keeps_ofExcept _) fun a => ?_
    refine keeps_bind (keeps_of fun s t out h => adds_startTracking h) fun v => ?_
    exact keeps_bind (adds_inWorld (adds_note ⟨rfl, rfl⟩)) fun _ => keeps_pure _

theorem adds_ensureTracked (a : String) :
    Keeps (Session.Adds Event.Quiet) (script.ensureTracked a) := by
  refine keeps_of fun s t out h => ?_
  rcases ensureTracked_cases h with ⟨-, -, rfl⟩ | ⟨-, r, hstart, -⟩
  · exact refl_of (Session.Adds _) _
  · exact adds_startTracking hstart

theorem adds_composeCall {P : Event τ → Prop} (x : Submit) (params : Value)
    (h : ∀ pallet function fields answer, P (.composed pallet function fields answer)) :
    Keeps (World.Adds P) (script.composeCall x params) :=
  keeps_bind (adds_compose _ _ _ _ fun _ _ => h _ _ _ _) fun _ =>
    keeps_ite (adds_compose _ _ _ _ fun _ _ => h _ _ _ _) (keeps_pure _)

theorem adds_prepare (x : Submit) :
    Keeps (Session.Adds (Event.Leads x.account)) (script.prepare x) := by
  refine keeps_bind (keeps_ofExcept _) fun a => ?_
  refine keeps_bind (keeps_adds_mono (adds_ensureTracked a) fun _ h => h.leads _) fun _ => ?_
  refine keeps_bind keeps_get fun _ => ?_
  refine keeps_bind (keeps_ofExcept _) fun params => ?_
  refine keeps_bind (adds_inWorld (adds_composeCall x params fun _ _ _ _ => ?_)) fun call => ?_
  · exact ⟨rfl, by simp [Event.sender?]⟩
  · refine keeps_bind (keeps_bind keeps_get fun _ => keeps_ofExcept _) fun nonce => ?_
    refine keeps_bind (adds_inWorld (adds_note ⟨rfl, ?_⟩)) fun _ => keeps_pure _
    intro r hr
    exact (Option.some.inj hr).symm

theorem adds_submit (x : Submit) :
    Keeps (Session.Adds (Event.Under x.account)) (script.submit x) := by
  refine keeps_of fun s t out h => ?_
  have hprepare : Keeps (Session.Adds (Event.Under x.account)) (script.prepare x) :=
    keeps_adds_mono (adds_prepare x) fun _ h => h.2
  rw [submit_eq] at h
  rcases bind_cases h with ⟨e, m, hprep, hsend⟩ | ⟨_, hprep, -⟩
  · refine trans_of (Session.Adds _) (hprepare.of_runOn hprep) ?_
    obtain ⟨-, hdue, -⟩ := prepare_ok hprep
    have hafter : ∀ (s : Session ν τ) n (y : Event τ), y.sender? = none →
        Session.Adds (Event.Under x.account) s (s.after n y) :=
      fun s n y hy => Session.adds_after s n fun r hr => by rw [hy] at hr; cases hr
    rcases send_cases hdue hsend with ⟨f, n, -, -, rfl⟩ | ⟨n, -, ⟨f, n', -, -, rfl⟩ |
      ⟨hash, n', -, -, rfl⟩⟩
    · exact hafter m n (.signed e (.error f)) rfl
    · exact trans_of (Session.Adds _) (hafter m n (.signed e (.ok ())) rfl)
        (hafter _ n' (.submitted e (.error f)) rfl)
    · refine trans_of (Session.Adds _) (hafter m n (.signed e (.ok ())) rfl) ?_
      exact trans_of (Session.Adds _) (hafter _ n' (.submitted e (.ok hash)) rfl)
        (hafter _ n' (.noticed (.submitted hash e.nonce)) rfl)
  · exact hprepare.of_runOn hprep

variable [Seconds τ]

/-- A barrier only watches its account. -/
theorem adds_wait {b : Barrier τ} {a : String} (haddr : script.address b.account = .ok a) :
    Keeps (Session.Adds (Event.Watches a)) (script.wait b) := by
  refine keeps_of fun s t out h => ?_
  rcases wait_cases h with ⟨f, hf, -, -⟩ | ⟨c, hc, ⟨-, -, rfl⟩ |
    ⟨target, polled, w, -, hpoll, rfl, -⟩⟩
  · rw [haddr] at hf
    cases hf
  · exact refl_of (Session.Adds _) _
  · obtain rfl : a = c := by simpa [haddr] using hc
    exact (adds_waitForNonce _ a target _ _).of_runOn hpoll

theorem quiet_wait (b : Barrier τ) : Keeps (Session.Adds Event.Quiet) (script.wait b) := by
  refine keeps_of fun s t out h => ?_
  rcases wait_cases h with ⟨f, -, -, rfl⟩ | ⟨a, haddr, -⟩
  · exact refl_of (Session.Adds _) _
  · exact ((adds_wait haddr).of_runOn h).mono fun _ hx => hx.quiet

/-- Beside submissions, steps add quiet events only. -/
theorem adds_execute {P : Event τ → Prop} {step : Step τ} (hquiet : ∀ x : Event τ, x.Quiet → P x)
    (hsubmit : ∀ x, step = .submit x → Keeps (Session.Adds P) (script.submit x)) :
    Keeps (Session.Adds P) (script.execute step) := by
  cases step with
  | submit x => exact keeps_bind (hsubmit x rfl) fun _ => keeps_pure _
  | barrier b => exact keeps_bind (keeps_adds_mono (quiet_wait b) hquiet) fun _ => keeps_pure _
  | pause seconds =>
    refine keeps_bind (adds_inWorld ?_) fun _ => keeps_pure _
    exact keeps_bind (adds_note (hquiet _ ⟨rfl, rfl⟩)) fun _ => adds_sleep seconds
  | other v => exact keeps_throw _

/-- A step that is no submission adds quiet events only. -/
theorem quiet_execute {step : Step τ} (hstep : ¬ ∃ x, step = .submit x) :
    Keeps (Session.Adds Event.Quiet) (script.execute step) :=
  adds_execute (fun _ hx => hx) fun x hx => absurd ⟨x, hx⟩ hstep

end Script

/-! ### Failure -/

namespace Session

/-- Either every extrinsic was taken, or there is one that was not, and then this is what the
outcome tells, and nothing but notices of failure comes after it. -/
def EndsAtRefusal (s t : Session ν τ) (out : Except Fault α) : Prop :=
  Adds (fun x => x.refused? = none) s t ∨
    ∃ e f trail earlier, out = .error (Client.rejection e f) ∧
      t.world.journal = trail ++ .submitted e (.error f) :: earlier ∧
      (∀ x ∈ trail, x.IsPhaseFailure) ∧
      History.Grows (fun x => x.refused? = none) s.world.journal earlier

/-- An action that ends with the first extrinsic that is not taken. -/
def StopsAtRefusal (act : Act (Session ν τ) α) : Prop :=
  ∀ s t out, act.runOn s = (out, t) → EndsAtRefusal s t out

theorem stopsAtRefusal_of_adds {act : Act (Session ν τ) α}
    (h : Keeps (Adds fun x => x.refused? = none) act) : StopsAtRefusal act :=
  fun _ _ _ hrun => Or.inl (h.of_runOn hrun)

/-- What is not taken after a start in which everything was, is the first that is not. -/
theorem EndsAtRefusal.after {s m t : Session ν τ} {out : Except Fault α}
    (hsm : Adds (fun x => x.refused? = none) s m) (h : EndsAtRefusal m t out) :
    EndsAtRefusal s t out := by
  rcases h with hmt | ⟨e, f, trail, earlier, hout, hjournal, htrail, hgrow⟩
  · exact Or.inl (trans_of (Adds _) hsm hmt)
  · exact Or.inr ⟨e, f, trail, earlier, hout, hjournal, htrail,
      trans_of (History.Grows _) hsm hgrow⟩

theorem EndsAtRefusal.adds_of_ok {s t : Session ν τ} {a : α} (h : EndsAtRefusal s t (.ok a)) :
    Adds (fun x => x.refused? = none) s t := by
  rcases h with hst | ⟨_, _, _, _, hout, -⟩
  · exact hst
  · cases hout

/-- The outcome of a failure does not depend on what should have come next. -/
theorem EndsAtRefusal.of_error {s t : Session ν τ} {f : Fault}
    (h : EndsAtRefusal s t (.error f : Except Fault α)) :
    EndsAtRefusal s t (.error f : Except Fault β) := by
  rcases h with hst | ⟨e, g, trail, earlier, hout, hrest⟩
  · exact Or.inl hst
  · exact Or.inr ⟨e, g, trail, earlier, by rw [Except.error.inj hout], hrest⟩

theorem stopsAtRefusal_bind {act : Act (Session ν τ) α} {next : α → Act (Session ν τ) β}
    (h : StopsAtRefusal act) (hnext : ∀ a, StopsAtRefusal (next a)) :
    StopsAtRefusal (act >>= next) := by
  intro s t out hrun
  rcases bind_cases hrun with ⟨a, m, hact, hn⟩ | ⟨f, hact, rfl⟩
  · exact (hnext a m t out hn).after (h s m _ hact).adds_of_ok
  · exact (h s t _ hact).of_error

end Session

namespace Script

open Session

variable {script : Script ν τ}

theorem stopsAtRefusal_submit (x : Submit) : StopsAtRefusal (script.submit x) := by
  intro s t out h
  have hprepare : Keeps (Adds fun y => y.refused? = none) (script.prepare x) :=
    keeps_adds_mono (adds_prepare x) fun _ hy => Event.refused?_of_attempt? hy.1
  rw [submit_eq] at h
  rcases bind_cases h with ⟨e, m, hprep, hsend⟩ | ⟨f, hprep, -⟩
  · obtain ⟨-, hdue, -⟩ := prepare_ok hprep
    refine EndsAtRefusal.after (hprepare.of_runOn hprep) ?_
    rcases send_cases hdue hsend with ⟨f, n, -, -, rfl⟩ | ⟨n, -, hsent⟩
    · exact Or.inl (adds_after m n rfl)
    · have hsigned : Adds (fun y => y.refused? = none) m (m.after n (.signed e (.ok ()))) :=
        adds_after m n rfl
      refine EndsAtRefusal.after hsigned ?_
      rcases hsent with ⟨f, n', -, rfl, rfl⟩ | ⟨hash, n', -, -, rfl⟩
      · exact Or.inr ⟨e, f, [], _, rfl, rfl, by simp, refl_of (History.Grows _) _⟩
      · exact Or.inl ⟨[.noticed (.submitted hash e.nonce), .submitted e (.ok hash)], rfl, by
          simp [Event.refused?]⟩
  · exact Or.inl (hprepare.of_runOn hprep)

variable [Seconds τ]

theorem stopsAtRefusal_execute (step : Step τ) : StopsAtRefusal (script.execute step) := by
  have hquiet : ∀ x : Event τ, x.Quiet → x.refused? = none :=
    fun x hx => Event.refused?_of_attempt? hx.1
  cases step with
  | submit x =>
    exact stopsAtRefusal_bind (stopsAtRefusal_submit x) fun _ =>
      stopsAtRefusal_of_adds (keeps_pure _)
  | barrier b => exact stopsAtRefusal_of_adds (adds_execute hquiet fun _ hx => nomatch hx)
  | pause seconds => exact stopsAtRefusal_of_adds (adds_execute hquiet fun _ hx => nomatch hx)
  | other v => exact stopsAtRefusal_of_adds (adds_execute hquiet fun _ hx => nomatch hx)

theorem stopsAtRefusal_runSteps (phase : Phase τ) : ∀ (steps : List (Step τ)) (index : Nat),
    StopsAtRefusal (script.runSteps phase index steps) := by
  intro steps
  induction steps with
  | nil => exact fun _ => stopsAtRefusal_of_adds (keeps_pure _)
  | cons step rest ih =>
    intro index s t out h
    rw [runSteps_cons] at h
    rcases hstep : (script.execute step).runOn s with ⟨f | r, m⟩
    · have hends := stopsAtRefusal_execute step s m _ hstep
      rw [hstep] at h
      obtain ⟨rfl, rfl⟩ := Prod.mk.inj h
      split
      · -- the notice of failure comes on top of what the step has left
        rcases hends with hadds | ⟨e, g, trail, earlier, hout, hjournal, htrail, hgrow⟩
        · exact Or.inl (trans_of (Adds _) hadds (adds_noted m rfl))
        · refine Or.inr ⟨e, g, _ :: trail, earlier, by rw [Except.error.inj hout],
            congrArg (_ :: ·) hjournal, ?_, hgrow⟩
          rintro x (_ | ⟨_, hx⟩)
          · exact ⟨_, _, _, _, rfl⟩
          · exact htrail x hx
      · exact hends.of_error
    · rw [hstep] at h
      exact (ih _ m t out h).after (stopsAtRefusal_execute step s m _ hstep).adds_of_ok

theorem stopsAtRefusal_runPhase (phase : Phase τ) : StopsAtRefusal (script.runPhase phase) := by
  have hnote : ∀ n : Notice τ, StopsAtRefusal (ν := ν) (inWorld (World.note n)) :=
    fun n => stopsAtRefusal_of_adds (adds_inWorld (adds_note rfl))
  exact stopsAtRefusal_bind (hnote _) fun _ =>
    stopsAtRefusal_bind (stopsAtRefusal_runSteps phase _ _) fun _ => hnote _

/-- **A run ends with the first extrinsic that is not taken**, with any node. -/
theorem stopsAtRefusal_run (phases : List (Phase τ)) : StopsAtRefusal (script.run phases) := by
  induction phases with
  | nil => exact stopsAtRefusal_of_adds (keeps_bind keeps_get fun _ => keeps_pure _)
  | cons phase rest ih => exact stopsAtRefusal_bind (stopsAtRefusal_runPhase phase) fun _ => ih

end Script

end Campaign
