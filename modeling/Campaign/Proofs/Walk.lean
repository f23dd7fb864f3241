import Campaign.Command.Basic
import Campaign.Proofs.Submission

/-!
# Walks

A run of phases takes their steps one after the other, up to the first that fails.  The phases show
only in marks of the history: that one has begun, is done, or has failed.  `Walk` is a run in this
sense, and `walk_run` says that runs of phases are walks of all their steps, so that what is true of
runs can be shown by induction on the steps.

Walks are put together (`Walk.append`) and taken apart (`Walk.append_cases`).  Any attempt in a walk
is made in one of its submissions, after the steps before it (`Walk.attempted`); and so is any when
phases are played, since starting the roles attempts nothing (`play_attempted`).
-/

namespace Campaign

open Act History

variable {ν τ : Type}

/-- A notice of the course of phases. -/
def Notice.IsMark : Notice τ → Prop
  | .phaseBegun _ | .phaseDone _ | .phaseFailed _ _ _ _ => True
  | _ => False

instance (n : Notice τ) : Decidable n.IsMark :=
  match n with
  | .phaseBegun _ | .phaseDone _ | .phaseFailed _ _ _ _ => .isTrue trivial
  | .connecting _ | .connected _ | .submitted _ _ | .nonceRead _ _ | .waiting _ _ _ | .reached _ _
  | .timedOut _ _ _ | .starting _ _ _ | .sending _ _ _ | .pausing _ | .interrupted
  | .failed _ _ => .isFalse id

theorem Notice.IsMark.plain {n : Notice τ} (h : n.IsMark) : n.IsPlain := by
  cases n <;> first | exact ⟨rfl, rfl⟩ | exact h.elim

theorem Notice.IsMark.quiet {n : Notice τ} (h : n.IsMark) : (Event.noticed n).Quiet :=
  ⟨rfl, h.plain.1⟩

/-- An event that only marks the course of phases. -/
def Event.IsMark (x : Event τ) : Prop := ∃ n : Notice τ, n.IsMark ∧ x = .noticed n

theorem Event.isMark_noticed {n : Notice τ} : (Event.noticed n).IsMark ↔ n.IsMark := by
  constructor
  · rintro ⟨m, hm, hn⟩
    exact Event.noticed.inj hn ▸ hm
  · exact fun h => ⟨n, h, rfl⟩

instance (x : Event τ) : Decidable x.IsMark :=
  match x with
  | .noticed _ => decidable_of_iff _ Event.isMark_noticed.symm
  | .queried _ _ _ _ | .mapQueried _ _ _ _ | .composed _ _ _ _ | .signed _ _ | .submitted _ _
  | .connected _ | .closed | .printed _ | .wrote _ _ | .logging _ =>
    .isFalse fun ⟨_, _, h⟩ => nomatch h

/-- The submission of a step, if it is one. -/
def Step.submit? : Step τ → Option Submit
  | .submit x => some x
  | _ => none

namespace History

/-- An event of a history came after a part of it, or is in that part. -/
theorem suffix_or_split {h g later earlier : History τ} {y : Event τ}
    (hg : g = later ++ y :: earlier) (hsuffix : h <:+ g) :
    h <:+ earlier ∨ ∃ later', h = later' ++ y :: earlier := by
  have hy : y :: earlier <:+ g := ⟨later, hg.symm⟩
  rcases List.suffix_or_suffix_of_suffix hsuffix hy with hh | ⟨later', hh⟩
  · rcases List.suffix_cons_iff.mp hh with rfl | hh
    · exact Or.inr ⟨[], rfl⟩
    · exact Or.inl hh
  · exact Or.inr ⟨later', hh.symm⟩

end History

/-- Where only quiet events are added, nothing is attempted. -/
theorem Session.Adds.no_attempt {s t : Session ν τ} (h : Session.Adds Event.Quiet s t)
    {later earlier : History τ} {y : Event τ} {e : Extrinsic}
    (hsplit : t.world.journal = later ++ y :: earlier) (hafter : s.world.journal <:+ earlier)
    (hy : y.attempt? = some e) : False := by
  rw [(History.Grows.of_split h hsplit hafter).1] at hy
  cases hy

namespace Script

variable [Seconds τ] {script : Script ν τ}

/-- **Steps taken one after the other**, up to the first that fails, with marks in between. -/
inductive Walk (script : Script ν τ) :
    List (Step τ) → Session ν τ → Except Fault Unit → Session ν τ → Prop
  | done {s : Session ν τ} : Walk script [] s (.ok ()) s
  | mark {steps : List (Step τ)} {s t : Session ν τ} {out : Except Fault Unit} {n : Notice τ}
      (hn : n.IsMark) (rest : Walk script steps (s.noted n) out t) : Walk script steps s out t
  | step {step : Step τ} {steps : List (Step τ)} {s m t : Session ν τ} {r : Result}
      {out : Except Fault Unit} (h : (script.execute step).runOn s = (.ok r, m))
      (rest : Walk script steps m out t) : Walk script (step :: steps) s out t
  | stop {step : Step τ} {steps : List (Step τ)} {s m t : Session ν τ} {f : Fault}
      (h : (script.execute step).runOn s = (.error f, m))
      (ht : t = m ∨ ∃ n : Notice τ, n.IsMark ∧ t = m.noted n) :
      Walk script (step :: steps) s (.error f) t

namespace Walk

variable {steps more : List (Step τ)} {s m t : Session ν τ} {out : Except Fault Unit}

theorem append (h : Walk script steps s (.ok ()) m) (g : Walk script more m out t) :
    Walk script (steps ++ more) s out t := by
  generalize hok : Except.ok () = good at h
  induction h with
  | done => exact g
  | mark hn _ ih => exact .mark hn (ih g hok)
  | step h _ ih => exact .step h (ih g hok)
  | stop => cases hok

theorem append_error {f : Fault} (h : Walk script steps s (.error f) t) :
    Walk script (steps ++ more) s (.error f) t := by
  generalize hbad : Except.error f = bad at h ⊢
  induction h with
  | done => cases hbad
  | mark hn _ ih => exact .mark hn (ih hbad)
  | step h _ ih => exact .step h (ih hbad)
  | stop h ht => exact .stop h ht

/-- A walk through some steps and more is a walk through the first and one through the others,
unless it ends before. -/
theorem append_cases {first : List (Step τ)} (h : Walk script (first ++ more) s out t) :
    (∃ m, Walk script first s (.ok ()) m ∧ Walk script more m out t) ∨
      ∃ f, out = .error f ∧ Walk script first s (.error f) t := by
  generalize hsteps : first ++ more = steps at h
  induction h generalizing first with
  | done =>
    obtain ⟨rfl, rfl⟩ := List.append_eq_nil_iff.mp hsteps
    exact Or.inl ⟨_, .done, .done⟩
  | mark hn rest ih =>
    rcases ih hsteps with ⟨m, hm, hmore⟩ | ⟨f, hf, hfirst⟩
    · exact Or.inl ⟨m, .mark hn hm, hmore⟩
    · exact Or.inr ⟨f, hf, .mark hn hfirst⟩
  | step hstep rest ih =>
    cases first with
    | nil =>
      obtain rfl := hsteps
      exact Or.inl ⟨_, .done, .step hstep rest⟩
    | cons step' first =>
      obtain ⟨rfl, htail⟩ := List.cons.inj hsteps
      rcases ih htail with ⟨m, hm, hmore⟩ | ⟨f, hf, hfirst⟩
      · exact Or.inl ⟨m, .step hstep hm, hmore⟩
      · exact Or.inr ⟨f, hf, .step hstep hfirst⟩
  | stop hstep ht =>
    cases first with
    | nil =>
      obtain rfl := hsteps
      exact Or.inl ⟨_, .done, .stop hstep ht⟩
    | cons step' first =>
      obtain ⟨rfl, -⟩ := List.cons.inj hsteps
      exact Or.inr ⟨_, rfl, .stop hstep ht⟩

/-- What marks and steps keep, walks keep. -/
theorem keeps {R : Session ν τ → Session ν τ → Prop} [IsPreorder (Session ν τ) R]
    (hmark : ∀ (n : Notice τ) (s : Session ν τ), n.IsMark → R s (s.noted n))
    (h : Walk script steps s out t) (hsteps : ∀ step ∈ steps, Keeps R (script.execute step)) :
    R s t := by
  induction h with
  | done => exact refl_of R _
  | mark hn _ ih => exact trans_of R (hmark _ _ hn) (ih hsteps)
  | step hstep _ ih =>
    exact trans_of R ((hsteps _ (by simp)).of_runOn hstep) (ih fun x hx => hsteps x (by simp [hx]))
  | stop hstep ht =>
    have hkept := (hsteps _ (by simp)).of_runOn hstep
    rcases ht with rfl | ⟨n, hn, rfl⟩
    · exact hkept
    · exact trans_of R hkept (hmark n _ hn)

/-- A walk adds to the history what its submissions add, and quiet events. -/
theorem adds {P : Event τ → Prop} (hquiet : ∀ x : Event τ, x.Quiet → P x)
    (hsubmit : ∀ x, .submit x ∈ steps → Keeps (Session.Adds P) (script.submit x))
    (h : Walk script steps s out t) : Session.Adds P s t := by
  refine h.keeps (fun n s hn => Session.adds_noted s (hquiet _ hn.quiet)) fun step hstep => ?_
  exact adds_execute hquiet fun x hx => hsubmit x (hx ▸ hstep)

/-- A walk without steps adds marks only. -/
theorem marks (h : Walk script [] s out t) : Session.Adds Event.IsMark s t :=
  h.keeps (fun n s hn => Session.adds_noted s ⟨n, hn, rfl⟩) (by simp)

theorem suffix (h : Walk script steps s out t) : s.world.journal <:+ t.world.journal := by
  refine (h.adds (P := fun _ => True) (fun _ _ => trivial) fun x _ => ?_).suffix
  exact keeps_adds_mono (adds_submit x) fun _ _ => trivial

end Walk

/-- A walk that ends well begins with marks and a first step that has ended well. -/
theorem Walk.ok_cons {steps rest : List (Step τ)} {step : Step τ} {s t : Session ν τ}
    {out : Except Fault Unit} (h : Walk script steps s out t) (hsteps : steps = step :: rest)
    (hok : out = .ok ()) :
    ∃ m r u, Walk script [] s (.ok ()) m ∧ (script.execute step).runOn m = (.ok r, u) ∧
      Walk script rest u (.ok ()) t := by
  induction h with
  | done => cases hsteps
  | mark hn _ ih =>
    obtain ⟨m, r, u, hm, hexec, hrest⟩ := ih hsteps hok
    exact ⟨m, r, u, .mark hn hm, hexec, hrest⟩
  | step hexec hrest =>
    obtain ⟨rfl, rfl⟩ := List.cons.inj hsteps
    exact ⟨_, _, _, .done, hexec, hok ▸ hrest⟩
  | stop => cases hok

/-- A walk that ends well has gone well through each of its steps. -/
theorem Walk.ok_at {before after : List (Step τ)} {step : Step τ} {s t : Session ν τ}
    (h : Walk script (before ++ step :: after) s (.ok ()) t) :
    ∃ m r u, Walk script before s (.ok ()) m ∧ (script.execute step).runOn m = (.ok r, u) ∧
      Walk script after u (.ok ()) t := by
  rcases h.append_cases with ⟨k, hbefore, hk⟩ | ⟨f, hf, -⟩
  · obtain ⟨m, r, u, hm, hexec, hafter⟩ := hk.ok_cons rfl rfl
    have hwhole := hbefore.append hm
    rw [List.append_nil] at hwhole
    exact ⟨m, r, u, hwhole, hexec, hafter⟩
  · cases hf

/-! ### Steps that end well -/

theorem execute_submit_ok {x : Submit} {r : Result} {s t : Session ν τ}
    (h : (script.execute (.submit x)).runOn s = (.ok r, t)) :
    ∃ hash, (script.submit x).runOn s = (.ok hash, t) := by
  obtain ⟨hash, m, hsubmit, h⟩ := ok_of_bind h
  obtain ⟨-, rfl⟩ := Prod.mk.inj h
  exact ⟨hash, hsubmit⟩

theorem execute_barrier_ok {b : Barrier τ} {r : Result} {s t : Session ν τ}
    (h : (script.execute (.barrier b)).runOn s = (.ok r, t)) :
    ∃ reached, (script.wait b).runOn s = (.ok reached, t) := by
  obtain ⟨reached, m, hwait, h⟩ := ok_of_bind h
  obtain ⟨-, rfl⟩ := Prod.mk.inj h
  exact ⟨reached, hwait⟩

/-- **What a barrier leaves that ends well**: a last look, which has reached the tracked nonce, or,
if the barrier is not strict, a warning that time has run out. -/
theorem wait_ok {b : Barrier τ} {reached : Bool} {s t : Session ν τ}
    (h : (script.wait b).runOn s = (.ok reached, t)) :
    ∃ a target, script.address b.account = .ok a ∧ s.nonces.get? (.text a) = some target ∧
      ((∃ answer r before, answer.bind Client.nonceOf = .ok r ∧ target ≤ r ∧
          s.world.journal <:+ before ∧ t.world.journal =
            .noticed (.reached (.int target) (.text a)) :: .look a answer :: before) ∨
        (b.strict.truthy = false ∧ ∃ timeout,
          .noticed (.timedOut timeout (.int target) (.text a)) ∈ t.world.journal)) := by
  rcases wait_cases h with ⟨_, -, hf, -⟩ | ⟨a, haddr, ⟨-, hf, -⟩ |
    ⟨target, polled, w, htarget, hpoll, rfl, hout⟩⟩
  · cases hf
  · cases hf
  · refine ⟨a, target, haddr, htarget, ?_⟩
    rcases polled with f | _ | _
    · cases hout
    · -- the wait has said no, and with a strict barrier that is no good end
      refine Or.inr ⟨?_, b.timeout.getD script.barrierTimeout, ?_⟩
      · cases hstrict : b.strict.truthy with
        | false => rfl
        | true => simp [Except.bind, hstrict] at hout
      · rw [waitOn, Client.waitForNonce, runOn_bind_ok (World.runOn_note _ _)] at hpoll
        obtain ⟨ok, m, -, hpoll⟩ := ok_of_bind hpoll
        rw [runOn_bind_ok (World.runOn_note _ m)] at hpoll
        obtain ⟨hfalse, rfl⟩ := Prod.mk.inj hpoll
        obtain rfl := Except.ok.inj hfalse
        exact List.mem_cons_self
    · rcases Client.waitForNonce_cases (R := World.Adds fun _ => True)
        (fun _ _ _ => History.grows_cons _ trivial) (fun _ w => refl_of (World.Adds _) w)
        (fun _ _ _ _ _ => History.grows_cons _ trivial) hpoll with
        ⟨-, m, answer, n, r, hm, -, hr, hle, rfl⟩ | ⟨hne, -⟩
      · exact Or.inl ⟨answer, r, m.journal, hr, hle, hm.suffix, rfl⟩
      · exact absurd rfl hne

/-- **A strict barrier that ends well has seen the tracked nonce reached.** -/
theorem strict_wait_ok {b : Barrier τ} (hstrict : b.strict.truthy = true) {reached : Bool}
    {s t : Session ν τ} (h : (script.wait b).runOn s = (.ok reached, t)) :
    ∃ a target answer r before, script.address b.account = .ok a ∧
      s.nonces.get? (.text a) = some target ∧ answer.bind Client.nonceOf = .ok r ∧ target ≤ r ∧
      s.world.journal <:+ before ∧
      t.world.journal =
        .noticed (.reached (.int target) (.text a)) :: .look a answer :: before := by
  obtain ⟨a, target, haddr, htarget, ⟨answer, r, before, hlook⟩ | ⟨hlax, -⟩⟩ := wait_ok h
  · exact ⟨a, target, answer, r, before, haddr, htarget, hlook⟩
  · rw [hstrict] at hlax
    cases hlax

/-! ### Runs are walks -/

theorem walk_runSteps (phase : Phase τ) : ∀ (steps : List (Step τ)) (index : Nat)
    {s t : Session ν τ} {out : Except Fault Unit},
    (script.runSteps phase index steps).runOn s = (out, t) → Walk script steps s out t := by
  intro steps
  induction steps with
  | nil =>
    intro index s t out h
    obtain ⟨rfl, rfl⟩ := Prod.mk.inj h
    exact .done
  | cons step rest ih =>
    intro index s t out h
    rw [runSteps_cons] at h
    rcases hstep : (script.execute step).runOn s with ⟨f | r, m⟩
    · rw [hstep] at h
      obtain ⟨rfl, rfl⟩ := Prod.mk.inj h
      refine .stop hstep ?_
      split
      · exact Or.inr ⟨.phaseFailed _ _ _ _, trivial, rfl⟩
      · exact Or.inl rfl
    · rw [hstep] at h
      exact .step hstep (ih (index + 1) h)

theorem walk_runPhase {phase : Phase τ} {s t : Session ν τ} {out : Except Fault Unit}
    (h : (script.runPhase phase).runOn s = (out, t)) : Walk script phase.steps s out t := by
  rw [runPhase, runOn_bind_ok (Session.runOn_inWorld _ s)] at h
  refine .mark (n := .phaseBegun phase.name) trivial ?_
  rcases bind_cases h with ⟨_, m, hsteps, h⟩ | ⟨f, hsteps, rfl⟩
  · rw [Session.runOn_inWorld] at h
    obtain ⟨rfl, rfl⟩ := Prod.mk.inj h
    have hend : Walk script [] m (.ok ()) (m.noted (.phaseDone phase.name)) :=
      .mark (n := .phaseDone phase.name) trivial .done
    have hwhole := (walk_runSteps phase _ _ hsteps).append hend
    rwa [List.append_nil] at hwhole
  · exact walk_runSteps phase _ _ hsteps

/-- **A run of phases is a walk of all their steps.** -/
theorem walk_run : ∀ {phases : List (Phase τ)} {s t : Session ν τ}
    {out : Except Fault (List Sent)}, (script.run phases).runOn s = (out, t) →
      Walk script (phases.flatMap Phase.steps) s (out.map fun _ => ()) t := by
  intro phases
  induction phases with
  | nil =>
    intro s t out h
    obtain ⟨rfl, rfl⟩ := Prod.mk.inj h
    exact .done
  | cons phase rest ih =>
    intro s t out h
    rw [List.flatMap_cons]
    rcases bind_cases h with ⟨_, m, hphase, h⟩ | ⟨f, hphase, rfl⟩
    · exact (walk_runPhase hphase).append (ih h)
    · exact (walk_runPhase hphase).append_error

/-- Phases are played once the roles are started, unless something is in the way. -/
theorem play_cases {phases : Except Fault (List (Phase τ))} {s t : Session ν τ}
    {out : Except Fault Nat} (h : (Command.play script phases).runOn s = (out, t)) :
    (∃ f, script.start.runOn s = (.error f, t) ∧ out = .error f) ∨
      ∃ started m, script.start.runOn s = (.ok started, m) ∧
        ((∃ f, phases = .error f ∧ t = m ∧ out = .error f) ∨
          ∃ ps sent, phases = .ok ps ∧ (script.run ps).runOn m = (sent, t) ∧
            out = sent.map List.length) := by
  rcases bind_cases h with ⟨started, m, hstart, h⟩ | ⟨f, hstart, rfl⟩
  · refine Or.inr ⟨started, m, hstart, ?_⟩
    rcases bind_cases h with ⟨ps, m', hphases, h⟩ | ⟨f, hphases, rfl⟩
    · rw [runOn_ofExcept] at hphases
      obtain ⟨rfl, rfl⟩ := Prod.mk.inj hphases
      rcases bind_cases h with ⟨sent, m', hrun, h⟩ | ⟨f, hrun, rfl⟩
      · obtain ⟨rfl, rfl⟩ := Prod.mk.inj h
        exact Or.inr ⟨ps, _, rfl, hrun, rfl⟩
      · exact Or.inr ⟨ps, _, rfl, hrun, rfl⟩
    · rw [runOn_ofExcept] at hphases
      obtain ⟨rfl, rfl⟩ := Prod.mk.inj hphases
      exact Or.inl ⟨f, rfl, rfl, rfl⟩
  · exact Or.inl ⟨f, hstart, rfl⟩

/-- Whatever is played, the history goes on. -/
theorem suffix_play {phases : Except Fault (List (Phase τ))} {s t : Session ν τ}
    {out : Except Fault Nat} (h : (Command.play script phases).runOn s = (out, t)) :
    s.world.journal <:+ t.world.journal := by
  have hstart : ∀ {r m}, script.start.runOn s = (r, m) → s.world.journal <:+ m.world.journal :=
    fun hs => ((adds_startRoles _ _).of_runOn hs).suffix
  rcases play_cases h with ⟨f, hs, -⟩ | ⟨_, m, hs, ⟨f, -, rfl, -⟩ | ⟨ps, sent, -, hrun, -⟩⟩
  · exact hstart hs
  · exact hstart hs
  · exact (hstart hs).trans (walk_run hrun).suffix

/-! ### Attempts -/

/-- The submission of a step leaves the session that the step leaves. -/
theorem runOn_execute_submit {x : Submit} {s t : Session ν τ} {out : Except Fault Result}
    (h : (script.execute (.submit x)).runOn s = (out, t)) :
    ∃ r, (script.submit x).runOn s = (r, t) := by
  rcases bind_cases h with ⟨hash, m, hsubmit, h⟩ | ⟨f, hsubmit, -⟩
  · obtain ⟨-, rfl⟩ := Prod.mk.inj h
    exact ⟨_, hsubmit⟩
  · exact ⟨_, hsubmit⟩

/-- An attempt in a step is made in the submission that the step is. -/
theorem execute_attempt {step : Step τ} {s t : Session ν τ} {out : Except Fault Result}
    (h : (script.execute step).runOn s = (out, t)) {later earlier : History τ} {y : Event τ}
    {e : Extrinsic} (hsplit : t.world.journal = later ++ y :: earlier)
    (hafter : s.world.journal <:+ earlier) (hy : y.attempt? = some e) :
    ∃ x r, step = .submit x ∧ (script.submit x).runOn s = (r, t) := by
  by_cases hsubmit : ∃ x, step = .submit x
  · obtain ⟨x, rfl⟩ := hsubmit
    obtain ⟨r, hr⟩ := runOn_execute_submit h
    exact ⟨x, r, rfl, hr⟩
  · exact (((quiet_execute hsubmit).of_runOn h).no_attempt hsplit hafter hy).elim

/-- **Any attempt in a walk is made in one of its submissions**, after the steps before it. -/
theorem Walk.attempted {steps : List (Step τ)} {s t : Session ν τ} {out : Except Fault Unit}
    (h : Walk script steps s out t) {later earlier : History τ} {y : Event τ} {e : Extrinsic}
    (hsplit : t.world.journal = later ++ y :: earlier) (hafter : s.world.journal <:+ earlier)
    (hy : y.attempt? = some e) :
    ∃ before x after m r u later', steps = before ++ .submit x :: after ∧
      Walk script before s (.ok ()) m ∧ (script.submit x).runOn m = (r, u) ∧
        m.world.journal <:+ earlier ∧ u.world.journal = later' ++ y :: earlier := by
  have hmarked : ∀ (m : Session ν τ) {n : Notice τ}, n.IsMark →
      Session.Adds Event.Quiet m (m.noted n) := fun m n hn => Session.adds_noted m hn.quiet
  induction h generalizing later with
  | done =>
    have hlength := hafter.length_le
    simp only [hsplit, List.length_append, List.length_cons] at hlength
    omega
  | @mark steps s t out n hn rest ih =>
    rcases suffix_or_split hsplit rest.suffix with hm | ⟨later', hm⟩
    · obtain ⟨before, x, after, m, r, u, later', hsteps, hbefore, hx⟩ := ih hsplit hm
      exact ⟨before, x, after, m, r, u, later', hsteps, .mark hn hbefore, hx⟩
    · exact ((hmarked s hn).no_attempt hm hafter hy).elim
  | @step step steps s m t r out hstep rest ih =>
    rcases suffix_or_split hsplit rest.suffix with hm | ⟨later', hm⟩
    · obtain ⟨before, x, after, k, r, u, later', rfl, hbefore, hx⟩ := ih hsplit hm
      exact ⟨step :: before, x, after, k, r, u, later', rfl, .step hstep hbefore, hx⟩
    · obtain ⟨x, r, rfl, hx⟩ := execute_attempt hstep hm hafter hy
      exact ⟨[], x, steps, s, r, m, later', rfl, .done, hx, hafter, hm⟩
  | @stop step steps s m t f hstep ht =>
    obtain ⟨later', hm⟩ : ∃ later', m.world.journal = later' ++ y :: earlier := by
      rcases ht with rfl | ⟨n, hn, rfl⟩
      · exact ⟨later, hsplit⟩
      · rcases suffix_or_split hsplit (hmarked m hn).suffix with hm | hm
        · exact ((hmarked m hn).no_attempt hsplit hm hy).elim
        · exact hm
    obtain ⟨x, r, rfl, hx⟩ := execute_attempt hstep hm hafter hy
    exact ⟨[], x, steps, s, r, m, later', rfl, .done, hx, hafter, hm⟩

/-- **Any attempt in a play is made in one of the submissions of its phases**, after a walk through
the steps before it. -/
theorem play_attempted {phases : List (Phase τ)} {n : ν} {c : Clock τ} {out : Except Fault Nat}
    {t : Session ν τ} (h : (Command.play script (.ok phases)).runOn (.fresh n c) = (out, t))
    {later earlier : History τ} {y : Event τ} {e : Extrinsic}
    (hsplit : t.world.journal = later ++ y :: earlier) (hy : y.attempt? = some e) :
    ∃ s before x after m r u later', phases.flatMap Phase.steps = before ++ .submit x :: after ∧
      Walk script before s (.ok ()) m ∧ (script.submit x).runOn m = (r, u) ∧
        m.world.journal <:+ earlier ∧ u.world.journal = later' ++ y :: earlier := by
  have hstart : Keeps (Session.Adds Event.Quiet) script.start := adds_startRoles _ _
  have hfresh : ∀ m : Session ν τ, Session.Adds Event.Quiet (.fresh n c) m →
      ∀ later', m.world.journal ≠ later' ++ y :: earlier :=
    fun m hm later' hsplit' => hm.no_attempt hsplit' List.nil_suffix hy
  rcases play_cases h with ⟨f, hs, -⟩ | ⟨started, s, hs, ⟨f, hf, -⟩ | ⟨ps, sent, hps, hrun, -⟩⟩
  · exact absurd hsplit (hfresh t (hstart.of_runOn hs) later)
  · cases hf
  · obtain rfl := Except.ok.inj hps
    have hwalk := walk_run hrun
    rcases suffix_or_split hsplit hwalk.suffix with hafter | ⟨later', hsplit'⟩
    · exact ⟨s, hwalk.attempted hsplit hafter hy⟩
    · exact absurd hsplit' (hfresh s (hstart.of_runOn hs) later')

end Script

end Campaign
