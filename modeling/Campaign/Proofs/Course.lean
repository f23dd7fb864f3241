import Campaign.Proofs.Walk

/-!
# The course of a run

How far a run has got: which of its phases have begun, and which steps were taken in each.  A
`Visit` is a step that was taken, a `Stage` a phase that has begun.  `Course` puts them together: a
phase is completed once all its steps have ended well, and the run stops in the phase, at the step,
where one fails.  Every run has a course (`course_run`).

`Course.stopped` is for reading a course from its end: all stages are completed, or all but the
last, whose last visit has failed.
-/

namespace Campaign

open Act

variable {ν τ : Type}

/-- A step that was taken: where it began, what it ended with, and what it left. -/
structure Visit (ν τ : Type) where
  step : Step τ
  before : Session ν τ
  outcome : Except Fault Script.Result
  after : Session ν τ

/-- A phase that has begun, with the steps taken in it. -/
structure Stage (ν τ : Type) where
  phase : Phase τ
  visits : List (Visit ν τ)

/-- All steps of the phase were taken, and ended well. -/
structure Stage.Completed (stage : Stage ν τ) : Prop where
  steps : stage.visits.map Visit.step = stage.phase.steps
  ok : ∀ v ∈ stage.visits, ∃ r, v.outcome = .ok r

section

variable [Seconds τ]

/-- The step was taken so under a script. -/
def Visit.Of (script : Script ν τ) (v : Visit ν τ) : Prop :=
  (script.execute v.step).runOn v.before = (v.outcome, v.after)

end

namespace Script

variable [Seconds τ] {script : Script ν τ}

/-- Steps taken one after the other, each of which has ended well. -/
inductive Visits (script : Script ν τ) : Session ν τ → List (Visit ν τ) → Session ν τ → Prop
  | nil {s : Session ν τ} : Visits script s [] s
  | cons {v : Visit ν τ} {visits : List (Visit ν τ)} {t : Session ν τ} {r : Result}
      (hv : v.Of script) (hok : v.outcome = .ok r) (rest : Visits script v.after visits t) :
      Visits script v.before (v :: visits) t

/-- **The course of a run.**  Each phase is noticed when it begins, and again when all its steps
have ended well.  A step that fails ends the run; unless it was interrupted, that is noticed with
the place. -/
inductive Course (script : Script ν τ) :
    List (Phase τ) → Session ν τ → List (Stage ν τ) → Except Fault Unit → Session ν τ → Prop
  | done {s : Session ν τ} : Course script [] s [] (.ok ()) s
  | next {phase : Phase τ} {phases : List (Phase τ)} {s m t : Session ν τ}
      {visits : List (Visit ν τ)} {stages : List (Stage ν τ)} {out : Except Fault Unit}
      (hsteps : visits.map Visit.step = phase.steps)
      (inside : Visits script (s.noted (.phaseBegun phase.name)) visits m)
      (rest : Course script phases (m.noted (.phaseDone phase.name)) stages out t) :
      Course script (phase :: phases) s (⟨phase, visits⟩ :: stages) out t
  | stop {phase : Phase τ} {phases : List (Phase τ)} {s t : Session ν τ}
      {visits : List (Visit ν τ)} {v : Visit ν τ} {after : List (Step τ)} {f : Fault}
      (hsteps : phase.steps = visits.map Visit.step ++ v.step :: after)
      (inside : Visits script (s.noted (.phaseBegun phase.name)) visits v.before)
      (hv : v.Of script) (hf : v.outcome = .error f)
      (ht : t = if f.isError then v.after.noted (.phaseFailed phase.name (visits.length + 1)
        phase.steps.length v.step.text) else v.after) :
      Course script (phase :: phases) s [⟨phase, visits ++ [v]⟩] (.error f) t

/-! ### Every run has a course -/

/-- The steps of a phase all end well, or one of them is the first to fail. -/
theorem runSteps_cases (phase : Phase τ) : ∀ (steps : List (Step τ)) (index : Nat)
    {s t : Session ν τ} {out : Except Fault Unit},
    (script.runSteps phase index steps).runOn s = (out, t) →
    (out = .ok () ∧ ∃ visits, visits.map Visit.step = steps ∧ Visits script s visits t) ∨
      ∃ f visits, ∃ v : Visit ν τ, ∃ after, out = .error f ∧
        steps = visits.map Visit.step ++ v.step :: after ∧
        Visits script s visits v.before ∧ v.Of script ∧ v.outcome = .error f ∧
          t = if f.isError then v.after.noted (.phaseFailed phase.name (index + visits.length)
            phase.steps.length v.step.text) else v.after := by
  intro steps
  induction steps with
  | nil =>
    intro index s t out h
    obtain ⟨rfl, rfl⟩ := Prod.mk.inj h
    exact Or.inl ⟨rfl, [], rfl, .nil⟩
  | cons step rest ih =>
    intro index s t out h
    rw [runSteps_cons] at h
    rcases hstep : (script.execute step).runOn s with ⟨f | r, m⟩
    · rw [hstep] at h
      obtain ⟨rfl, rfl⟩ := Prod.mk.inj h
      exact Or.inr ⟨f, [], ⟨step, s, .error f, m⟩, rest, rfl, rfl, .nil, hstep, rfl, rfl⟩
    · rw [hstep] at h
      have hv : Visit.Of script ⟨step, s, .ok r, m⟩ := hstep
      rcases ih (index + 1) h with ⟨rfl, visits, rfl, hvisits⟩ |
        ⟨f, visits, v, after, rfl, rfl, hvisits, hfails, hf, rfl⟩
      · exact Or.inl ⟨rfl, ⟨step, s, .ok r, m⟩ :: visits, rfl, .cons hv rfl hvisits⟩
      · refine Or.inr ⟨f, ⟨step, s, .ok r, m⟩ :: visits, v, after, rfl, rfl,
          .cons hv rfl hvisits, hfails, hf, ?_⟩
        rw [List.length_cons, Nat.add_right_comm, Nat.add_assoc]

/-- **Every run has a course.** -/
theorem course_run : ∀ {phases : List (Phase τ)} {s t : Session ν τ}
    {out : Except Fault (List Sent)}, (script.run phases).runOn s = (out, t) →
    ∃ stages, Course script phases s stages (out.map fun _ => ()) t := by
  intro phases
  induction phases with
  | nil =>
    intro s t out h
    obtain ⟨rfl, rfl⟩ := Prod.mk.inj h
    exact ⟨[], .done⟩
  | cons phase rest ih =>
    intro s t out h
    have hphase : ∀ {r : Except Fault Unit} {k : Session ν τ},
        (script.runPhase phase).runOn s = (r, k) →
        (script.runSteps phase 1 phase.steps >>= fun _ => Session.inWorld
          (World.note (.phaseDone phase.name))).runOn (s.noted (.phaseBegun phase.name)) =
            (r, k) := by
      intro r k hk
      rwa [runPhase, runOn_bind_ok (Session.runOn_inWorld _ s)] at hk
    rcases bind_cases h with ⟨_, k, hk, h⟩ | ⟨f, hk, rfl⟩
    · obtain ⟨_, m, hsteps, hdone⟩ := ok_of_bind (hphase hk)
      rw [Session.runOn_inWorld] at hdone
      obtain ⟨-, rfl⟩ := Prod.mk.inj hdone
      obtain ⟨stages, hstages⟩ := ih h
      rcases runSteps_cases phase _ _ hsteps with ⟨-, visits, hmap, hvisits⟩ | ⟨f, _, _, _, hf, -⟩
      · exact ⟨_, .next hmap hvisits hstages⟩
      · cases hf
    · rcases bind_cases (hphase hk) with ⟨_, m, -, hdone⟩ | ⟨g, hsteps, hg⟩
      · rw [Session.runOn_inWorld] at hdone
        cases (Prod.mk.inj hdone).1
      · obtain rfl := Except.error.inj hg
        rcases runSteps_cases phase _ _ hsteps with ⟨hok, -⟩ |
          ⟨g, visits, v, after, hg, hmap, hvisits, hv, hfails, rfl⟩
        · cases hok
        · obtain rfl := Except.error.inj hg
          exact ⟨_, .stop hmap hvisits hv hfails (by rw [Nat.add_comm])⟩

/-! ### Reading a course -/

theorem Visits.all {s t : Session ν τ} {visits : List (Visit ν τ)} (h : Visits script s visits t) :
    ∀ v ∈ visits, v.Of script ∧ ∃ r, v.outcome = .ok r := by
  induction h with
  | nil => simp
  | cons hv hok _ ih =>
    rintro u (_ | ⟨_, hu⟩)
    · exact ⟨hv, _, hok⟩
    · exact ih u hu

/-- What steps keep is kept up to where each step begins. -/
theorem Visits.reached {R : Session ν τ → Session ν τ → Prop} [IsPreorder (Session ν τ) R]
    (hsteps : ∀ step, Keeps R (script.execute step)) {s t : Session ν τ}
    {visits : List (Visit ν τ)} (h : Visits script s visits t) :
    R s t ∧ ∀ v ∈ visits, R s v.before := by
  induction h with
  | nil => exact ⟨refl_of R _, by simp⟩
  | @cons v visits t r hv _ _ ih =>
    have hfirst : R v.before v.after := (hsteps v.step).of_runOn hv
    refine ⟨trans_of R hfirst ih.1, ?_⟩
    exact List.forall_mem_cons.mpr ⟨refl_of R _, fun u hu => trans_of R hfirst (ih.2 u hu)⟩

namespace Course

variable {phases : List (Phase τ)} {s t : Session ν τ} {stages : List (Stage ν τ)}
  {out : Except Fault Unit}

/-- **What marks and steps keep is kept up to where each step begins**, and the step is one of the
phase that it is taken in. -/
theorem reached {R : Session ν τ → Session ν τ → Prop} [IsPreorder (Session ν τ) R]
    (hmark : ∀ (n : Notice τ) (s : Session ν τ), n.IsMark → R s (s.noted n))
    (hsteps : ∀ step, Keeps R (script.execute step)) (h : Course script phases s stages out t) :
    ∀ stage ∈ stages, ∀ v ∈ stage.visits, R s v.before ∧ v.step ∈ stage.phase.steps := by
  induction h with
  | done => simp
  | @next phase phases s m t visits stages out hall inside rest ih =>
    have hbegun : R s (s.noted (.phaseBegun phase.name)) := hmark (.phaseBegun phase.name) s trivial
    obtain ⟨hm, hbefore⟩ := inside.reached hsteps
    refine List.forall_mem_cons.mpr ⟨fun v hv => ⟨trans_of R hbegun (hbefore v hv), ?_⟩,
      fun stage hstage v hv => ?_⟩
    · exact hall ▸ List.mem_map_of_mem hv
    · obtain ⟨hreached, hstep⟩ := ih stage hstage v hv
      have hdone : R s (m.noted (.phaseDone phase.name)) :=
        trans_of R (trans_of R hbegun hm) (hmark (.phaseDone phase.name) m trivial)
      exact ⟨trans_of R hdone hreached, hstep⟩
  | @stop phase phases s t visits v after f hall inside _ _ _ =>
    have hbegun : R s (s.noted (.phaseBegun phase.name)) := hmark (.phaseBegun phase.name) s trivial
    obtain ⟨hm, hbefore⟩ := inside.reached hsteps
    refine List.forall_mem_singleton.mpr (List.forall_mem_append.mpr ⟨fun u hu => ?_,
      List.forall_mem_singleton.mpr ⟨trans_of R hbegun hm, by simp [hall]⟩⟩)
    refine ⟨trans_of R hbegun (hbefore u hu), ?_⟩
    rw [hall]
    exact List.mem_append_left _ (List.mem_map_of_mem hu)

/-- Phases begin in order. -/
theorem order (h : Course script phases s stages out t) :
    stages.map Stage.phase <+: phases := by
  induction h with
  | done => exact List.prefix_refl _
  | next _ _ _ ih => exact (List.prefix_cons_inj _).mpr ih
  | stop => exact (List.prefix_cons_inj _).mpr (List.nil_prefix)

theorem visited (h : Course script phases s stages out t) :
    ∀ stage ∈ stages, ∀ v ∈ stage.visits, v.Of script := by
  induction h with
  | done => simp
  | next _ inside _ ih =>
    rintro stage (_ | ⟨_, hstage⟩) v hv
    · exact (inside.all v hv).1
    · exact ih stage hstage v hv
  | stop _ inside hfails _ _ =>
    intro stage hstage v hv
    obtain rfl := List.mem_singleton.mp hstage
    rcases List.mem_append.mp hv with hv | hv
    · exact (inside.all v hv).1
    · obtain rfl := List.mem_singleton.mp hv
      exact hfails

/-- **Where a course ends**: all phases are completed; or a step has failed, and the phases before
its own are completed, as are the steps before it. -/
theorem stopped (h : Course script phases s stages out t) :
    (out = .ok () ∧ stages.map Stage.phase = phases ∧ ∀ stage ∈ stages, stage.Completed) ∨
      ∃ f earlier phase visits, ∃ v : Visit ν τ, ∃ after, out = .error f ∧
        stages = earlier ++ [⟨phase, visits ++ [v]⟩] ∧
        (∀ stage ∈ earlier, stage.Completed) ∧
        phase.steps = visits.map Visit.step ++ v.step :: after ∧
        (∀ u ∈ visits, ∃ r, u.outcome = .ok r) ∧ v.outcome = .error f := by
  induction h with
  | done => exact Or.inl ⟨rfl, rfl, by simp⟩
  | @next phase phases s m t visits stages out hsteps inside rest ih =>
    have hcompleted : Stage.Completed ⟨phase, visits⟩ := ⟨hsteps, fun v hv => (inside.all v hv).2⟩
    rcases ih with ⟨rfl, hphases, hall⟩ |
      ⟨f, earlier, phase', visits', v, after, rfl, rfl, hall, hv⟩
    · refine Or.inl ⟨rfl, by rw [List.map_cons, hphases], ?_⟩
      rintro stage (_ | ⟨_, hstage⟩)
      · exact hcompleted
      · exact hall stage hstage
    · refine Or.inr ⟨f, ⟨phase, visits⟩ :: earlier, phase', visits', v, after, rfl, rfl, ?_, hv⟩
      rintro stage (_ | ⟨_, hstage⟩)
      · exact hcompleted
      · exact hall stage hstage
  | @stop phase phases s t visits v after f hsteps inside hv hf ht =>
    exact Or.inr ⟨f, [], phase, visits, v, after, rfl, rfl, by simp, hsteps,
      fun u hu => (inside.all u hu).2, hf⟩

end Course

end Script

end Campaign
