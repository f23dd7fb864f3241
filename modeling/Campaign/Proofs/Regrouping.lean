import Campaign.Node.Sequential
import Campaign.Proofs.Unread
import Campaign.Proofs.Walk

/-!
# Phases leave nothing but marks

A run of phases does what their steps do one after the other (`Script.stepwise`), up to the first
that fails: the node is asked the same in the same order, the sleeps, the tracked nonces, the record
and the outcome are the same.  All that phases add is the marks in the history, and `Session.Alike`
is to be the same but for those.

No step reads the history (`Script.ignores_execute`), so what has been marked before does not matter
to it (`execute_alike`).  `Walk.stepwise` carries this through the walk that a run is.
-/

namespace Campaign

open Act

variable {ν τ α β : Type}

/-! ### The same but for marks -/

/-- A history without its marks. -/
def History.unmarked (h : History τ) : History τ := h.filter fun x => ¬ x.IsMark

namespace Session

/-- Two sessions are the same but for the marks in their histories. -/
structure Alike (s t : Session ν τ) : Prop where
  node : s.world.node = t.world.node
  clock : s.world.clock = t.world.clock
  nonces : s.nonces = t.nonces
  sent : s.sent = t.sent
  history : History.unmarked s.world.journal = History.unmarked t.world.journal

variable {s t u : Session ν τ}

theorem Alike.refl (s : Session ν τ) : Alike s s := ⟨rfl, rfl, rfl, rfl, rfl⟩

theorem Alike.symm (h : Alike s t) : Alike t s :=
  ⟨h.node.symm, h.clock.symm, h.nonces.symm, h.sent.symm, h.history.symm⟩

theorem Alike.trans (h : Alike s t) (g : Alike t u) : Alike s u :=
  ⟨h.node.trans g.node, h.clock.trans g.clock, h.nonces.trans g.nonces, h.sent.trans g.sent,
    h.history.trans g.history⟩

theorem alike_noted (s : Session ν τ) {n : Notice τ} (hn : n.IsMark) : Alike s (s.noted n) where
  node := rfl
  clock := rfl
  nonces := rfl
  sent := rfl
  history := by
    have hmark : (Event.noticed n).IsMark := Event.isMark_noticed.mpr hn
    simp [History.unmarked, noted, World.noted, hmark]

/-- The session with an empty history. -/
def bare (s : Session ν τ) : Session ν τ := { s with world := { s.world with journal := [] } }

theorem Alike.bare (h : Alike s t) : s.bare = t.bare := by
  obtain ⟨⟨n, c, j⟩, nonces, sent⟩ := s
  obtain ⟨⟨n', c', j'⟩, nonces', sent'⟩ := t
  obtain ⟨rfl, rfl, rfl, rfl, -⟩ := h
  rfl

theorem alike_recast (s : Session ν τ) {g h : History τ}
    (hsame : History.unmarked g = History.unmarked h) :
    Alike (s.recast id g) (s.recast id h) where
  node := rfl
  clock := rfl
  nonces := rfl
  sent := rfl
  history := by
    simp only [History.unmarked, recast, World.recast, List.filter_append] at hsame ⊢
    rw [hsame]

/-- An action that reads no history adds to any what it adds to none. -/
theorem runOn_bare {act : Act (Session ν τ) α} (hact : ∀ base, Ignores (recast id base) act)
    (s : Session ν τ) :
    act.runOn s = ((act.runOn s.bare).1, (act.runOn s.bare).2.recast id s.world.journal) :=
  hact s.world.journal s.bare

/-- **An action that reads no history** does the same in sessions that are the same but for
marks. -/
theorem Alike.runOn {act : Act (Session ν τ) α} (hact : ∀ base, Ignores (recast id base) act)
    (hst : Alike s t) {out : Except Fault α} {m : Session ν τ} (h : act.runOn s = (out, m)) :
    ∃ k, act.runOn t = (out, k) ∧ Alike m k := by
  rw [runOn_bare hact] at h
  obtain ⟨rfl, rfl⟩ := Prod.mk.inj h
  exact ⟨_, hst.bare ▸ runOn_bare hact t, alike_recast _ hst.history⟩

end Session

namespace Script

open Session

variable [Seconds τ] {script : Script ν τ} {s t : Session ν τ}

/-! ### One step after the other -/

/-- Runs steps one after the other, up to the first that fails, and gives the record of the
session. -/
def stepwise (script : Script ν τ) : List (Step τ) → Act (Session ν τ) (List Sent)
  | [] => return (← get).sent
  | step :: rest => do
    let _ ← script.execute step
    stepwise script rest

/-- A step does the same in sessions that are the same but for marks. -/
theorem execute_alike (step : Step τ) (hst : Alike s t) {out : Except Fault Result}
    {m : Session ν τ} (h : (script.execute step).runOn s = (out, m)) :
    ∃ k, (script.execute step).runOn t = (out, k) ∧ Alike m k :=
  hst.runOn (fun _ => ignores_execute step) h

/-- **A walk does what its steps do one after the other**, from any session that is the same but for
marks. -/
theorem Walk.stepwise {steps : List (Step τ)} {out : Except Fault Unit} {m : Session ν τ}
    (h : Walk script steps s out t) (hsm : Alike s m) :
    ∃ k, (script.stepwise steps).runOn m = (out.map fun _ => t.sent, k) ∧ Alike t k := by
  induction h generalizing m with
  | @done s => exact ⟨m, by rw [Script.stepwise, hsm.sent]; rfl, hsm⟩
  | mark hn _ ih => exact ih ((alike_noted _ hn).symm.trans hsm)
  | @step step steps s m' t r out hstep _ ih =>
    obtain ⟨k, hk, hmk⟩ := execute_alike step hsm hstep
    obtain ⟨l, hl, htl⟩ := ih hmk
    exact ⟨l, by rw [Script.stepwise, runOn_bind_ok hk, hl], htl⟩
  | @stop step steps s m' t f hstep ht =>
    obtain ⟨k, hk, hmk⟩ := execute_alike step hsm hstep
    refine ⟨k, by rw [Script.stepwise, runOn_bind_error hk]; rfl, ?_⟩
    rcases ht with rfl | ⟨n, hn, rfl⟩
    · exact hmk
    · exact (alike_noted _ hn).symm.trans hmk

/-- A run that ends well gives the record of the session that it leaves. -/
theorem sent_of_run : ∀ {phases : List (Phase τ)} {s t : Session ν τ} {sent : List Sent},
    (script.run phases).runOn s = (.ok sent, t) → sent = t.sent := by
  intro phases
  induction phases with
  | nil =>
    intro s t sent h
    obtain ⟨hsent, rfl⟩ := Prod.mk.inj h
    exact (Except.ok.inj hsent).symm
  | cons phase rest ih =>
    intro s t sent h
    obtain ⟨_, m, -, hrest⟩ := ok_of_bind h
    exact ih hrest

/-- A run of phases does what their steps do one after the other. -/
theorem stepwise_of_run {phases : List (Phase τ)} {out : Except Fault (List Sent)}
    (h : (script.run phases).runOn s = (out, t)) :
    ∃ k, (script.stepwise (phases.flatMap Phase.steps)).runOn s = (out, k) ∧ Alike t k := by
  obtain ⟨k, hk, htk⟩ := (walk_run h).stepwise (Alike.refl s)
  refine ⟨k, ?_, htk⟩
  rw [hk]
  cases out with
  | ok sent => rw [sent_of_run h]; rfl
  | error f => rfl

/-- Steps and more are the steps and then, if they end well, the others. -/
theorem stepwise_append (more : List (Step τ)) : ∀ steps : List (Step τ),
    script.stepwise (steps ++ more) = script.stepwise steps >>= fun _ => script.stepwise more := by
  intro steps
  induction steps with
  | nil => rfl
  | cons step rest ih =>
    rw [List.cons_append, stepwise, ih, stepwise, bind_assoc]

/-- Phases and more are the phases and then, if they end well, the others. -/
theorem run_append (more : List (Phase τ)) : ∀ phases : List (Phase τ),
    script.run (phases ++ more) = script.run phases >>= fun _ => script.run more := by
  intro phases
  induction phases with
  | nil => rfl
  | cons phase rest ih => rw [List.cons_append, run, ih, run, bind_assoc]

/-- Where steps fail one of them is the first to fail, and the session is the one that it leaves. -/
theorem stepwise_error : ∀ {steps : List (Step τ)} {s t : Session ν τ} {f : Fault},
    (script.stepwise steps).runOn s = (.error f, t) →
    ∃ before step after sent m, steps = before ++ step :: after ∧
      (script.stepwise before).runOn s = (.ok sent, m) ∧
        (script.execute step).runOn m = (.error f, t) := by
  intro steps
  induction steps with
  | nil =>
    intro s t f h
    cases (Prod.mk.inj h).1
  | cons step rest ih =>
    intro s t f h
    rcases bind_cases h with ⟨r, m, hstep, h⟩ | ⟨g, hstep, hg⟩
    · obtain ⟨before, step', after, sent, k, rfl, hbefore, hfails⟩ := ih h
      refine ⟨step :: before, step', after, sent, k, rfl, ?_, hfails⟩
      rw [stepwise, runOn_bind_ok hstep, hbefore]
    · obtain rfl := Except.error.inj hg
      exact ⟨[], step, rest, s.sent, s, rfl, rfl, hstep⟩

/-- After a step that fails nothing more is done. -/
theorem stepwise_stops {before after : List (Step τ)} {step : Step τ} {sent : List Sent}
    {m u : Session ν τ} {f : Fault} (hbefore : (script.stepwise before).runOn s = (.ok sent, m))
    (hstep : (script.execute step).runOn m = (.error f, u)) :
    (script.stepwise (before ++ step :: after)).runOn s = (.error f, u) := by
  rw [stepwise_append, runOn_bind_ok hbefore, stepwise, runOn_bind_error hstep]

/-- Two ends with the same outcome, and sessions that are the same but for marks. -/
def SameEnd (p q : Except Fault α × Session ν τ) : Prop := p.1 = q.1 ∧ Alike p.2 q.2

/-- **Phases leave nothing but marks, and a run stops at its first failure.**  A run of phases is,
but for the marks in the history, its steps one after the other: so are all runs of the same steps,
in whichever phases they are.  Phases and more are the phases and then, if they end well, the
others.  A run fails exactly if one of its steps fails after those before it have ended well; it
fails with the fault of that step and leaves what that step leaves, whatever would have come after
it. -/
theorem phases_leave_only_marks (script : Script ν τ) (s : Session ν τ)
    (phases : List (Phase τ)) :
    SameEnd ((script.run phases).runOn s)
        ((script.stepwise (phases.flatMap Phase.steps)).runOn s) ∧
      (∀ others : List (Phase τ), others.flatMap Phase.steps = phases.flatMap Phase.steps →
        SameEnd ((script.run others).runOn s) ((script.run phases).runOn s)) ∧
      (∀ more sent m, (script.run phases).runOn s = (.ok sent, m) →
        (script.run (phases ++ more)).runOn s = (script.run more).runOn m) ∧
      (∀ more f m, (script.run phases).runOn s = (.error f, m) →
        (script.run (phases ++ more)).runOn s = (.error f, m)) ∧
      (∀ f t, (script.run phases).runOn s = (.error f, t) →
        ∃ before step after sent m u, phases.flatMap Phase.steps = before ++ step :: after ∧
          (script.stepwise before).runOn s = (.ok sent, m) ∧
            (script.execute step).runOn m = (.error f, u)) ∧
      ∀ before step after sent m f u, phases.flatMap Phase.steps = before ++ step :: after →
        (script.stepwise before).runOn s = (.ok sent, m) →
          (script.execute step).runOn m = (.error f, u) →
            SameEnd ((script.run phases).runOn s) (.error f, u) := by
  have hflat : ∀ ps : List (Phase τ), SameEnd ((script.run ps).runOn s)
      ((script.stepwise (ps.flatMap Phase.steps)).runOn s) := by
    intro ps
    rcases hrun : (script.run ps).runOn s with ⟨out, t⟩
    obtain ⟨k, hk, halike⟩ := stepwise_of_run hrun
    rw [hk]
    exact ⟨rfl, halike⟩
  refine ⟨hflat phases, fun others hsteps => ?_, fun more sent m h => ?_, fun more f m h => ?_,
    fun f t h => ?_, fun before step after sent m f u hsteps hbefore hstep => ?_⟩
  · have hothers := hflat others
    rw [hsteps] at hothers
    exact ⟨hothers.1.trans (hflat phases).1.symm, hothers.2.trans (hflat phases).2.symm⟩
  · rw [run_append, runOn_bind_ok h]
  · rw [run_append, runOn_bind_error h]
  · obtain ⟨u, hu, -⟩ := stepwise_of_run h
    obtain ⟨before, step, after, sent, m, hsteps, hbefore, hstep⟩ := stepwise_error hu
    exact ⟨before, step, after, sent, m, u, hsteps, hbefore, hstep⟩
  · have hstops := hflat phases
    rw [hsteps, stepwise_stops hbefore hstep] at hstops
    exact hstops

/-- Root on a node that refuses the second attempt. -/
def faltering : Script Sequential.State Value where
  node := Sequential.node { failures := [(1, .refused (.text "busy"))] }
  accounts := ⟨[("root", ⟨"a", true⟩)]⟩
  barrierTimeout := .int 1
  pollInterval := .int 1

set_option maxRecDepth 10000 in
/-- A run that fails in its third phase, and the same steps in one phase. -/
theorem phases_leave_only_marks_faltering :
    let s : Session Sequential.State Value := .fresh (.ofNonces ⟨[("a", 5)]⟩) { now := .int 0 }
    let remark : Step Value := .submit ⟨"root", "System", "remark", .absent, .null⟩
    let run := (faltering.run [⟨"one", [remark]⟩, ⟨"none", []⟩,
      ⟨"two", [.barrier ⟨"root", none, .null⟩, remark, remark]⟩]).runOn s
    let whole := (faltering.run [⟨"all", [remark, .barrier ⟨"root", none, .null⟩, remark,
      remark]⟩]).runOn s
    SameEnd whole run ∧ run.1.isOk = false ∧ run.2.world.node.accepted.length = 1 ∧
      run.2.world.node.attempts = 2 := by
  refine ⟨(phases_leave_only_marks faltering _ _).2.1 _ rfl, ?_, ?_, ?_⟩ <;> decide +kernel

end Script

end Campaign
