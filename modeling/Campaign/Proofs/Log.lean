import Campaign.Node.Sequential
import Campaign.Proofs.Telling

/-!
# What the log tells

The log of a run shows exactly how far it got.  `Stage.log` is what a phase that has begun leaves in
the log: its opening line, what its steps have told, and a closing line.  The log of a run is that
of its stages, one after the other (`Script.Course.notices`), so what is true of it
(`Script.log_tells_how_far`) comes from the course of the run and from what one step tells.
-/

namespace Campaign

open Act History

variable {ν τ : Type}

namespace Stage

/-- The last notice of a phase, unless the run was interrupted in it. -/
def closing [Seconds τ] (stage : Stage ν τ) : List (Notice τ) :=
  match stage.visits.getLast? with
  | some ⟨step, _, .error f, _⟩ =>
    if f.isError then
      [.phaseFailed stage.phase.name stage.visits.length stage.phase.steps.length step.text]
    else []
  | _ => [.phaseDone stage.phase.name]

/-- What a phase leaves in the log. -/
def log [Seconds τ] (stage : Stage ν τ) : List (Notice τ) :=
  .phaseBegun stage.phase.name :: (stage.visits.flatMap Visit.notices ++ stage.closing)

variable [Seconds τ]

theorem closing_of_ok {stage : Stage ν τ} (h : ∀ v ∈ stage.visits, ∃ r, v.outcome = .ok r) :
    stage.closing = [.phaseDone stage.phase.name] := by
  rw [closing]
  split
  · rename_i step s f t hlast
    obtain ⟨r, hr⟩ := h _ (List.mem_of_getLast? hlast)
    cases hr
  · rfl

theorem closing_of_error {phase : Phase τ} {visits : List (Visit ν τ)} {v : Visit ν τ} {f : Fault}
    (hv : v.outcome = .error f) : (⟨phase, visits ++ [v]⟩ : Stage ν τ).closing =
      if f.isError then
        [.phaseFailed phase.name (visits.length + 1) phase.steps.length v.step.text]
      else [] := by
  obtain ⟨step, s, out, t⟩ := v
  obtain rfl : out = .error f := hv
  simp [closing]

/-- The log of a completed phase ends with a line that says so. -/
theorem Completed.log {stage : Stage ν τ} (h : stage.Completed) : stage.log =
    (.phaseBegun stage.phase.name :: stage.visits.flatMap Visit.notices) ++
      [.phaseDone stage.phase.name] := by
  rw [Stage.log, closing_of_ok h.ok]
  rfl

end Stage

namespace Script

variable [Seconds τ] {script : Script ν τ}

theorem Visits.notices {s t : Session ν τ} {visits : List (Visit ν τ)}
    (h : Visits script s visits t) : History.notices t.world.journal =
      History.notices s.world.journal ++ visits.flatMap Visit.notices := by
  induction h with
  | nil => simp
  | cons hv _ _ ih =>
    rw [ih, hv.journal, notices_append, List.flatMap_cons, List.append_assoc]
    rfl

/-- **The log of a run is made of those of its stages.** -/
theorem Course.notices {phases : List (Phase τ)} {s t : Session ν τ} {stages : List (Stage ν τ)}
    {out : Except Fault Unit} (h : Course script phases s stages out t) :
    History.notices t.world.journal =
      History.notices s.world.journal ++ stages.flatMap Stage.log := by
  have hnoted : ∀ (s : Session ν τ) (n : Notice τ), History.notices (s.noted n).world.journal =
      History.notices s.world.journal ++ [n] := fun s n => notices_noticed n _
  induction h with
  | done => simp
  | @next phase phases s m t visits stages out hsteps inside rest ih =>
    have hclosing : Stage.closing ⟨phase, visits⟩ = [.phaseDone phase.name] :=
      Stage.closing_of_ok fun v hv => (inside.all v hv).2
    rw [ih, hnoted, inside.notices, hnoted, List.flatMap_cons, Stage.log, hclosing]
    simp
  | @stop phase phases s t visits v after f hsteps inside hv hf ht =>
    have hlast : History.notices v.after.world.journal = History.notices s.world.journal ++
        .phaseBegun phase.name :: (visits.flatMap Visit.notices ++ v.notices) := by
      rw [hv.journal, notices_append, inside.notices, hnoted]
      simp [Visit.notices]
    rw [List.flatMap_singleton, Stage.log, Stage.closing_of_error hf, ht]
    split
    · rw [hnoted, hlast]
      simp
    · rw [hlast]
      simp

/-- The log of a run that has failed: what the phases before have told, what the last one has told,
and, unless the run was interrupted, the place of the failure. -/
theorem log_of_failure {earlier : List (Stage ν τ)} {phase : Phase τ} {visits : List (Visit ν τ)}
    {v : Visit ν τ} {f : Fault} (hv : v.outcome = .error f) :
    (earlier ++ [(⟨phase, visits ++ [v]⟩ : Stage ν τ)]).flatMap Stage.log =
      earlier.flatMap Stage.log ++
        (.phaseBegun phase.name :: (visits ++ [v]).flatMap Visit.notices) ++
        (if f.isError then
          [.phaseFailed phase.name (visits.length + 1) phase.steps.length v.step.text]
        else []) := by
  rw [List.flatMap_append, List.flatMap_singleton, Stage.log, Stage.closing_of_error hv,
    List.append_assoc]
  rfl

/-- A barrier that is strict and has run out of time is where the run has failed. -/
theorem Course.strict {phases : List (Phase τ)} {s t : Session ν τ} {stages : List (Stage ν τ)}
    {out : Except Fault Unit} (h : Course script phases s stages out t) {v : Visit ν τ}
    (hmem : v ∈ stages.flatMap Stage.visits) (hran : v.ranOut script = true)
    (hstrict : ∃ b, v.step = .barrier b ∧ b.strict.truthy = true) :
    ∃ rest m n, stages.flatMap Stage.log = rest ++ [m, n] ∧ m ∈ v.notices ∧ m.level = .warning ∧
      n.level = .error := by
  obtain ⟨stage, hstage, hv⟩ := List.mem_flatMap.mp hmem
  clear hmem
  obtain ⟨f, timeout, target, a, lead, hf, herror, hevents⟩ :
      ∃ f timeout target a lead, v.outcome = .error f ∧ f.isError = true ∧
        v.events = .noticed (.timedOut timeout target a) :: lead := by
    rcases v.cases (h.visited stage hstage v hv) with ⟨hno, -⟩ |
      ⟨-, b, timeout, target, a, lead, hstep, hfails, -, hevents⟩ | ⟨hno, -⟩
    · cases hno.symm.trans hran
    · obtain ⟨b', hb', htruthy⟩ := hstrict
      obtain rfl : b = b' := by simpa [hstep] using hb'
      obtain ⟨f, hf, herror⟩ := hfails htruthy
      exact ⟨f, timeout, target, a, lead, hf, herror, hevents⟩
    · cases hno.symm.trans hran
  have hbad : ¬ ∃ r, v.outcome = .ok r := by
    rintro ⟨r, hr⟩
    cases hf.symm.trans hr
  rcases h.stopped with ⟨-, -, hall⟩ | ⟨f', earlier, phase, visits, u, after, -, rfl, hall, -,
    hok, hu⟩
  · exact absurd ((hall stage hstage).ok v hv) hbad
  · rcases List.mem_append.mp hstage with hstage | hstage
    · exact absurd ((hall stage hstage).ok v hv) hbad
    · obtain rfl := List.mem_singleton.mp hstage
      rcases List.mem_append.mp hv with hv | hv
      · exact absurd (hok v hv) hbad
      · obtain rfl := List.mem_singleton.mp hv
        have hnotices : v.notices = History.notices lead ++ [.timedOut timeout target a] := by
          rw [Visit.notices, hevents, notices_noticed]
        rw [log_of_failure hf, if_pos herror, List.flatMap_append, List.flatMap_singleton, hnotices]
        refine ⟨earlier.flatMap Stage.log ++
            (.phaseBegun phase.name :: (visits.flatMap Visit.notices ++ History.notices lead)),
          .timedOut timeout target a,
          .phaseFailed phase.name (visits.length + 1) phase.steps.length v.step.text, ?_, by simp,
          rfl, rfl⟩
        simp only [List.append_assoc, List.cons_append, List.nil_append]

/-- Root on a node that takes its time to include extrinsics. -/
def tardy : Script Sequential.State Value where
  node := Sequential.node { includeAfter := 9 }
  accounts := ⟨[("root", ⟨"a", true⟩)]⟩
  barrierTimeout := .int 1
  pollInterval := .int 1

/-- A barrier that does not mind runs out of time, and then a pause cannot be slept. -/
example :
    let s : Session Sequential.State Value := .fresh (.ofNonces ⟨[("a", 5)]⟩) { now := .int 0 }
    let remark : Step Value := .submit ⟨"root", "System", "remark", .absent, .null⟩
    let run := (tardy.run [⟨"one", [remark]⟩,
      ⟨"two", [.barrier ⟨"root", none, .null⟩, .pause (.int (-1)), remark]⟩]).runOn s
    ((History.notices run.2.world.journal).map Notice.line).filter (·.1 != .debug) =
      [(.info, "one..."), (.info, "root -> System.remark (nonce 5)"), (.success, "one...Done"),
        (.info, "two..."), (.warning, "Timed out after 1s waiting for nonce 6 on a"),
        (.error, "two: failed at step 2/3 (Pause(seconds=-1))")] := by
  decide +kernel

end Script

end Campaign
