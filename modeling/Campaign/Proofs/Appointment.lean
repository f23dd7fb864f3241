import Campaign.Node.Sequential
import Campaign.Plan.Sale
import Campaign.Proofs.Walk

/-!
# The overlord waits for its appointment

The preparation funds the overlord, appoints it with the highest rights, and then acts as it.  The
node may do anything meanwhile: refuse, fail, or answer reads with whatever nonces.  What holds all
the same is that nothing is done as the overlord before `Appointed`: root's transfer and its
appointment of the overlord were taken, and after that root's nonce on chain was read to be past the
appointment's.

The first part says under which role an attempt is announced (`submit_announces`).  The four steps
of the appointment are then taken one after the other, and since `Appointed` stays true in a history
that goes on, the later phases need no look at all.
-/

namespace Campaign

open Act History

variable {ν τ : Type}

namespace History

/-- The role under which an extrinsic was announced last: the step that is under way is a step of
this role. -/
def announced? : History τ → Option Value
  | [] => none
  | x :: earlier => x.sender?.or (announced? earlier)

theorem mem_of_announced? {role : Value} : ∀ {h : History τ}, announced? h = some role →
    ∃ x ∈ h, x.sender? = some role := by
  intro h
  induction h with
  | nil => exact fun hr => nomatch hr
  | cons x h ih =>
    intro hr
    rw [announced?, Option.or_eq_some_iff] at hr
    rcases hr with hx | ⟨-, hr⟩
    · exact ⟨x, by simp, hx⟩
    · obtain ⟨y, hy, hsender⟩ := ih hr
      exact ⟨y, by simp [hy], hsender⟩

end History

namespace Script

variable {script : Script ν τ}

/-- An attempt is announced under the role of its step. -/
theorem submit_announces {x : Submit} {s t : Session ν τ} {out : Except Fault (Option String)}
    (h : (script.submit x).runOn s = (out, t)) {later earlier : History τ} {y : Event τ}
    {e : Extrinsic} (hsplit : t.world.journal = later ++ y :: earlier)
    (hafter : s.world.journal <:+ earlier) (hy : y.attempt? = some e) :
    announced? earlier = some x.account := by
  obtain ⟨m, -, ⟨-, _, _, _, _, -, -, hready⟩, ⟨_, -, rfl⟩ | ⟨_, -, rfl⟩⟩ :=
    submit_attempt h hsplit hafter hy
  · rw [hready]
    rfl
  · rw [hready]
    rfl

section

variable [Seconds τ]

/-- Steps that end well have all ended well. -/
theorem runSteps_ok {phase : Phase τ} {index : Nat} {step : Step τ} {rest : List (Step τ)}
    {s t : Session ν τ} (h : (script.runSteps phase index (step :: rest)).runOn s = (.ok (), t)) :
    ∃ r m, (script.execute step).runOn s = (.ok r, m) ∧
      (script.runSteps phase (index + 1) rest).runOn m = (.ok (), t) := by
  rw [runSteps_cons] at h
  rcases hstep : (script.execute step).runOn s with ⟨f | r, m⟩
  · rw [hstep] at h
    obtain ⟨hf, -⟩ := Prod.mk.inj h
    cases hf
  · rw [hstep] at h
    exact ⟨r, m, rfl, h⟩

end

end Script

/-! ### The appointment -/

section

variable {script : Script ν τ} {pallets : Pallets} {p : Plan.Preparation}

/-- **The overlord's appointment is confirmed**: root's transfer was taken, then its appointment of
the overlord with the highest rights, and after that a read of root's nonce has shown one past the
appointment's. -/
def Appointed (script : Script ν τ) (pallets : Pallets) (p : Plan.Preparation) (h : History τ) :
    Prop :=
  ∃ overlord funding paid e inner answer r, ∃ hash hash' : Option String,
    script.address "overlord" = .ok overlord ∧ Amount.ofValue p.funding = .ok funding ∧
    script.address "root" = .ok paid.address ∧ script.address "root" = .ok e.address ∧
    answer.bind Client.nonceOf = .ok r ∧ e.nonce + 1 ≤ r ∧
    [.look e.address answer,
      .submitted e (.ok hash'),
      .composed "Sudo" "sudo" (.object [("call", inner)]) (.ok e.call),
      .composed pallets.sale "set_overlord" (.object [("new_overlord", .text overlord)])
        (.ok inner),
      .submitted paid (.ok hash),
      .composed "Balances" "transfer" (.object [("dest", .text overlord), ("value", .int funding)])
        (.ok paid.call)].Sublist h

theorem Appointed.mono {h g : History τ} (happ : Appointed script pallets p h) (hhg : h <:+ g) :
    Appointed script pallets p g := by
  obtain ⟨overlord, funding, paid, e, inner, answer, r, hash, hash', h₁, h₂, h₃, h₄, h₅, h₆,
    hsub⟩ := happ
  exact ⟨overlord, funding, paid, e, inner, answer, r, hash, hash', h₁, h₂, h₃, h₄, h₅, h₆,
    hsub.trans hhg.sublist⟩

/-- Under the overlord's name nothing happens before its appointment. -/
def OverlordWaits (script : Script ν τ) (pallets : Pallets) (p : Plan.Preparation)
    (h : History τ) : Prop :=
  Each (fun x earlier => announced? (x :: earlier) = some "overlord" →
    Appointed script pallets p earlier) h

theorem overlordWaits_of_root {h : History τ} (hroot : ∀ x ∈ h, x.Under "root") :
    OverlordWaits script pallets p h := by
  rintro later x earlier rfl hannounced
  obtain ⟨y, hy, hsender⟩ := mem_of_announced? hannounced
  have := hroot y (List.mem_append_right _ hy) _ hsender
  simp at this

/-- After the appointment, whatever happens is after the appointment. -/
theorem OverlordWaits.of_suffix {h g : History τ} (hwaits : OverlordWaits script pallets p h)
    (happ : Appointed script pallets p h) (hhg : h <:+ g) : OverlordWaits script pallets p g := by
  obtain ⟨new, rfl⟩ := hhg
  induction new with
  | nil => exact hwaits
  | cons x new ih => exact each_cons.mpr ⟨fun _ => happ.mono (List.suffix_append new h), ih⟩

theorem preparation_ok {phases : List (Phase τ)}
    (h : Plan.preparation script.accounts pallets p = .ok phases) :
    ∃ overlord funding, script.address "overlord" = .ok overlord ∧
      Amount.ofValue p.funding = .ok funding ∧
      phases = [Plan.appointment pallets overlord funding, Plan.opening pallets,
        Plan.collections pallets p.spiritCollection p.shellCollection] := by
  unfold Plan.preparation Plan.keyOf at h
  rcases hkey : script.accounts.key? "overlord" with f | _ | key
  · rw [hkey] at h
    cases h
  · rw [hkey] at h
    cases h
  · rw [hkey] at h
    have haddr : script.address "overlord" = .ok key.address := by
      rw [Script.address, Script.key, hkey]
      rfl
    cases hfunding : Amount.ofValue p.funding with
    | error f =>
      rw [hfunding] at h
      cases h
    | ok funding =>
      rw [hfunding] at h
      exact ⟨key.address, funding, haddr, rfl, (Except.ok.inj h).symm⟩

variable [Seconds τ]

theorem appointed_of_steps {overlord : String} {funding : Int} {phase : Phase τ} {index : Nat}
    {s t : Session ν τ} (hoverlord : script.address "overlord" = .ok overlord)
    (hfunding : Amount.ofValue p.funding = .ok funding)
    (h : (script.runSteps phase index
      (Plan.appointment (τ := τ) pallets overlord funding).steps).runOn s = (.ok (), t)) :
    Appointed script pallets p t.world.journal := by
  obtain ⟨_, s₁, htransfer, h⟩ := Script.runSteps_ok h
  obtain ⟨_, s₂, hwait, h⟩ := Script.runSteps_ok h
  obtain ⟨_, s₃, happoint, h⟩ := Script.runSteps_ok h
  obtain ⟨_, s₄, hstrict, h⟩ := Script.runSteps_ok h
  obtain ⟨-, rfl⟩ := Prod.mk.inj h
  obtain ⟨hash, htransfer⟩ := Script.execute_submit_ok htransfer
  obtain ⟨hash', happoint⟩ := Script.execute_submit_ok happoint
  obtain ⟨_, hwait⟩ := Script.execute_barrier_ok hwait
  obtain ⟨_, hstrict⟩ := Script.execute_barrier_ok hstrict
  obtain ⟨paid, params, events, before, _, hroot, hparams, hevents, -, -, hjournal₁⟩ :=
    Script.submit_ok htransfer
  obtain ⟨e, params', events', before', _, hroot', hparams', hevents', hbefore', hnext,
    hjournal₃⟩ := Script.submit_ok happoint
  obtain ⟨a, target, answer, r, before'', ha, htarget, hr, hle, hbefore'', hjournal₄⟩ :=
    Script.strict_wait_ok rfl hstrict
  obtain rfl := Except.ok.inj hparams
  obtain rfl := Except.ok.inj hparams'
  obtain ⟨inner, rfl⟩ := hevents'
  have hevents : events = _ := hevents
  subst hevents
  obtain rfl : e.address = a := by simpa [ha] using hroot'.symm
  obtain rfl : target = e.nonce + 1 := by simpa [htarget] using hnext
  have hpaid : [.submitted paid (.ok hash), .composed "Balances" "transfer"
      (.object [("dest", .text overlord), ("value", .int funding)]) (.ok paid.call)].Sublist
        s₁.world.journal := by
    rw [hjournal₁]
    exact .cons _ (.cons_cons _ (.cons _ (.cons _ (.cons_cons _ (List.nil_sublist _)))))
  have hsuffix : s₁.world.journal <:+ s₂.world.journal :=
    ((Script.quiet_wait _).of_runOn hwait).suffix
  refine ⟨overlord, funding, paid, e, inner, answer, r, hash, hash', hoverlord, hfunding, hroot,
    hroot', hr, hle, ?_⟩
  rw [hjournal₄]
  refine .cons _ (.cons_cons _ (List.Sublist.trans ?_ hbefore''.sublist))
  rw [hjournal₃]
  refine .cons _ (.cons_cons _ (.cons _ (.cons _ (.cons_cons _ (.cons_cons _ ?_)))))
  exact (hpaid.trans hsuffix.sublist).trans hbefore'.sublist

/-- What the appointment announces, it announces under root's name. -/
theorem under_root_of_appointment (overlord : String) (funding : Int) :
    Keeps (Session.Adds (Event.Under "root"))
      (script.runPhase (Plan.appointment (τ := τ) pallets overlord funding)) := by
  have hquiet : ∀ x : Event τ, x.Quiet → x.Under "root" := fun x hx => (hx.leads "root").2
  refine keeps_bind (adds_inWorld (adds_note (hquiet _ ⟨rfl, rfl⟩))) fun _ => ?_
  refine keeps_bind ?_ fun _ => adds_inWorld (adds_note (hquiet _ ⟨rfl, rfl⟩))
  refine Script.keeps_runSteps (fun n s plain => Session.adds_noted s ?_) _ _ _ ?_
  · exact fun r hr => by rw [plain.1] at hr; cases hr
  · intro step hstep
    refine Script.adds_execute hquiet fun x hx => ?_
    have hroot : x.account = "root" := by
      subst hx
      simp only [Plan.appointment, Plan.call, Plan.wait, List.mem_cons, Step.submit.injEq,
        List.not_mem_nil, reduceCtorEq, or_false, false_or] at hstep
      rcases hstep with rfl | rfl <;> rfl
    rw [← hroot]
    exact Script.adds_submit x

theorem appointed_of_phase {overlord : String} {funding : Int} {s t : Session ν τ}
    (hoverlord : script.address "overlord" = .ok overlord)
    (hfunding : Amount.ofValue p.funding = .ok funding)
    (h : (script.runPhase (Plan.appointment (τ := τ) pallets overlord funding)).runOn s =
      (.ok (), t)) : Appointed script pallets p t.world.journal := by
  obtain ⟨_, m, -, h⟩ := ok_of_bind h
  obtain ⟨_, m', hsteps, h⟩ := ok_of_bind h
  rw [Session.runOn_inWorld] at h
  obtain ⟨-, rfl⟩ := Prod.mk.inj h
  exact (appointed_of_steps hoverlord hfunding hsteps).mono (List.suffix_cons _ _)

theorem overlordWaits_of_play {n : ν} {c : Clock τ} {out : Except Fault Nat} {t : Session ν τ}
    (h : (Command.play script (Plan.preparation script.accounts pallets p)).runOn (.fresh n c) =
      (out, t)) :
    OverlordWaits script pallets p t.world.journal := by
  -- as long as everything is announced under root's name, there is nothing to show
  have hroot : ∀ m : Session ν τ, Session.Adds (Event.Under "root") (.fresh n c) m →
      OverlordWaits script pallets p m.world.journal := by
    rintro m ⟨new, hnew, hunder⟩
    rw [hnew]
    exact overlordWaits_of_root (by simpa [Session.fresh] using hunder)
  have hstart : Keeps (Session.Adds (Event.Under "root")) script.start :=
    keeps_adds_mono (Script.adds_startRoles _ _) fun x hx => (hx.leads "root").2
  rcases Script.play_cases h with ⟨f, hs, -⟩ |
    ⟨started, s₁, hs₁, ⟨f, -, rfl, -⟩ | ⟨ps, sent, hprep, hrun, -⟩⟩
  · exact hroot t (hstart.of_runOn hs)
  · exact hroot _ (hstart.of_runOn hs₁)
  · obtain ⟨overlord, funding, hoverlord, hfunding, rfl⟩ := preparation_ok hprep
    have hphase : Keeps (Session.Adds (Event.Under "root"))
        (script.runPhase (Plan.appointment pallets overlord funding)) :=
      under_root_of_appointment overlord funding
    rcases bind_cases hrun with ⟨_, s₂, hs₂, hrest⟩ | ⟨f, hs₂, -⟩
    · refine (hroot s₂ (trans_of (Session.Adds _) (hstart.of_runOn hs₁)
        (hphase.of_runOn hs₂))).of_suffix ?_ (Script.walk_run hrest).suffix
      exact appointed_of_phase hoverlord hfunding hs₂
    · exact hroot t (trans_of (Session.Adds _) (hstart.of_runOn hs₁) (hphase.of_runOn hs₂))

/-- **The overlord never acts before its appointment is confirmed**, with any node, however the run
ends.  If the first phase fails, the run ends with it; and what a step attempts is announced under
the role of the step. -/
theorem Plan.overlord_waits (n : ν) (c : Clock τ) {out : Except Fault Nat} {t : Session ν τ}
    (h : (Command.play script (Plan.preparation script.accounts pallets p)).runOn (.fresh n c) =
      (out, t)) :
    OverlordWaits script pallets p t.world.journal ∧
      ((∃ x ∈ t.world.journal, x.sender? = some "overlord") →
        Appointed script pallets p t.world.journal) ∧
      (∀ started s₁ first rest, script.start.runOn (.fresh n c) = (.ok started, s₁) →
        Plan.preparation script.accounts pallets p = .ok (first :: rest) →
        ∀ result m, (script.runPhase first).runOn s₁ = (result, m) →
          (∀ f, result = .error f → out = .error f ∧ t = m) ∧
          (result = .ok () → Appointed script pallets p m.world.journal)) ∧
      ∀ x s s' result, (script.submit x).runOn s = (result, s') →
        ∀ later y earlier e, s'.world.journal = later ++ y :: earlier →
          s.world.journal <:+ earlier → y.attempt? = some e →
            announced? earlier = some x.account := by
  have hwaits := overlordWaits_of_play h
  refine ⟨hwaits, ?_, ?_, fun x s s' result hx later y earlier e hsplit hafter hy =>
    Script.submit_announces hx hsplit hafter hy⟩
  · rintro ⟨x, hx, hsender⟩
    obtain ⟨later, earlier, hsplit⟩ := List.append_of_mem hx
    have happ : Appointed script pallets p earlier :=
      hwaits later x earlier hsplit (by rw [announced?, hsender]; rfl)
    rw [hsplit]
    exact happ.mono ((List.suffix_cons x earlier).trans (List.suffix_append later _))
  · intro started s₁ first rest hs₁ hprep result m hm
    obtain ⟨overlord, funding, hoverlord, hfunding, hphases⟩ := preparation_ok hprep
    obtain ⟨rfl, rfl⟩ := List.cons.inj hphases
    refine ⟨fun f hf => ?_, fun hok => ?_⟩
    · subst hf
      rcases Script.play_cases h with ⟨g, hs, -⟩ |
        ⟨started', s, hs, ⟨g, hg, -, -⟩ | ⟨ps, sent, hps, hrun, rfl⟩⟩
      · rw [hs₁] at hs
        cases hs
      · rw [hprep] at hg
        cases hg
      · obtain ⟨-, rfl⟩ := Prod.mk.inj (hs₁.symm.trans hs)
        obtain rfl := Except.ok.inj (hprep.symm.trans hps)
        rw [Script.run, runOn_bind_error hm] at hrun
        obtain ⟨rfl, rfl⟩ := Prod.mk.inj hrun
        exact ⟨rfl, rfl⟩
    · subst hok
      exact appointed_of_phase hoverlord hfunding hm

/-- Root and the overlord, on a node that includes at once. -/
def Plan.ordinary : Script Sequential.State Value where
  node := Sequential.node {}
  accounts := ⟨[("root", ⟨"a", true⟩), ("overlord", ⟨"b", true⟩)]⟩
  barrierTimeout := .int 1
  pollInterval := .int 1

set_option maxRecDepth 10000 in
/-- A preparation that goes through: two extrinsics of root's, then seven of the overlord's. -/
theorem Plan.overlord_waits_ordinary :
    let t := ((Command.play ordinary (preparation ordinary.accounts {} {})).runOn
      (.fresh (.ofNonces ⟨[("a", 5)]⟩) { now := .int 0 })).2
    OverlordWaits ordinary {} {} t.world.journal ∧
      (accepted "a" t.world.journal).map Extrinsic.nonce = [5, 6] ∧
      (accepted "b" t.world.journal).map Extrinsic.nonce = [0, 1, 2, 3, 4, 5, 6] := by
  refine ⟨(overlord_waits _ _ rfl).1, ?_, ?_⟩ <;> decide +kernel

end

end Campaign
