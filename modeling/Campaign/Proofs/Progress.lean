import Campaign.Proofs.Accounting
import Campaign.Proofs.Ledger
import Campaign.Proofs.Walk
import Mathlib.Data.List.Forall2

/-!
# A run follows its plan

The submissions of a run are those of its steps, in order: `Follows` says how far a plan has been
carried out.  What the node has taken is a prefix of the plan, and at most one submission more was
handed in, which the node did not take.  One submission is looked at in `submit_offers`, and
`Walk.follows` goes through the steps.  A walk that ends well has carried out its whole plan, and
each of its strict barriers has seen the nonce that was due (`Walk.sees`).
-/

namespace Campaign

open Act History

variable {ν τ : Type}

/-- The nonce that is due for an address: the one that it was last tracked from, moved on by each
extrinsic that was taken. -/
def History.due? (a : String) (h : History τ) : Option Int :=
  (base? a h).map (· + ((accepted a h).length : Int))

namespace Script

variable {script : Script ν τ}

/-! ### Offers -/

/-- A step was offered to the node: its extrinsic was made ready, signed, and handed in with some
answer. -/
def Offers (script : Script ν τ) (h : History τ) (x : Submit) (e : Extrinsic)
    (answer : Except Fault (Option String)) : Prop :=
  ∃ later ready, script.Readies x e ready ∧
    h = later ++ .submitted e answer :: .signed e (.ok ()) :: ready

theorem Offers.mono {h g : History τ} {x : Submit} {e : Extrinsic}
    {answer : Except Fault (Option String)} (hoffer : script.Offers h x e answer) (hhg : h <:+ g) :
    script.Offers g x e answer := by
  obtain ⟨later, ready, hready, rfl⟩ := hoffer
  obtain ⟨more, rfl⟩ := hhg
  exact ⟨more ++ later, ready, hready, (List.append_assoc ..).symm⟩

/-- The node has taken the extrinsic of a step. -/
def Takes (script : Script ν τ) (h : History τ) (x : Submit) (e : Extrinsic) : Prop :=
  ∃ hash, script.Offers h x e (.ok hash)

theorem takes_mono {h g : History τ} (hhg : h <:+ g) {xs : List Submit} {es : List Extrinsic}
    (htakes : List.Forall₂ (script.Takes h) xs es) : List.Forall₂ (script.Takes g) xs es :=
  htakes.imp fun _ _ ⟨hash, hoffer⟩ => ⟨hash, hoffer.mono hhg⟩

theorem gathered_of_attempt? {h : History τ} (hnone : ∀ x ∈ h, x.attempt? = none) :
    taken h = [] ∧ handed h = [] :=
  ⟨gathered_of_none fun x hx => Event.accepted?_of_attempt? (hnone x hx),
    gathered_of_none fun x hx => Event.handed?_of_attempt? (hnone x hx)⟩

/-- **What one submission hands in**: its extrinsic, which is taken if the submission ends well, and
then the next nonce is tracked; and not taken otherwise, or nothing at all. -/
theorem submit_offers {x : Submit} {s t : Session ν τ} {out : Except Fault (Option String)}
    (h : (script.submit x).runOn s = (out, t)) :
    ∃ new, t.world.journal = new ++ s.world.journal ∧
      ((∃ hash e, out = .ok hash ∧ taken new = [e] ∧ handed new = [e] ∧
          script.Takes t.world.journal x e ∧
          t.nonces.get? (.text e.address) = some (e.nonce + 1)) ∨
        ∃ f, out = .error f ∧ taken new = [] ∧
          (handed new = [] ∨
            ∃ e g, handed new = [e] ∧ script.Offers t.world.journal x e (.error g))) := by
  rw [submit_eq] at h
  rcases bind_cases h with ⟨e, m, hprep, hsend⟩ | ⟨f, hprep, rfl⟩
  · obtain ⟨new, hnew, hleads⟩ := (adds_prepare x).of_runOn hprep
    obtain ⟨htaken, hhanded⟩ := gathered_of_attempt? fun y hy => (hleads y hy).1
    have hready : script.Readies x e m.world.journal := readies_of_prepare hprep
    rcases send_cases (prepare_ok hprep).2.1 hsend with ⟨f, n, -, rfl, rfl⟩ |
      ⟨n, -, ⟨f, n', -, rfl, rfl⟩ | ⟨hash, n', -, rfl, rfl⟩⟩
    · refine ⟨.signed e (.error f) :: new, congrArg (_ :: ·) hnew, Or.inr ⟨f, rfl, ?_, Or.inl ?_⟩⟩
      · simp [taken, gathered, htaken, Event.accepted?]
      · simp [handed, gathered, hhanded, Event.handed?]
    · refine ⟨.submitted e (.error f) :: .signed e (.ok ()) :: new, congrArg (_ :: _ :: ·) hnew,
        Or.inr ⟨_, rfl, ?_, Or.inr ⟨e, f, ?_, [], _, hready, rfl⟩⟩⟩
      · simp [taken, gathered, htaken, Event.accepted?]
      · simp [handed, gathered, hhanded, Event.handed?]
    · have htakes : script.Takes _ x e :=
        ⟨hash, [.noticed (.submitted hash e.nonce)], _, hready, rfl⟩
      refine ⟨.noticed (.submitted hash e.nonce) :: .submitted e (.ok hash) ::
        .signed e (.ok ()) :: new, congrArg (_ :: _ :: _ :: ·) hnew,
        Or.inl ⟨hash, e, rfl, ?_, ?_, htakes, ?_⟩⟩
      · simp [taken, gathered, htaken, Event.accepted?]
      · simp [handed, gathered, hhanded, Event.handed?]
      · rw [Session.taking, Tracker.get?_put_text, if_pos rfl]
  · obtain ⟨new, hnew, hleads⟩ := (adds_prepare x).of_runOn hprep
    obtain ⟨htaken, hhanded⟩ := gathered_of_attempt? fun y hy => (hleads y hy).1
    exact ⟨new, hnew, Or.inr ⟨f, rfl, htaken, Or.inl hhanded⟩⟩

/-! ### Following a plan -/

/-- **How far a plan has been carried out** in the new part of a history: the extrinsics that were
taken are those of the first steps of the plan, in order, and at most one more was handed in, for
the next step, which the node did not take. -/
structure Follows (script : Script ν τ) (plan done : List Submit) (h new : History τ) : Prop where
  isPrefix : done <+: plan
  takes : List.Forall₂ (script.Takes h) done (taken new)
  hands : handed new = taken new ∨ ∃ x e f, done ++ [x] <+: plan ∧
    handed new = taken new ++ [e] ∧ script.Offers h x e (.error f)

namespace Follows

variable {plan : List Submit} {h g : History τ}

/-- Where nothing is attempted, nothing of a plan is done. -/
theorem nothing {new : History τ} (hnone : ∀ x ∈ new, x.attempt? = none) :
    script.Follows plan [] h new := by
  obtain ⟨htaken, hhanded⟩ := gathered_of_attempt? hnone
  exact ⟨List.nil_prefix, by rw [htaken]; exact .nil, Or.inl (hhanded.trans htaken.symm)⟩

theorem mono {done : List Submit} {new : History τ} (hfollows : script.Follows plan done h new)
    (hhg : h <:+ g) : script.Follows plan done g new where
  isPrefix := hfollows.isPrefix
  takes := takes_mono hhg hfollows.takes
  hands := hfollows.hands.imp_right fun ⟨x, e, f, hx, he, hoffer⟩ =>
    ⟨x, e, f, hx, he, hoffer.mono hhg⟩

/-- A plan that goes on after a part that was carried out. -/
theorem append {more done : List Submit} {new new' : History τ}
    (first : script.Follows plan plan h new) (rest : script.Follows more done g new')
    (hhg : h <:+ g) : script.Follows (plan ++ more) (plan ++ done) g (new' ++ new) := by
  -- a part that was carried out has nothing that was not taken
  have hfirst : handed new = taken new := by
    rcases first.hands with hsame | ⟨x, e, f, hx, -⟩
    · exact hsame
    · have hlength := hx.length_le
      rw [List.length_append, List.length_singleton] at hlength
      omega
  refine ⟨(List.prefix_append_right_inj plan).mpr rest.isPrefix, ?_, ?_⟩
  · rw [taken_append]
    exact List.rel_append (takes_mono hhg first.takes) rest.takes
  · rw [taken_append, handed_append]
    rcases rest.hands with hsame | ⟨x, e, f, hx, he, hoffer⟩
    · exact Or.inl (congrArg₂ _ hfirst hsame)
    · refine Or.inr ⟨x, e, f, ?_, ?_, hoffer⟩
      · rw [List.append_assoc]
        exact (List.prefix_append_right_inj plan).mpr hx
      · rw [List.append_assoc]
        exact congrArg₂ _ hfirst he

/-- No more is handed in than a plan has. -/
theorem length_handed {done : List Submit} {new : History τ}
    (hfollows : script.Follows plan done h new) : (handed new).length ≤ plan.length := by
  have htaken : done.length = (taken new).length := hfollows.takes.length_eq
  rcases hfollows.hands with hsame | ⟨x, e, f, hx, he, -⟩
  · rw [hsame, ← htaken]
    exact hfollows.isPrefix.length_le
  · rw [he, List.length_append, ← htaken, List.length_singleton]
    simpa using hx.length_le

/-- What is quiet does not count. -/
theorem with_quiet {done : List Submit} {new quiet : History τ}
    (hfollows : script.Follows plan done h new) (hnone : ∀ x ∈ quiet, x.attempt? = none) :
    script.Follows plan done h (quiet ++ new) := by
  obtain ⟨htaken, hhanded⟩ := gathered_of_attempt? hnone
  have htaken : taken (quiet ++ new) = taken new := by
    rw [taken_append, htaken, List.append_nil]
  have hhanded : handed (quiet ++ new) = handed new := by
    rw [handed_append, hhanded, List.append_nil]
  refine ⟨hfollows.isPrefix, ?_, ?_⟩
  · rw [htaken]
    exact hfollows.takes
  · rw [htaken, hhanded]
    exact hfollows.hands

/-- What came before without attempts does not count either. -/
theorem without_quiet {done : List Submit} {new quiet : History τ}
    (hfollows : script.Follows plan done h (new ++ quiet))
    (hnone : ∀ x ∈ quiet, x.attempt? = none) : script.Follows plan done h new := by
  obtain ⟨htaken, hhanded⟩ := gathered_of_attempt? hnone
  have htaken : taken (new ++ quiet) = taken new := by
    rw [taken_append, htaken, List.nil_append]
  have hhanded : handed (new ++ quiet) = handed new := by
    rw [handed_append, hhanded, List.nil_append]
  refine ⟨hfollows.isPrefix, ?_, ?_⟩
  · rw [← htaken]
    exact hfollows.takes
  · rw [← htaken, ← hhanded]
    exact hfollows.hands

/-- What is left of a plan does not matter to what was done. -/
theorem of_prefix {longer done : List Submit} {new : History τ}
    (hfollows : script.Follows plan done h new) (hplan : plan <+: longer) :
    script.Follows longer done h new where
  isPrefix := hfollows.isPrefix.trans hplan
  takes := hfollows.takes
  hands := hfollows.hands.imp_right fun ⟨x, e, f, hx, hrest⟩ => ⟨x, e, f, hx.trans hplan, hrest⟩

end Follows

/-- The submissions of some steps. -/
def submissions (steps : List (Step τ)) : List Submit :=
  steps.flatMap fun step => step.submit?.toList

/-! ### Strict barriers -/

/-- **A barrier has seen its target reached**: once the submissions before it had all been taken, a
read of its account has answered with the nonce that was due then, or more. -/
def Sees (script : Script ν τ) (before : List Submit) (b : Barrier τ) (h : History τ) : Prop :=
  ∃ a target answer r start looked later, script.address b.account = .ok a ∧
    due? a start = some target ∧ answer.bind Client.nonceOf = .ok r ∧ target ≤ r ∧
    List.Forall₂ (script.Takes start) before (taken start) ∧ start <:+ looked ∧
    h = later ++ .noticed (.reached (.int target) (.text a)) :: .look a answer :: looked

theorem Sees.mono {before : List Submit} {b : Barrier τ} {h g : History τ}
    (hsees : script.Sees before b h) (hhg : h <:+ g) : script.Sees before b g := by
  obtain ⟨a, target, answer, r, start, looked, later, haddr, hdue, hr, hle, htakes, hstart, rfl⟩ :=
    hsees
  obtain ⟨more, rfl⟩ := hhg
  exact ⟨a, target, answer, r, start, looked, more ++ later, haddr, hdue, hr, hle, htakes, hstart,
    (List.append_assoc ..).symm⟩

/-! ### Whole histories -/

/-- **What some phases have come to in a whole history**: the extrinsics follow their plan, and if
it is `complete`, the plan was carried out and every strict barrier has seen its target. -/
def Carries (script : Script ν τ) (phases : List (Phase τ)) (complete : Prop) (h : History τ) :
    Prop :=
  ∃ done, script.Follows (submissions (phases.flatMap Phase.steps)) done h h ∧
    (complete → done = submissions (phases.flatMap Phase.steps) ∧
      ∀ before b after, phases.flatMap Phase.steps = before ++ .barrier b :: after →
        b.strict.truthy = true → script.Sees (submissions before) b h)

theorem Carries.mono {phases : List (Phase τ)} {complete less : Prop} {h g : History τ}
    (hcarries : script.Carries phases complete h) (hless : less → complete)
    (hgrow : History.Grows (fun x => x.attempt? = none) h g) :
    script.Carries phases less g := by
  obtain ⟨done, hfollows, hwhole⟩ := hcarries
  obtain ⟨new, rfl, hnone⟩ := hgrow
  refine ⟨done, (hfollows.mono (List.suffix_append new h)).with_quiet hnone, fun hc => ?_⟩
  obtain ⟨hdone, hsees⟩ := hwhole (hless hc)
  exact ⟨hdone, fun before b after hsteps hstrict =>
    (hsees before b after hsteps hstrict).mono (List.suffix_append new h)⟩

/-! ### Walks -/

variable [Seconds τ]

/-- One step does its part of the plan, if it ends well. -/
theorem execute_follows {step : Step τ} {s t : Session ν τ} {out : Except Fault Result}
    (h : (script.execute step).runOn s = (out, t)) :
    ∃ new done, t.world.journal = new ++ s.world.journal ∧
      script.Follows step.submit?.toList done t.world.journal new ∧
        ∀ r, out = .ok r → done = step.submit?.toList := by
  by_cases hsubmit : ∃ x, step = .submit x
  · obtain ⟨x, rfl⟩ := hsubmit
    rcases bind_cases h with ⟨hash, m, hx, h⟩ | ⟨f, hx, rfl⟩
    · obtain ⟨-, rfl⟩ := Prod.mk.inj h
      obtain ⟨new, hnew, ⟨_, e, -, htaken, hhanded, htakes, -⟩ | ⟨f, hf, -⟩⟩ := submit_offers hx
      · refine ⟨new, [x], hnew, ⟨List.prefix_rfl, ?_, ?_⟩, fun _ _ => rfl⟩
        · rw [htaken]
          exact .cons htakes .nil
        · exact Or.inl (hhanded.trans htaken.symm)
      · cases hf
    · obtain ⟨new, hnew, ⟨hash', e, hok, -⟩ | ⟨g, -, htaken, hhanded⟩⟩ := submit_offers hx
      · cases hok
      · refine ⟨new, [], hnew, ⟨List.nil_prefix, ?_, ?_⟩, fun r hr => nomatch hr⟩
        · rw [htaken]
          exact .nil
        · rw [htaken]
          exact hhanded.imp_right fun ⟨e, g, he, hoffer⟩ => ⟨x, e, g, List.prefix_rfl, he, hoffer⟩
  · obtain ⟨new, hnew, hnone⟩ := (quiet_execute hsubmit).of_runOn h
    have hplan : step.submit?.toList = [] := by
      cases step with
      | submit x => exact absurd ⟨x, rfl⟩ hsubmit
      | _ => rfl
    rw [hplan]
    exact ⟨new, [], hnew, .nothing fun x hx => (hnone x hx).1, fun _ _ => rfl⟩

theorem Walk.moves {steps : List (Step τ)} {s t : Session ν τ} {out : Except Fault Unit}
    (h : Walk script steps s out t) : Session.Moves script.node s t :=
  h.keeps (fun n _ hn => .single (.note n hn.plain.2)) fun step _ => moves_execute step

/-- **A walk follows the plan of its steps**, to the end if it ends well. -/
theorem Walk.follows {steps : List (Step τ)} {s t : Session ν τ} {out : Except Fault Unit}
    (h : Walk script steps s out t) :
    ∃ new done, t.world.journal = new ++ s.world.journal ∧
      script.Follows (submissions steps) done t.world.journal new ∧
        (out = .ok () → done = submissions steps) := by
  induction h with
  | done => exact ⟨[], [], rfl, .nothing (by simp), fun _ => rfl⟩
  | @mark steps s t out n hn _ ih =>
    obtain ⟨new, done, hnew, hfollows, hdone⟩ := ih
    have hmark : script.Follows [] [] (s.noted n).world.journal [.noticed n] :=
      .nothing (by simpa using hn.quiet.1)
    have hwhole := hmark.append hfollows ⟨new, hnew.symm⟩
    rw [List.nil_append, List.nil_append] at hwhole
    refine ⟨new ++ [.noticed n], done, ?_, hwhole, hdone⟩
    rw [hnew, List.append_assoc]
    rfl
  | @step step steps s m t r out hstep _ ih =>
    obtain ⟨new, done, hnew, hfollows, hdone⟩ := ih
    obtain ⟨new₁, done₁, hnew₁, hfollows₁, hdone₁⟩ := execute_follows hstep
    obtain rfl := hdone₁ r rfl
    refine ⟨new ++ new₁, _, ?_, hfollows₁.append hfollows ⟨new, hnew.symm⟩, fun hok => ?_⟩
    · rw [hnew, hnew₁, List.append_assoc]
    · rw [hdone hok]
      rfl
  | @stop step steps s m t f hstep ht =>
    obtain ⟨new, done, hnew, hfollows, -⟩ := execute_follows hstep
    have hfollows := hfollows.of_prefix (List.prefix_append _ (submissions steps))
    rcases ht with rfl | ⟨n, hn, rfl⟩
    · exact ⟨new, done, hnew, hfollows, fun hok => nomatch hok⟩
    · refine ⟨.noticed n :: new, done, congrArg (_ :: ·) hnew, ?_, fun hok => nomatch hok⟩
      have hnoted := hfollows.mono (List.suffix_cons (.noticed n) _)
      have hquiet : ∀ x ∈ [Event.noticed n], x.attempt? = none := by simpa using hn.quiet.1
      exact hnoted.with_quiet hquiet

/-- **In a walk that ends well, each strict barrier has seen its target reached.** -/
theorem Walk.sees {before after : List (Step τ)} {b : Barrier τ} {s t : Session ν τ}
    (h : Walk script (before ++ .barrier b :: after) s (.ok ()) t)
    (hstrict : b.strict.truthy = true) (acc : Accounted s.nonces s.world.journal)
    (hnone : taken s.world.journal = []) :
    script.Sees (submissions before) b t.world.journal := by
  obtain ⟨m, r, u, hbefore, hexec, hafter⟩ := h.ok_at
  obtain ⟨reached, hwait⟩ := execute_barrier_ok hexec
  obtain ⟨a, target, answer, n, looked, haddr, htarget, hn, hle, hlooked, hjournal⟩ :=
    strict_wait_ok hstrict hwait
  obtain ⟨new, done, hnew, hfollows, hdone⟩ := hbefore.follows
  obtain rfl := hdone rfl
  have htaken : taken m.world.journal = taken new := by
    rw [hnew, taken_append, hnone, List.nil_append]
  obtain ⟨later, hlater⟩ := hafter.suffix
  refine ⟨a, target, answer, n, m.world.journal, looked, later, haddr, ?_, hn, hle, ?_, hlooked, ?_⟩
  · rw [due?, ← (acc.moves hbefore.moves).tracked, htarget]
  · rw [htaken]
    exact hfollows.takes
  · rw [← hlater, hjournal]

/-- **A run carries its phases out**, up to where it ends, after a history without attempts. -/
theorem carries_of_run {phases : List (Phase τ)} {s t : Session ν τ}
    {out : Except Fault (List Sent)} (h : (script.run phases).runOn s = (out, t))
    (acc : Accounted s.nonces s.world.journal) (hnone : ∀ x ∈ s.world.journal, x.attempt? = none) :
    script.Carries phases (∃ sent, out = .ok sent) t.world.journal := by
  have hwalk := walk_run h
  obtain ⟨new, done, hnew, hfollows, hdone⟩ := hwalk.follows
  have hstart : script.Follows [] [] s.world.journal s.world.journal := .nothing hnone
  have hwhole := hstart.append hfollows ⟨new, hnew.symm⟩
  rw [← hnew] at hwhole
  refine ⟨done, hwhole, ?_⟩
  rintro ⟨sent, rfl⟩
  refine ⟨hdone rfl, fun before b after hsteps hstrict => ?_⟩
  rw [hsteps] at hwalk
  exact hwalk.sees hstrict acc (gathered_of_attempt? hnone).1

end Script

end Campaign
