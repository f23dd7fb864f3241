import Campaign.Proofs.Tracker
import Campaign.Proofs.Waiting

/-!
# What each step can do

One statement for each operation of a session: how it can end, and in which state.

* `startTracking_cases`: a read that fails changes nothing but the history; a good one is tracked.
* `submit_eq`: a submission prepares an extrinsic and sends it.  `prepare_ok` says what a good
  preparation has found out, `send_cases` that an extrinsic fails to be signed, is refused, or is
  taken, and that only in the last case the tracked nonce and the record move on.
* `wait_cases`: a barrier waits for the tracked nonce and changes the world alone.

`keeps_run` carries what all steps keep to the phases made of them.
-/

namespace Campaign

open Act

variable {ν τ : Type}

namespace Session

/-- A session at its beginning: nothing is tracked, and nothing has happened yet. -/
def fresh (n : ν) (c : Clock τ) : Session ν τ := { world := { node := n, clock := c } }

/-- The session after an operation of the node, which is written down. -/
def after (s : Session ν τ) (n : ν) (x : Event τ) : Session ν τ :=
  { s with world := s.world.after n x }

/-- The session with one notice more. -/
def noted (s : Session ν τ) (n : Notice τ) : Session ν τ := { s with world := s.world.noted n }

/-- The session that tracks an address from a nonce. -/
def tracking (s : Session ν τ) (a : String) (v : Int) : Session ν τ :=
  { s with
    world := s.world.noted (.nonceRead (.text a) v)
    nonces := s.nonces.put (.text a) v }

/-- The session that has noted that the node has taken an extrinsic. -/
def taking (s : Session ν τ) (e : Extrinsic) (role : Value) (call : String)
    (hash : Option String) : Session ν τ where
  world := s.world.noted (.submitted hash e.nonce)
  nonces := s.nonces.put (.text e.address) (e.nonce + 1)
  sent := s.sent ++ [⟨role, call, e.nonce, hash⟩]

theorem startTracking_cases {node : Node ν τ} {a : String} {s t : Session ν τ}
    {out : Except Fault Int} (h : (startTracking node (.text a)).runOn s = (out, t)) :
    ∃ answer n, (node.query s.world.clock.now "System" "Account" (.list [.text a])).runOn
        s.world.node = (answer, n) ∧
      ((∃ v, answer.bind Client.nonceOf = .ok v ∧ out = .ok v ∧
          t = (s.after n (.look a answer)).tracking a v) ∨
        ∃ f, answer.bind Client.nonceOf = .error f ∧ out = .error f ∧
          t = s.after n (.look a answer)) := by
  have hworld := runOn_inWorld (Client.accountNonce node (.text a)) s
  rcases hread : (Client.accountNonce node (.text a)).runOn s.world with ⟨r, w⟩
  rw [hread] at hworld
  obtain ⟨answer, n, hq, rfl, rfl⟩ := Client.accountNonce_cases hread
  refine ⟨answer, n, hq, ?_⟩
  cases hv : answer.bind Client.nonceOf with
  | ok v =>
    rw [hv] at hworld
    rw [startTracking, runOn_bind_ok hworld, runOn_bind_ok (runOn_track a v _),
      runOn_bind_ok (runOn_inWorld _ _)] at h
    obtain ⟨rfl, rfl⟩ := Prod.mk.inj h
    exact Or.inl ⟨v, rfl, rfl, rfl⟩
  | error f =>
    rw [hv] at hworld
    rw [startTracking, runOn_bind_error hworld] at h
    obtain ⟨rfl, rfl⟩ := Prod.mk.inj h
    exact Or.inr ⟨f, rfl, rfl, rfl⟩

end Session

namespace Script

variable {script : Script ν τ}

/-! ### Submissions -/

/-- The first part of a submission, up to the extrinsic. -/
def prepare (script : Script ν τ) (x : Submit) : Act (Session ν τ) Extrinsic := do
  let address ← Act.ofExcept (script.address x.account)
  script.ensureTracked address
  let params ← Act.ofExcept (x.params.resolve (← get).nonces)
  let call ← Session.inWorld (script.composeCall x params)
  let nonce ← Session.peekNonce address
  Session.inWorld (World.note (.sending x.account x.callName nonce))
  return { address, nonce, call }

/-- The second part of a submission: the extrinsic goes out and is recorded. -/
def send (script : Script ν τ) (x : Submit) (e : Extrinsic) :
    Act (Session ν τ) (Option String) := do
  let hash ← Session.inWorld (Client.submit script.node e)
  let _ ← Session.takeNonce e.address
  modify fun s => { s with sent := s.sent ++ [⟨x.account, x.callName, e.nonce, hash⟩] }
  return hash

theorem submit_eq (x : Submit) : script.submit x = script.prepare x >>= script.send x := by
  simp only [submit, prepare, send, bind_assoc, pure_bind]

theorem ensureTracked_cases {a : String} {s t : Session ν τ} {out : Except Fault Unit}
    (h : (script.ensureTracked a).runOn s = (out, t)) :
    (s.nonces.has (.text a) = true ∧ out = .ok () ∧ t = s) ∨
      (s.nonces.has (.text a) = false ∧ ∃ r,
        (Session.startTracking script.node (.text a)).runOn s = (r, t) ∧
          out = r.map fun _ => ()) := by
  rw [ensureTracked, runOn_bind_ok (runOn_get s)] at h
  cases hhas : s.nonces.has (.text a) with
  | true =>
    rw [hhas] at h
    obtain ⟨rfl, rfl⟩ := Prod.mk.inj h
    exact Or.inl ⟨rfl, rfl, rfl⟩
  | false =>
    rw [hhas] at h
    simp only [Bool.false_eq_true, if_false] at h
    rcases bind_cases h with ⟨v, m, hstart, h⟩ | ⟨f, hstart, rfl⟩
    · obtain ⟨rfl, rfl⟩ := Prod.mk.inj h
      exact Or.inr ⟨rfl, _, hstart, rfl⟩
    · exact Or.inr ⟨rfl, _, hstart, rfl⟩

/-- **What a good preparation has found out**: the extrinsic is signed by the role's account, and
carries the nonce that is tracked for it. -/
theorem prepare_ok {x : Submit} {e : Extrinsic} {s t : Session ν τ}
    (h : (script.prepare x).runOn s = (.ok e, t)) :
    script.address x.account = .ok e.address ∧ t.nonces.get? (.text e.address) = some e.nonce ∧
      ∃ m params w, (script.ensureTracked e.address).runOn s = (.ok (), m) ∧
        (script.composeCall x params).runOn m.world = (.ok e.call, w) ∧
        x.params.resolve m.nonces = .ok params ∧
        t = { m with world := w.noted (.sending x.account x.callName e.nonce) } := by
  obtain ⟨a, m₀, hrole, h⟩ := ok_of_bind h
  rw [runOn_ofExcept] at hrole
  obtain ⟨haddr, rfl⟩ := Prod.mk.inj hrole
  obtain ⟨u, m, htrack, h⟩ := ok_of_bind h
  rw [runOn_bind_ok (runOn_get m)] at h
  obtain ⟨params, m₁, hresolve, h⟩ := ok_of_bind h
  rw [runOn_ofExcept] at hresolve
  obtain ⟨hparams, rfl⟩ := Prod.mk.inj hresolve
  obtain ⟨call, m₂, hcompose, h⟩ := ok_of_bind h
  rw [Session.runOn_inWorld] at hcompose
  obtain ⟨hcall, rfl⟩ := Prod.mk.inj hcompose
  obtain ⟨nonce, m₃, hpeek, h⟩ := ok_of_bind h
  obtain ⟨hnonce, rfl⟩ := Session.peekNonce_ok hpeek
  rw [runOn_bind_ok (Session.runOn_inWorld _ _)] at h
  obtain ⟨he, rfl⟩ := Prod.mk.inj h
  obtain rfl := Except.ok.inj he
  exact ⟨haddr, hnonce, m, params, _, htrack, Prod.ext hcall rfl, hparams, rfl⟩

/-- **What sending an extrinsic can come to.**  It cannot be signed, or it is refused, and only the
world has changed; or it is taken, and the tracked nonce and the record move on with it. -/
theorem send_cases {x : Submit} {e : Extrinsic} {s t : Session ν τ}
    {out : Except Fault (Option String)} (due : s.nonces.get? (.text e.address) = some e.nonce)
    (h : (script.send x e).runOn s = (out, t)) :
    (∃ f n, (script.node.sign e).runOn s.world.node = (.error f, n) ∧ out = .error f ∧
        t = s.after n (.signed e (.error f))) ∨
      ∃ n, (script.node.sign e).runOn s.world.node = (.ok (), n) ∧
        ((∃ f n', (script.node.submit e).runOn n = (.error f, n') ∧
            out = .error (Client.rejection e f) ∧
            t = (s.after n (.signed e (.ok ()))).after n' (.submitted e (.error f))) ∨
          ∃ hash n', (script.node.submit e).runOn n = (.ok hash, n') ∧ out = .ok hash ∧
            t = ((s.after n (.signed e (.ok ()))).after n' (.submitted e (.ok hash))).taking e
              x.account x.callName hash) := by
  have hsign := World.runOn_call (fun _ => script.node.sign e) (Event.signed e) s.world
  rw [send] at h
  rcases hs : (script.node.sign e).runOn s.world.node with ⟨f | u, n⟩
  · rw [hs] at hsign
    have hclient : (Session.inWorld (Client.submit script.node e)).runOn s =
        (.error f, s.after n (.signed e (.error f))) := by
      rw [Session.runOn_inWorld, Client.submit, runOn_bind_error hsign]
      rfl
    rw [runOn_bind_error hclient] at h
    obtain ⟨rfl, rfl⟩ := Prod.mk.inj h
    exact Or.inl ⟨f, n, rfl, rfl, rfl⟩
  · rw [hs] at hsign
    refine Or.inr ⟨n, rfl, ?_⟩
    have htry := runOn_attempt (World.call (fun _ => script.node.submit e) (Event.submitted e))
      (s.world.after n (.signed e (.ok ())))
    rw [World.runOn_call] at htry
    rcases hsub : (script.node.submit e).runOn n with ⟨f | hash, n'⟩
    · have hclient : (Session.inWorld (Client.submit script.node e)).runOn s =
          (.error (Client.rejection e f),
            (s.after n (.signed e (.ok ()))).after n' (.submitted e (.error f))) := by
        simp only [World.after, hsub] at htry
        rw [Session.runOn_inWorld, Client.submit, runOn_bind_ok hsign]
        simp only [World.after]
        rw [runOn_bind_ok htry]
        rfl
      rw [runOn_bind_error hclient] at h
      obtain ⟨rfl, rfl⟩ := Prod.mk.inj h
      exact Or.inl ⟨f, n', rfl, rfl, rfl⟩
    · have hclient : (Session.inWorld (Client.submit script.node e)).runOn s =
          (.ok hash, ((s.after n (.signed e (.ok ()))).after n' (.submitted e (.ok hash))).noted
            (.submitted hash e.nonce)) := by
        simp only [World.after, hsub] at htry
        rw [Session.runOn_inWorld, Client.submit, runOn_bind_ok hsign]
        simp only [World.after]
        rw [runOn_bind_ok htry]
        rfl
      rw [runOn_bind_ok hclient, runOn_bind_ok (Session.runOn_takeNonce (by exact due)),
        runOn_bind_ok (runOn_modify _ _)] at h
      obtain ⟨rfl, rfl⟩ := Prod.mk.inj h
      exact Or.inr ⟨hash, n', rfl, rfl, rfl⟩

/-! ### Barriers -/

section

variable [Seconds τ]

/-- The wait of a barrier on its account. -/
def waitOn (script : Script ν τ) (b : Barrier τ) (a : String) (target : Int) :
    Act (World ν τ) Bool :=
  Client.waitForNonce script.node (.text a) (.int target) (b.timeout.getD script.barrierTimeout)
    script.pollInterval none

/-- What a barrier makes of the answer to its wait. -/
def verdict (script : Script ν τ) (b : Barrier τ) (target : Int) (reached : Bool) :
    Except Fault Bool :=
  if !reached && b.strict.truthy then
    .error (.barrierTimeout b.account.shown target
      (Seconds.text (b.timeout.getD script.barrierTimeout)))
  else .ok reached

@[simp] theorem verdict_true (b : Barrier τ) (target : Int) :
    script.verdict b target true = .ok true := rfl

@[simp] theorem verdict_false (b : Barrier τ) (target : Int) :
    script.verdict b target false =
      if b.strict.truthy then .error (.barrierTimeout b.account.shown target
        (Seconds.text (b.timeout.getD script.barrierTimeout)))
      else .ok false := by
  simp [verdict]

/-- **What a barrier can come to.**  For a role without account or an account without nonce nothing
happens; else the barrier waits for the tracked nonce, and only the world changes. -/
theorem wait_cases {b : Barrier τ} {s t : Session ν τ} {out : Except Fault Bool}
    (h : (script.wait b).runOn s = (out, t)) :
    (∃ f, script.address b.account = .error f ∧ out = .error f ∧ t = s) ∨
      ∃ a, script.address b.account = .ok a ∧
        ((s.nonces.get? (.text a) = none ∧ out = .error (.untracked a) ∧ t = s) ∨
          ∃ target polled w, s.nonces.get? (.text a) = some target ∧
            (script.waitOn b a target).runOn s.world = (polled, w) ∧ t = { s with world := w } ∧
              out = polled.bind (script.verdict b target)) := by
  rw [wait] at h
  cases haddr : script.address b.account with
  | error f =>
    rw [haddr, runOn_bind_error (runOn_ofExcept _ _)] at h
    obtain ⟨rfl, rfl⟩ := Prod.mk.inj h
    exact Or.inl ⟨f, rfl, rfl, rfl⟩
  | ok a =>
    refine Or.inr ⟨a, rfl, ?_⟩
    rw [haddr, runOn_bind_ok (runOn_ofExcept _ _)] at h
    have hpeek := Session.runOn_peekNonce a s
    cases hget : s.nonces.get? (.text a) with
    | none =>
      rw [hget] at hpeek
      rw [runOn_bind_error hpeek] at h
      obtain ⟨rfl, rfl⟩ := Prod.mk.inj h
      exact Or.inl ⟨rfl, rfl, rfl⟩
    | some target =>
      rw [hget] at hpeek
      rw [runOn_bind_ok hpeek] at h
      refine Or.inr ⟨target, ?_⟩
      rcases hpoll : (script.waitOn b a target).runOn s.world with ⟨f | reached, w⟩
      · have hw : (Session.inWorld (script.waitOn b a target)).runOn s =
            (.error f, { s with world := w }) := by
          rw [Session.runOn_inWorld, hpoll]
        rw [waitOn] at hw
        rw [runOn_bind_error hw] at h
        obtain ⟨rfl, rfl⟩ := Prod.mk.inj h
        exact ⟨_, w, rfl, rfl, rfl, rfl⟩
      · have hw : (Session.inWorld (script.waitOn b a target)).runOn s =
            (.ok reached, { s with world := w }) := by
          rw [Session.runOn_inWorld, hpoll]
        rw [waitOn] at hw
        rw [runOn_bind_ok hw] at h
        refine ⟨_, w, rfl, rfl, ?_⟩
        simp only [Except.bind, verdict]
        split at h
        · rename_i hstrict
          obtain ⟨rfl, rfl⟩ := Prod.mk.inj h
          exact ⟨rfl, by rw [if_pos hstrict]⟩
        · rename_i hstrict
          obtain ⟨rfl, rfl⟩ := Prod.mk.inj h
          exact ⟨rfl, by rw [if_neg hstrict]⟩

/-! ### Phases -/

/-- A phase goes on after a step that ends well; another step ends it, with a notice unless the run
was interrupted. -/
theorem runSteps_cons (phase : Phase τ) (index : Nat) (step : Step τ) (rest : List (Step τ))
    (s : Session ν τ) :
    (script.runSteps phase index (step :: rest)).runOn s =
      match (script.execute step).runOn s with
      | (.ok _, m) => (script.runSteps phase (index + 1) rest).runOn m
      | (.error f, m) => (.error f,
          if f.isError then
            m.noted (.phaseFailed phase.name index phase.steps.length step.text)
          else m) := by
  rw [runSteps, runOn_bind, runOn_attempt]
  rcases (script.execute step).runOn s with ⟨f | r, m⟩
  · dsimp only
    cases hf : f.isError with
    | true =>
      simp only [if_true]
      rw [runOn_bind_ok (Session.runOn_inWorld _ m)]
      rfl
    | false => rfl
  · rfl

variable {R : Session ν τ → Session ν τ → Prop} [IsPreorder (Session ν τ) R]

theorem keeps_runSteps (hnote : ∀ (n : Notice τ) (s : Session ν τ), n.IsPlain →
      R s (s.noted n)) (phase : Phase τ) :
    ∀ (steps : List (Step τ)) (index : Nat), (∀ step ∈ steps, Keeps R (script.execute step)) →
      Keeps R (script.runSteps phase index steps) := by
  intro steps
  induction steps with
  | nil => exact fun _ _ => keeps_pure ()
  | cons step rest ih =>
    intro index hsteps
    refine keeps_bind (keeps_attempt (hsteps step (by simp))) fun r => ?_
    cases r with
    | ok _ => exact ih (index + 1) fun x hx => hsteps x (by simp [hx])
    | error f =>
      dsimp only
      refine keeps_ite (keeps_bind ?_ fun _ => keeps_throw f) (keeps_throw f)
      exact keeps_within fun s => hnote _ s ⟨rfl, rfl⟩

/-- **What all steps keep, phases made of them keep.** -/
theorem keeps_run (hnote : ∀ (n : Notice τ) (s : Session ν τ), n.IsPlain →
      R s (s.noted n)) :
    ∀ (phases : List (Phase τ)),
      (∀ phase ∈ phases, ∀ step ∈ phase.steps, Keeps R (script.execute step)) →
      Keeps R (script.run phases) := by
  intro phases
  induction phases with
  | nil => exact fun _ => keeps_bind keeps_get fun _ => keeps_pure _
  | cons phase rest ih =>
    intro hphases
    refine keeps_bind ?_ fun _ => ih fun p hp => hphases p (by simp [hp])
    refine keeps_bind (keeps_within fun s => hnote _ s ⟨rfl, rfl⟩) fun _ => ?_
    refine keeps_bind (keeps_runSteps hnote phase _ _ (hphases phase (by simp))) fun _ => ?_
    exact keeps_within fun s => hnote _ s ⟨rfl, rfl⟩

end

end Script

end Campaign
