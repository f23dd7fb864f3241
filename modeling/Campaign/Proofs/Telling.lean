import Campaign.Proofs.Course

/-!
# What steps tell

What each step of a run leaves in the log.  `Visit.cases` says that.  A step is hushed, which is to
say that it attempts nothing and what it tells is for the curious only; or it is a barrier whose
time has run out, and the warning is the last it tells; or it is a submission that has come to its
attempt, with the announcement just before.

`Session.EndsSaying` carries this through the parts of a submission, `waitOn_says` through the loop
of a wait.
-/

namespace Campaign

open Act History

variable {ν τ α β : Type}

/-! ### Notices in a history -/

/-- The notice that an event gives. -/
def Event.notice? : Event τ → Option (Notice τ)
  | .noticed n => some n
  | _ => none

/-- A line of the log: how grave it is, and how it reads. -/
def Notice.line [Seconds τ] (n : Notice τ) : Level × String := (n.level, n.text)

namespace History

/-- The notices of a history, in the order they were given. -/
def notices (h : History τ) : List (Notice τ) := (h.filterMap Event.notice?).reverse

/-- What a history has grown by since an earlier one. -/
def since (h g : History τ) : History τ := g.take (g.length - h.length)

theorem since_append (new h : History τ) : since h (new ++ h) = new := by simp [since]

theorem notices_append (new h : History τ) : notices (new ++ h) = notices h ++ notices new := by
  simp [notices]

theorem notices_noticed (n : Notice τ) (h : History τ) :
    notices (.noticed n :: h) = notices h ++ [n] := by
  simp [notices, Event.notice?]

end History

/-! ### Hushed events -/

/-- Nothing is attempted, and what is noticed is for the curious only. -/
def Event.Hushed (x : Event τ) : Prop :=
  x.attempt? = none ∧ ∀ n, x.notice? = some n → n.level = .debug

theorem Event.hushed_note {n : Notice τ} (h : n.level = .debug) : (Event.noticed n).Hushed :=
  ⟨rfl, fun m hm => by rwa [← Option.some.inj hm]⟩

theorem Event.hushed_look (a : String) (answer : Except Fault (Option Value)) :
    (Event.look a answer : Event τ).Hushed :=
  ⟨rfl, fun _ hn => nomatch hn⟩

/-- An action adds hushed events only, but for a last notice that tells a good result. -/
def Session.EndsSaying (say : α → Notice τ) (act : Act (Session ν τ) α) : Prop :=
  ∀ s t out, act.runOn s = (out, t) →
    (∃ a m, out = .ok a ∧ Session.Adds Event.Hushed s m ∧ t = m.noted (say a)) ∨
      (∃ f, out = .error f) ∧ Session.Adds Event.Hushed s t

theorem Session.endsSaying_bind {say : β → Notice τ} {act : Act (Session ν τ) α}
    {next : α → Act (Session ν τ) β} (h : Keeps (Session.Adds Event.Hushed) act)
    (hnext : ∀ a, EndsSaying say (next a)) : EndsSaying say (act >>= next) := by
  intro s t out hrun
  rcases bind_cases hrun with ⟨a, k, hact, hn⟩ | ⟨f, hact, rfl⟩
  · have hsk : Session.Adds Event.Hushed s k := h.of_runOn hact
    rcases hnext a k t out hn with ⟨b, m, rfl, hkm, rfl⟩ | ⟨hf, hkt⟩
    · exact Or.inl ⟨b, m, rfl, trans_of (Session.Adds _) hsk hkm, rfl⟩
    · exact Or.inr ⟨hf, trans_of (Session.Adds _) hsk hkt⟩
  · exact Or.inr ⟨⟨f, rfl⟩, h.of_runOn hact⟩

namespace Script

variable {script : Script ν τ}

/-! ### What submissions tell -/

theorem hushed_ensureTracked (a : String) :
    Keeps (Session.Adds Event.Hushed) (script.ensureTracked a) := by
  refine keeps_of fun s t out h => ?_
  rcases ensureTracked_cases h with ⟨-, -, rfl⟩ | ⟨-, r, hstart, -⟩
  · exact refl_of (Session.Adds _) _
  · obtain ⟨answer, n, -, hend⟩ := Session.startTracking_cases hstart
    have hread : Session.Adds Event.Hushed s (s.after n (.look a answer)) :=
      Session.adds_after s n (Event.hushed_look a answer)
    rcases hend with ⟨v, -, -, rfl⟩ | ⟨f, -, -, rfl⟩
    · have htrack : Session.Adds Event.Hushed (s.after n (.look a answer))
          ((s.after n (.look a answer)).tracking a v) :=
        History.grows_cons _ (Event.hushed_note rfl)
      exact trans_of (Session.Adds _) hread htrack
    · exact hread

/-- The announcement is the last that a preparation tells. -/
theorem prepare_says (x : Submit) : Session.EndsSaying
    (fun e : Extrinsic => .sending x.account x.callName e.nonce) (script.prepare x) := by
  refine Session.endsSaying_bind (keeps_ofExcept _) fun a => ?_
  refine Session.endsSaying_bind (hushed_ensureTracked a) fun _ => ?_
  refine Session.endsSaying_bind keeps_get fun _ => ?_
  refine Session.endsSaying_bind (keeps_ofExcept _) fun params => ?_
  have hcompose : Keeps (World.Adds Event.Hushed) (script.composeCall x params) :=
    adds_composeCall x params fun _ _ _ _ => ⟨rfl, fun _ hn => nomatch hn⟩
  refine Session.endsSaying_bind (adds_inWorld hcompose) fun call => ?_
  refine Session.endsSaying_bind (keeps_bind keeps_get fun _ => keeps_ofExcept _) fun nonce => ?_
  intro s t out h
  rw [runOn_bind_ok (Session.runOn_inWorld _ s)] at h
  obtain ⟨rfl, rfl⟩ := Prod.mk.inj h
  exact Or.inl ⟨_, s, rfl, refl_of (Session.Adds _) s, rfl⟩

/-- What is left of an extrinsic that was tried, the latest first: it could not be signed, it was
not taken, or it was taken and that was noticed. -/
inductive Tried (e : Extrinsic) : History τ → Prop
  | unsigned (f : Fault) : Tried e [.signed e (.error f)]
  | untaken (f : Fault) : Tried e [.submitted e (.error f), .signed e (.ok ())]
  | taken (hash : Option String) :
    Tried e [.noticed (.submitted hash e.nonce), .submitted e (.ok hash), .signed e (.ok ())]

/-- What is told of a submission before and after its attempt. -/
structure Announced (script : Script ν τ) (x : Submit) (before : History τ) (e : Extrinsic)
    (trail lead : History τ) : Prop where
  tried : Tried e trail
  hushed : ∀ y ∈ lead, y.Hushed
  /-- The call was composed for the extrinsic, and its announcement comes right before it. -/
  ready : script.Readies x e
    (.noticed (.sending x.account x.callName e.nonce) :: (lead ++ before))

/-- **A submission is hushed, or its attempt is announced.** -/
theorem submit_says {x : Submit} {s t : Session ν τ} {out : Except Fault (Option String)}
    (h : (script.submit x).runOn s = (out, t)) :
    Session.Adds Event.Hushed s t ∨
      ∃ e trail lead, script.Announced x s.world.journal e trail lead ∧ t.world.journal =
        trail ++ .noticed (.sending x.account x.callName e.nonce) :: lead ++ s.world.journal := by
  rw [submit_eq] at h
  rcases bind_cases h with ⟨e, m, hprep, hsend⟩ | ⟨f, hprep, -⟩
  · obtain ⟨-, hdue, -⟩ := prepare_ok hprep
    have hready := readies_of_prepare hprep
    rcases prepare_says x s m _ hprep with ⟨e', k, he, ⟨lead, hlead, hushed⟩, rfl⟩ | ⟨⟨f, hf⟩, -⟩
    · obtain rfl := Except.ok.inj he
      have hjournal : (k.noted (.sending x.account x.callName e.nonce)).world.journal =
          .noticed (.sending x.account x.callName e.nonce) :: (lead ++ s.world.journal) :=
        congrArg (_ :: ·) hlead
      rw [hjournal] at hready
      rcases send_cases hdue hsend with ⟨f, n, -, -, rfl⟩ | ⟨n, -, ⟨f, n', -, -, rfl⟩ |
        ⟨hash, n', -, -, rfl⟩⟩
      · exact Or.inr ⟨e, _, lead, ⟨.unsigned f, hushed, hready⟩, congrArg (_ :: ·) hjournal⟩
      · exact Or.inr ⟨e, _, lead, ⟨.untaken f, hushed, hready⟩,
          congrArg (fun j => _ :: _ :: j) hjournal⟩
      · exact Or.inr ⟨e, _, lead, ⟨.taken hash, hushed, hready⟩,
          congrArg (fun j => _ :: _ :: _ :: j) hjournal⟩
    · cases hf
  · rcases prepare_says x s t _ hprep with ⟨e', k, he, -⟩ | ⟨-, hadds⟩
    · cases he
    · exact Or.inl hadds

/-! ### What barriers tell -/

section

variable [Seconds τ]

/-- The last notice of a wait, unless it was cut short. -/
def closing (script : Script ν τ) (b : Barrier τ) (a : String) (target : Int) :
    Except Fault Bool → List (Notice τ)
  | .ok true => [.reached (.int target) (.text a)]
  | .ok false => [.timedOut (b.timeout.getD script.barrierTimeout) (.int target) (.text a)]
  | .error _ => []

/-- A wait is hushed up to its last notice. -/
theorem waitOn_says {b : Barrier τ} {a : String} {target : Int} {w v : World ν τ}
    {answer : Except Fault Bool} (h : (script.waitOn b a target).runOn w = (answer, v)) :
    ∃ lead, (∀ x ∈ lead, x.Hushed) ∧
      v.journal = (script.closing b a target answer).map .noticed ++ (lead ++ w.journal) := by
  have hmiss : ∀ w v r, (Client.hasReached script.node a target).runOn w = (r, v) →
      World.Adds Event.Hushed w v := by
    intro w v r hlook
    obtain ⟨found, n, -, rfl, -⟩ := Client.hasReached_cases hlook
    exact History.grows_cons _ (Event.hushed_look a found)
  have hloop : ∀ deadline fuel, Keeps (World.Adds Event.Hushed) (World.timer.poll deadline
      script.pollInterval (Client.hasReached script.node a target) fuel) := by
    refine fun deadline fuel => keeps_of fun w v r hpoll => ?_
    rcases Timer.poll_endsLooking (R := World.Adds Event.Hushed)
      (fun w v r hlook _ => hmiss w v r hlook) (fun w => refl_of (World.Adds _) w) adds_sleep
      fuel w v r hpoll with ⟨-, m, hm, hlast⟩ | ⟨-, hadds⟩
    · exact trans_of (World.Adds _) hm (hmiss m v _ hlast)
    · exact hadds
  rw [waitOn, Client.waitForNonce, runOn_bind_ok (World.runOn_note _ w)] at h
  have hnoted : World.Adds Event.Hushed w (w.noted (.waiting (.int target) (.text a)
      (b.timeout.getD script.barrierTimeout))) := History.grows_cons _ (Event.hushed_note rfl)
  rcases bind_cases h with ⟨ok, m, hpoll, h⟩ | ⟨f, hpoll, rfl⟩
  · rw [runOn_bind_ok (World.runOn_note _ m)] at h
    obtain ⟨rfl, rfl⟩ := Prod.mk.inj h
    obtain ⟨lead, hlead, hushed⟩ := trans_of (World.Adds _) hnoted ((hloop _ _).of_runOn hpoll)
    refine ⟨lead, hushed, ?_⟩
    rw [← hlead]
    cases ok <;> rfl
  · obtain ⟨lead, hlead, hushed⟩ := trans_of (World.Adds _) hnoted ((hloop _ _).of_runOn hpoll)
    exact ⟨lead, hushed, hlead⟩

/-- What the wait of a barrier has answered, if the barrier came to wait. -/
def waited? (script : Script ν τ) (s : Session ν τ) (b : Barrier τ) : Option (Except Fault Bool) :=
  match script.address b.account with
  | .error _ => none
  | .ok a => (s.nonces.get? (.text a)).map fun target =>
    ((script.waitOn b a target).runOn s.world).1

/-- **A barrier is hushed, or its time has run out** and the last it tells is a warning. -/
theorem wait_says {b : Barrier τ} {s t : Session ν τ} {out : Except Fault Bool}
    (h : (script.wait b).runOn s = (out, t)) :
    (script.waited? s b ≠ some (.ok false) ∧ Session.Adds Event.Hushed s t) ∨
      (script.waited? s b = some (.ok false) ∧
        (b.strict.truthy = true → ∃ f, out = .error f ∧ f.isError = true) ∧
        ∃ timeout target a lead, (∀ x ∈ lead, x.Hushed) ∧ t.world.journal =
          .noticed (.timedOut timeout target a) :: lead ++ s.world.journal) := by
  rcases wait_cases h with ⟨f, haddr, -, rfl⟩ | ⟨a, haddr, ⟨hnone, -, rfl⟩ |
    ⟨target, answer, w, htarget, hpoll, rfl, rfl⟩⟩
  · exact Or.inl ⟨by simp [waited?, haddr], refl_of (Session.Adds _) _⟩
  · exact Or.inl ⟨by simp [waited?, haddr, hnone], refl_of (Session.Adds _) _⟩
  · obtain ⟨lead, hushed, hjournal⟩ := waitOn_says hpoll
    have hwaited : script.waited? s b = some answer := by simp [waited?, haddr, htarget, hpoll]
    rw [hwaited]
    rcases answer with f | _ | _
    · exact Or.inl ⟨by simp, lead, hjournal, hushed⟩
    · refine Or.inr ⟨rfl, fun hstrict => ?_, _, _, _, lead, hushed, hjournal⟩
      rw [Except.bind, verdict_false, if_pos hstrict]
      exact ⟨_, rfl, rfl⟩
    · refine Or.inl ⟨by simp, _ :: lead, hjournal, ?_⟩
      rintro x (_ | ⟨_, hx⟩)
      · exact Event.hushed_note rfl
      · exact hushed x hx

end

end Script

/-! ### What a step tells -/

namespace Visit

/-- What a step has added to the history. -/
def events (v : Visit ν τ) : History τ := since v.before.world.journal v.after.world.journal

/-- What a step has told. -/
def notices (v : Visit ν τ) : List (Notice τ) := History.notices v.events

theorem events_of_journal {v : Visit ν τ} {new : History τ}
    (h : v.after.world.journal = new ++ v.before.world.journal) : v.events = new := by
  rw [events, h, since_append]

theorem hushed_of_adds {v : Visit ν τ} (h : Session.Adds Event.Hushed v.before v.after) :
    ∀ y ∈ v.events, y.Hushed := by
  obtain ⟨new, hnew, hushed⟩ := h
  rwa [events_of_journal hnew]

variable [Seconds τ]

/-- The step is a barrier that has ended by running out of time. -/
def ranOut (script : Script ν τ) (v : Visit ν τ) : Bool :=
  match v.step with
  | .barrier b =>
    match script.waited? v.before b with
    | some (.ok false) => true
    | _ => false
  | _ => false

variable {script : Script ν τ}

theorem ranOut_barrier {b : Barrier τ} {s t : Session ν τ} {out : Except Fault Script.Result} :
    (⟨.barrier b, s, out, t⟩ : Visit ν τ).ranOut script = true ↔
      script.waited? s b = some (.ok false) := by
  simp only [ranOut]
  split <;> simp_all

/-- A step goes on from the history it finds. -/
theorem Of.journal {v : Visit ν τ} (hv : v.Of script) :
    v.after.world.journal = v.events ++ v.before.world.journal := by
  obtain ⟨step, s, out, t⟩ := v
  have hsuffix : s.world.journal <:+ t.world.journal := by
    cases out with
    | ok r =>
      have hwalk : Script.Walk script [step] s (.ok ()) t := .step hv .done
      exact hwalk.suffix
    | error f =>
      have hwalk : Script.Walk script [step] s (.error f) t := .stop hv (Or.inl rfl)
      exact hwalk.suffix
  obtain ⟨new, hnew⟩ := hsuffix
  rw [events_of_journal hnew.symm, ← hnew]

/-- **What a step tells.**  It is hushed; or it is a barrier that has run out of time, and its
warning is the last; or it is a submission that was announced and tried. -/
theorem cases {v : Visit ν τ} (hv : v.Of script) :
    (v.ranOut script = false ∧ ∀ y ∈ v.events, y.Hushed) ∨
      (v.ranOut script = true ∧ ∃ b timeout target a lead, v.step = .barrier b ∧
        (b.strict.truthy = true → ∃ f, v.outcome = .error f ∧ f.isError = true) ∧
        (∀ y ∈ lead, y.Hushed) ∧ v.events = .noticed (.timedOut timeout target a) :: lead) ∨
      v.ranOut script = false ∧ ∃ x e trail lead, v.step = .submit x ∧
        script.Announced x v.before.world.journal e trail lead ∧
        v.events = trail ++ .noticed (.sending x.account x.callName e.nonce) :: lead := by
  obtain ⟨step, s, out, t⟩ := v
  cases step with
  | submit x =>
    obtain ⟨r, hr⟩ := Script.runOn_execute_submit hv
    rcases Script.submit_says hr with hushed | ⟨e, trail, lead, hannounced, hjournal⟩
    · exact Or.inl ⟨rfl, hushed_of_adds hushed⟩
    · exact Or.inr (Or.inr ⟨rfl, x, e, trail, lead, rfl, hannounced, events_of_journal hjournal⟩)
  | barrier b =>
    have hwait : ∃ r, (script.wait b).runOn s = (r, t) ∧ out = r.map .reached := by
      rcases bind_cases hv with ⟨r, m, hr, h⟩ | ⟨f, hr, hout⟩
      · obtain ⟨hout, hm⟩ := Prod.mk.inj h
        exact ⟨.ok r, by rw [hr, hm], hout.symm⟩
      · exact ⟨.error f, hr, hout⟩
    obtain ⟨r, hr, rfl⟩ := hwait
    rcases Script.wait_says hr with ⟨hwaited, hushed⟩ |
      ⟨hwaited, hstrict, timeout, target, a, lead, hushed, hjournal⟩
    · exact Or.inl ⟨Bool.eq_false_iff.mpr (mt ranOut_barrier.mp hwaited), hushed_of_adds hushed⟩
    · refine Or.inr (Or.inl ⟨ranOut_barrier.mpr hwaited, b, timeout, target, a, lead, rfl, ?_,
        hushed, events_of_journal hjournal⟩)
      intro hb
      obtain ⟨f, rfl, hf⟩ := hstrict hb
      exact ⟨f, rfl, hf⟩
  | pause seconds =>
    have hpause : Keeps (Session.Adds Event.Hushed) (script.execute (.pause seconds)) := by
      refine keeps_bind (adds_inWorld ?_) fun _ => keeps_pure _
      exact keeps_bind (adds_note (Event.hushed_note rfl)) fun _ => adds_sleep seconds
    exact Or.inl ⟨rfl, hushed_of_adds (hpause.of_runOn hv)⟩
  | other value =>
    have hother : Keeps (Session.Adds Event.Hushed) (script.execute (.other value)) :=
      keeps_throw _
    exact Or.inl ⟨rfl, hushed_of_adds (hother.of_runOn hv)⟩

end Visit

end Campaign
