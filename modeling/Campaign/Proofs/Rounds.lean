import Campaign.Proofs.Rational

/-!
# What a loop of looks does, round by round

`Timer.poll` works with any condition, any clock and any deadline, and all three may change with the
state: a look may move the time on, cancel the deadline or fail.  Nothing of that is seen in what
the loop returns, so it is watched here.  `Timer.logged` and `Act.logged` write down every look and
every sleep as it happens, and do nothing else.

`Timer.Rounds` is the loop with its counter and what it has written down, with one constructor for
each way on or out; `Timer.rounds_poll` says that every loop is one, logged or not.
`Timer.Rounds.shape` reads off it what the marks look like: rounds of a look that said no and a
sleep, and then a last look, a sleep that failed, or nothing if the counter has run out.
-/

namespace Campaign

open Act

variable {σ α μ : Type}

/-! ### Deadlines in exact time -/

namespace Deadline

/-- The waiting stops. -/
def Over (d : Deadline ℚ) (now : ℚ) : Prop := d.cancelled = true ∨ d.timeout ≤ now - d.started

instance (d : Deadline ℚ) (now : ℚ) : Decidable (d.Over now) :=
  inferInstanceAs (Decidable (_ ∨ _))

/-- The time that is left. -/
def left (d : Deadline ℚ) (now : ℚ) : ℚ :=
  if d.cancelled then 0 else max 0 (d.timeout - (now - d.started))

theorem expired_rational (d : Deadline ℚ) (now : ℚ) :
    d.expired now = .ok (decide (d.Over now)) := by
  obtain ⟨started, timeout, _ | _⟩ := d
  · show Except.ok (decide (timeout ≤ now - started)) = _
    simp [Over]
  · show Except.ok true = _
    simp [Over]

theorem remaining_rational (d : Deadline ℚ) (now : ℚ) : d.remaining now = .ok (d.left now) := by
  obtain ⟨started, timeout, _ | _⟩ := d
  · show Seconds.positivePart (timeout - (now - started)) = _
    rw [Seconds.positivePart_rational]
    rfl
  · rfl

end Deadline

/-! ### Writing down -/

/-- Something a loop does that others can see. -/
inductive Mark (σ : Type) where
  /-- A look, how it ended, and the state it left. -/
  | looked (found : Except Fault Bool) (after : σ)
  /-- A sleep, how it ended, and the state it began in. -/
  | slept (length : ℚ) (ended : Except Fault Unit) (before : σ)

namespace Mark

/-- The looks, in order. -/
def looks (marks : List (Mark σ)) : List (Except Fault Bool × σ) :=
  marks.filterMap fun
    | .looked found after => some (found, after)
    | .slept _ _ _ => none

/-- The sleeps, in order. -/
def sleeps (marks : List (Mark σ)) : List (ℚ × Except Fault Unit × σ) :=
  marks.filterMap fun
    | .looked _ _ => none
    | .slept length ended before => some (length, ended, before)

theorem looks_append (earlier later : List (Mark σ)) :
    looks (earlier ++ later) = looks earlier ++ looks later := List.filterMap_append

theorem sleeps_append (earlier later : List (Mark σ)) :
    sleeps (earlier ++ later) = sleeps earlier ++ sleeps later := List.filterMap_append

end Mark

namespace Act

/-- An action that writes down what it has done. -/
def logging (mark : Except Fault α → σ → σ → μ) (act : Act σ α) : Act (σ × List μ) α := fun p =>
  match act p.1 with
  | .ok a s => .ok a (s, p.2 ++ [mark (.ok a) p.1 s])
  | .error f s => .error f (s, p.2 ++ [mark (.error f) p.1 s])

theorem runOn_logging {mark : Except Fault α → σ → σ → μ} {act : Act σ α} {s t : σ}
    {out : Except Fault α} (h : act.runOn s = (out, t)) (log : List μ) :
    (logging mark act).runOn (s, log) = (out, t, log ++ [mark out s t]) := by
  simp only [runOn, logging] at h ⊢
  cases hact : act s <;>
  · rw [hact] at h
    obtain ⟨rfl, rfl⟩ := Prod.mk.inj h
    rfl

/-- A condition that writes down when it is looked at. -/
def logged (holds : Act σ Bool) : Act (σ × List (Mark σ)) Bool :=
  logging (fun found _ after => .looked found after) holds

end Act

namespace Timer

/-- A timer that writes down its sleeps. -/
def logged (timer : Timer σ ℚ) : Timer (σ × List (Mark σ)) ℚ where
  read p := ((timer.read p.1).1, (timer.read p.1).2, p.2)
  sleep length := logging (fun ended before _ => .slept length ended before) (timer.sleep length)

/-! ### A round -/

section

variable (timer : Timer σ ℚ) (deadline : σ → Deadline ℚ) (interval : ℚ) (holds : Act σ Bool)

/-- The deadline stops the waiting, by the clock as it shows now. -/
def Over (s : σ) : Prop := (deadline s).Over (timer.read s).1

instance (s : σ) : Decidable (timer.Over deadline s) :=
  inferInstanceAs (Decidable (Deadline.Over _ _))

/-- The time left until the deadline, by the clock as it shows now. -/
def left (s : σ) : ℚ := (deadline s).left (timer.read s).1

/-- The state after the deadline has been asked: the clock is read unless it is cancelled. -/
def asked (s : σ) : σ := if (deadline s).cancelled then s else (timer.read s).2

/-- How long the sleep is after a look that left a state.  What is left is asked after the deadline
has been found not to be over. -/
def nap (s : σ) : ℚ := min interval (timer.left deadline (timer.asked deadline s))

/-- The state in which that sleep begins. -/
def ready (s : σ) : σ := timer.asked deadline (timer.asked deadline s)

theorem runOn_expired (s : σ) :
    (timer.expired deadline).runOn s =
      (.ok (decide (timer.Over deadline s)), timer.asked deadline s) := by
  simp only [runOn, expired, asked, Over]
  cases hcancelled : (deadline s).cancelled with
  | true => simp [Deadline.Over, hcancelled]
  | false =>
    simp only [Bool.false_eq_true, if_false, Deadline.expired_rational]
    rfl

theorem runOn_remaining (s : σ) :
    (timer.remaining deadline).runOn s =
      (.ok (timer.left deadline s), timer.asked deadline s) := by
  simp only [runOn, remaining, asked, left]
  cases hcancelled : (deadline s).cancelled with
  | true => simp [Deadline.left, hcancelled, Seconds.zero]
  | false =>
    simp only [Bool.false_eq_true, if_false, Deadline.remaining_rational]
    rfl

/-- One round of a loop. -/
theorem runOn_poll_succ (fuel : ℕ) (s : σ) :
    (timer.poll deadline interval holds (fuel + 1)).runOn s =
      match holds.runOn s with
      | (.error f, m) => (.error f, m)
      | (.ok true, m) => (.ok true, m)
      | (.ok false, m) =>
        if timer.Over deadline m then (.ok false, timer.asked deadline m)
        else
          match (timer.sleep (timer.nap deadline interval m)).runOn (timer.ready deadline m) with
          | (.ok _, t) => (timer.poll deadline interval holds fuel).runOn t
          | (.error f, t) => (.error f, t) := by
  rcases hlook : holds.runOn s with ⟨f | _ | _, m⟩
  · exact runOn_bind_error hlook
  · rw [poll, runOn_bind_ok hlook]
    simp only [Bool.false_eq_true, if_false]
    rw [runOn_bind_ok (timer.runOn_expired deadline m)]
    by_cases hover : timer.Over deadline m
    · simp only [decide_eq_true hover, if_true, if_pos hover]
      rfl
    · simp only [decide_eq_false hover, Bool.false_eq_true, if_false, if_neg hover]
      rw [runOn_bind_ok (timer.runOn_remaining deadline _), Seconds.least_rational,
        runOn_bind_ok (runOn_ofExcept _ _)]
      rcases hsleep : (timer.sleep (timer.nap deadline interval m)).runOn (timer.ready deadline m)
        with ⟨f | _, t⟩
      · exact runOn_bind_error hsleep
      · exact runOn_bind_ok hsleep
  · rw [poll, runOn_bind_ok hlook]
    rfl

/-- **A loop with its counter and its marks.**  It ends without a look when the counter has run out.
Else it looks; a look that says yes or fails ends it, and so does one after which the deadline is
over.  After any other look it sleeps, and goes on if the sleep ends well. -/
inductive Rounds : ℕ → σ → List (Mark σ) → Except Fault Bool → σ → Prop
  | spent {s : σ} : Rounds 0 s [] (.error .sleepLimit) s
  | stop {fuel : ℕ} {s m : σ} {found : Except Fault Bool} (hlook : holds.runOn s = (found, m))
      (hstop : found ≠ .ok false) : Rounds (fuel + 1) s [.looked found m] found m
  | late {fuel : ℕ} {s m : σ} (hlook : holds.runOn s = (.ok false, m))
      (hover : timer.Over deadline m) :
      Rounds (fuel + 1) s [.looked (.ok false) m] (.ok false) (timer.asked deadline m)
  | broken {fuel : ℕ} {s m t : σ} {f : Fault} (hlook : holds.runOn s = (.ok false, m))
      (hopen : ¬ timer.Over deadline m)
      (hsleep : (timer.sleep (timer.nap deadline interval m)).runOn (timer.ready deadline m) =
        (.error f, t)) :
      Rounds (fuel + 1) s [.looked (.ok false) m,
        .slept (timer.nap deadline interval m) (.error f) (timer.ready deadline m)] (.error f) t
  | again {fuel : ℕ} {s m t u : σ} {marks : List (Mark σ)} {out : Except Fault Bool}
      (hlook : holds.runOn s = (.ok false, m)) (hopen : ¬ timer.Over deadline m)
      (hsleep : (timer.sleep (timer.nap deadline interval m)).runOn (timer.ready deadline m) =
        (.ok (), t))
      (rest : Rounds fuel t marks out u) :
      Rounds (fuel + 1) s (.looked (.ok false) m ::
        .slept (timer.nap deadline interval m) (.ok ()) (timer.ready deadline m) :: marks) out u

variable {timer deadline interval holds} {fuel : ℕ} {s t : σ} {marks : List (Mark σ)}
  {out : Except Fault Bool}

/-- What a state is asked does not depend on what has been written down. -/
theorem logged_over (log : List (Mark σ)) :
    timer.logged.Over (fun p => deadline p.1) (s, log) ↔ timer.Over deadline s := Iff.rfl

theorem logged_asked (log : List (Mark σ)) :
    timer.logged.asked (fun p => deadline p.1) (s, log) = (timer.asked deadline s, log) := by
  simp only [asked, logged]
  split <;> rfl

theorem logged_nap (log : List (Mark σ)) :
    timer.logged.nap (fun p => deadline p.1) interval (s, log) = timer.nap deadline interval s := by
  rw [nap, logged_asked]
  rfl

theorem logged_ready (log : List (Mark σ)) :
    timer.logged.ready (fun p => deadline p.1) (s, log) = (timer.ready deadline s, log) := by
  rw [ready, logged_asked, logged_asked]
  rfl

theorem runOn_logged_sleep {length : ℚ} {ended : Except Fault Unit}
    (h : (timer.sleep length).runOn s = (ended, t)) (log : List (Mark σ)) :
    (timer.logged.sleep length).runOn (s, log) = (ended, t, log ++ [.slept length ended s]) := by
  show (logging (fun ended before _ => Mark.slept length ended before) _).runOn _ = _
  exact runOn_logging h log

/-- **A loop is rounds, and writing them down changes nothing else.** -/
theorem rounds_poll (log : List (Mark σ))
    (h : (timer.poll deadline interval holds fuel).runOn s = (out, t)) :
    ∃ marks, timer.Rounds deadline interval holds fuel s marks out t ∧
      (timer.logged.poll (fun p => deadline p.1) interval holds.logged fuel).runOn (s, log) =
        (out, t, log ++ marks) := by
  induction fuel generalizing s log with
  | zero =>
    obtain ⟨rfl, rfl⟩ := Prod.mk.inj h
    exact ⟨[], .spent, by rw [List.append_nil]; rfl⟩
  | succ fuel ih =>
    rw [runOn_poll_succ] at h ⊢
    rcases hlook : holds.runOn s with ⟨found, m⟩
    have hlogged : holds.logged.runOn (s, log) = (found, m, log ++ [.looked found m]) :=
      runOn_logging hlook log
    rw [hlook] at h
    rw [hlogged]
    rcases found with f | _ | _
    · obtain ⟨rfl, rfl⟩ := Prod.mk.inj h
      exact ⟨_, .stop hlook (by simp), rfl⟩
    · simp only [logged_over, logged_nap, logged_ready, logged_asked] at h ⊢
      split at h
      · rename_i hover
        obtain ⟨rfl, rfl⟩ := Prod.mk.inj h
        exact ⟨_, .late hlook hover, by rw [if_pos hover]⟩
      · rename_i hopen
        rcases hsleep : (timer.sleep (timer.nap deadline interval m)).runOn
          (timer.ready deadline m) with ⟨ended, u⟩
        have hslept : (timer.logged.sleep (timer.nap deadline interval m)).runOn
            (timer.ready deadline m, log ++ [.looked (.ok false) m]) = (ended, u,
              log ++ [.looked (.ok false) m] ++
                [.slept (timer.nap deadline interval m) ended (timer.ready deadline m)]) :=
          runOn_logged_sleep hsleep _
        rw [hsleep] at h
        rw [if_neg hopen, hslept]
        rcases ended with f | _
        · obtain ⟨rfl, rfl⟩ := Prod.mk.inj h
          exact ⟨_, .broken hlook hopen hsleep, by simp⟩
        · obtain ⟨marks, hrounds, hrest⟩ := ih (log ++ [.looked (.ok false) m] ++
            [.slept (timer.nap deadline interval m) (.ok ()) (timer.ready deadline m)]) h
          exact ⟨_, .again hlook hopen hsleep hrounds, by simpa using hrest⟩
    · obtain ⟨rfl, rfl⟩ := Prod.mk.inj h
      exact ⟨_, .stop hlook (by simp), rfl⟩

/-! ### The marks of a loop -/

/-- The marks of a round that goes on. -/
def round (timer : Timer σ ℚ) (deadline : σ → Deadline ℚ) (interval : ℚ) (m : σ) : List (Mark σ) :=
  [.looked (.ok false) m,
    .slept (timer.nap deadline interval m) (.ok ()) (timer.ready deadline m)]

/-- **What a loop writes down**: rounds that go on, and then the look that ends the loop, or a round
whose sleep fails, or nothing if the counter has run out. -/
theorem Rounds.shape (h : timer.Rounds deadline interval holds fuel s marks out t) :
    ∃ seen : List σ, (∀ m ∈ seen, ¬ timer.Over deadline m) ∧
      ((∃ m, marks = seen.flatMap (timer.round deadline interval) ++ [.looked out m] ∧
          (out = .ok false → timer.Over deadline m)) ∨
        (∃ m f, out = .error f ∧ ¬ timer.Over deadline m ∧
          marks = seen.flatMap (timer.round deadline interval) ++ [.looked (.ok false) m,
            .slept (timer.nap deadline interval m) (.error f) (timer.ready deadline m)]) ∨
        (out = .error .sleepLimit ∧ seen.length = fuel ∧
          marks = seen.flatMap (timer.round deadline interval))) := by
  induction h with
  | spent => exact ⟨[], by simp, Or.inr (Or.inr ⟨rfl, rfl, rfl⟩)⟩
  | @stop _ _ m _ _ hstop => exact ⟨[], by simp, Or.inl ⟨m, rfl, fun h => absurd h hstop⟩⟩
  | @late _ _ m _ hover => exact ⟨[], by simp, Or.inl ⟨m, rfl, fun _ => hover⟩⟩
  | @broken _ _ m _ f _ hopen _ =>
    exact ⟨[], by simp, Or.inr (Or.inl ⟨m, f, rfl, hopen, rfl⟩)⟩
  | @again _ _ m _ _ _ _ _ hopen _ _ ih =>
    obtain ⟨seen, hseen, hends⟩ := ih
    refine ⟨m :: seen, List.forall_mem_cons.mpr ⟨hopen, hseen⟩, ?_⟩
    rcases hends with ⟨l, rfl, hover⟩ | ⟨l, f, hout, hl, rfl⟩ | ⟨hout, hfuel, rfl⟩
    · exact Or.inl ⟨l, rfl, hover⟩
    · exact Or.inr (Or.inl ⟨l, f, hout, hl, rfl⟩)
    · exact Or.inr (Or.inr ⟨hout, by rw [List.length_cons, hfuel], rfl⟩)

theorem looks_rounds (seen : List σ) :
    Mark.looks (seen.flatMap (timer.round deadline interval)) =
      seen.map fun m => (.ok false, m) := by
  induction seen with
  | nil => rfl
  | cons m seen ih => exact congrArg (List.cons _) ih

theorem sleeps_rounds (seen : List σ) :
    Mark.sleeps (seen.flatMap (timer.round deadline interval)) =
      seen.map fun m => (timer.nap deadline interval m, .ok (), timer.ready deadline m) := by
  induction seen with
  | nil => rfl
  | cons m seen ih => exact congrArg (List.cons _) ih

/-- Nothing comes after a look that says yes, fails, or leaves the deadline over; by then there has
been one look more than sleeps. -/
theorem Rounds.ends (h : timer.Rounds deadline interval holds fuel s marks out t)
    {earlier later : List (Mark σ)} {found : Except Fault Bool} {m : σ}
    (hmarks : marks = earlier ++ .looked found m :: later)
    (hend : found ≠ .ok false ∨ timer.Over deadline m) :
    later = [] ∧ out = found ∧ (Mark.looks marks).length = (Mark.sleeps marks).length + 1 := by
  have hgoes : ∀ {m'}, ¬ timer.Over deadline m' → found = .ok false → m = m' → False := by
    rintro m' hopen rfl rfl
    exact hend.elim (fun hne => hne rfl) hopen
  induction h generalizing earlier with
  | spent => simp at hmarks
  | stop hlook hstop | late hlook hover =>
    cases earlier with
    | nil =>
      obtain ⟨⟨⟩, rfl⟩ := List.cons.inj hmarks
      exact ⟨rfl, rfl, rfl⟩
    | cons x earlier => simp at hmarks
  | broken hlook hopen hsleep =>
    rcases earlier with _ | ⟨x, _ | ⟨y, earlier⟩⟩
    · obtain ⟨⟨⟩, -⟩ := List.cons.inj hmarks
      exact (hgoes hopen rfl rfl).elim
    · simp at hmarks
    · simp at hmarks
  | again hlook hopen hsleep rest ih =>
    rcases earlier with _ | ⟨x, _ | ⟨y, earlier⟩⟩
    · obtain ⟨⟨⟩, -⟩ := List.cons.inj hmarks
      exact (hgoes hopen rfl rfl).elim
    · simp at hmarks
    · simp only [List.cons_append, List.cons.injEq] at hmarks
      obtain ⟨hlater, hout, hcount⟩ := ih hmarks.2.2
      exact ⟨hlater, hout, congrArg (· + 1) hcount⟩

/-- Every sleep comes after a look that said no and left the deadline open, and is as long as the
interval and the time left allow. -/
theorem Rounds.slept (h : timer.Rounds deadline interval holds fuel s marks out t)
    {earlier later : List (Mark σ)} {length : ℚ} {ended : Except Fault Unit} {m : σ}
    (hmarks : marks = earlier ++ .slept length ended m :: later) :
    ∃ before seen, earlier = before ++ [.looked (.ok false) seen] ∧ ¬ timer.Over deadline seen ∧
      length = timer.nap deadline interval seen ∧ m = timer.ready deadline seen := by
  induction h generalizing earlier with
  | spent => simp at hmarks
  | stop hlook hstop | late hlook hover =>
    rcases earlier with _ | ⟨x, earlier⟩ <;> simp at hmarks
  | @broken _ _ seen _ _ hlook hopen hsleep =>
    rcases earlier with _ | ⟨x, _ | ⟨y, earlier⟩⟩
    · simp at hmarks
    · simp only [List.cons_append, List.nil_append, List.cons.injEq, Mark.slept.injEq] at hmarks
      obtain ⟨rfl, ⟨rfl, -, rfl⟩, -⟩ := hmarks
      exact ⟨[], seen, rfl, hopen, rfl, rfl⟩
    · simp at hmarks
  | @again _ _ seen _ _ _ _ hlook hopen hsleep rest ih =>
    rcases earlier with _ | ⟨x, _ | ⟨y, earlier⟩⟩
    · simp at hmarks
    · simp only [List.cons_append, List.nil_append, List.cons.injEq, Mark.slept.injEq] at hmarks
      obtain ⟨rfl, ⟨rfl, -, rfl⟩, -⟩ := hmarks
      exact ⟨[], seen, rfl, hopen, rfl, rfl⟩
    · simp only [List.cons_append, List.cons.injEq] at hmarks
      obtain ⟨before, seen', rfl, hrest⟩ := ih hmarks.2.2
      exact ⟨x :: y :: before, seen', rfl, hrest⟩

/-! ### A deadline that has been over already -/

/-- A state comes after another one: the time has not gone back, and the deadline is the same,
unless it has been cancelled meanwhile. -/
structure Onward (timer : Timer σ ℚ) (deadline : σ → Deadline ℚ) (s t : σ) : Prop where
  now : (timer.read s).1 ≤ (timer.read t).1
  started : (deadline t).started = (deadline s).started
  timeout : (deadline t).timeout = (deadline s).timeout
  cancelled : (deadline s).cancelled = true → (deadline t).cancelled = true

/-- What is over stays over. -/
theorem Onward.over (h : timer.Onward deadline s t) (hover : timer.Over deadline s) :
    timer.Over deadline t := by
  rcases hover with hcancelled | htime
  · exact Or.inl (h.cancelled hcancelled)
  · refine Or.inr ?_
    rw [h.timeout, h.started]
    linarith [h.now]

/-- A loop that begins when the deadline is over looks once. -/
theorem Rounds.once (h : timer.Rounds deadline interval holds (fuel + 1) s marks out t)
    (honward : Keeps (timer.Onward deadline) holds) (hover : timer.Over deadline s) :
    ∃ m, marks = [.looked out m] := by
  cases h with
  | stop => exact ⟨_, rfl⟩
  | late => exact ⟨_, rfl⟩
  | broken hlook hopen _ => exact absurd ((honward.of_runOn hlook).over hover) hopen
  | again hlook hopen _ _ => exact absurd ((honward.of_runOn hlook).over hover) hopen

end

/-! ### The contract of a wait -/

/-- The deadline that a wait goes by, and the state that its loop begins in.  Without a deadline of
its own a wait makes one from its timeout, by the clock. -/
def opened (timer : Timer σ ℚ) (timeout : ℚ) (given : Option (σ → Deadline ℚ)) (s : σ) :
    (σ → Deadline ℚ) × σ :=
  match given with
  | some d => (d, s)
  | none => (fun _ => { started := (timer.read s).1, timeout }, (timer.read s).2)

/-- Waits until a condition holds, or the deadline stops the waiting, with a counter on the looks.
-/
def check (timer : Timer σ ℚ) (timeout interval : ℚ) (holds : Act σ Bool)
    (given : Option (σ → Deadline ℚ)) (fuel : ℕ) : Act σ Bool := fun s =>
  let (deadline, begun) := timer.opened timeout given s
  timer.poll deadline interval holds fuel begun

end Timer

/-- The waits of a world are such waits, with a counter that leaves room for all sleeps. -/
theorem World.waitUntil_eq_check {ν : Type} (deadline : World ν ℚ → Deadline ℚ)
    (timeout interval : ℚ) (holds : Act (World ν ℚ) Bool) (w : World ν ℚ) :
    (waitUntil deadline interval holds).runOn w =
      (timer.check timeout interval holds (some deadline)
        (w.clock.limit - w.clock.slept.length + 1)).runOn w := by
  simp only [runOn, waitUntil, Timer.check, Timer.opened]

theorem World.waitFor_eq_check {ν : Type} (timeout interval : ℚ) (holds : Act (World ν ℚ) Bool)
    (w : World ν ℚ) :
    (waitFor timeout interval holds).runOn w =
      (timer.check timeout interval holds none
        (w.clock.limit - w.clock.slept.length + 1)).runOn w := by
  simp only [runOn, waitFor, waitUntil, Timer.check, Timer.opened]
  rfl

namespace Timer

variable {timer : Timer σ ℚ} {timeout interval : ℚ} {holds : Act σ Bool}
  {given : Option (σ → Deadline ℚ)} {fuel : ℕ} {s t : σ} {out : Except Fault Bool}

/-- A wait is rounds that begin with its deadline. -/
theorem rounds_check (h : (timer.check timeout interval holds given fuel).runOn s = (out, t)) :
    ∃ marks, timer.Rounds (timer.opened timeout given s).1 interval holds fuel
        (timer.opened timeout given s).2 marks out t ∧
      (timer.logged.check timeout interval holds.logged (given.map fun d p => d p.1) fuel).runOn
        (s, []) = (out, t, marks) := by
  cases given with
  | some d => exact rounds_poll (s := s) [] h
  | none => exact rounds_poll (s := (timer.read s).2) [] h

/-- What a loop that returns has seen. -/
theorem Rounds.returned {deadline : σ → Deadline ℚ} {marks : List (Mark σ)} {b : Bool}
    (h : timer.Rounds deadline interval holds fuel s marks (.ok b) t) :
    ∃ (seen : List σ) (m : σ), (∀ m ∈ seen, ¬ timer.Over deadline m) ∧
      (b = false → timer.Over deadline m) ∧
      Mark.looks marks = seen.map (fun m => (.ok false, m)) ++ [(.ok b, m)] ∧
      (Mark.sleeps marks).length = seen.length := by
  obtain ⟨seen, hseen, ⟨m, rfl, hover⟩ | ⟨m, f, hf, -⟩ | ⟨hf, -⟩⟩ := h.shape
  · refine ⟨seen, m, hseen, fun hb => hover (congrArg _ hb), ?_, ?_⟩
    · rw [Mark.looks_append, looks_rounds]
      rfl
    · rw [Mark.sleeps_append, sleeps_rounds]
      simp [Mark.sleeps]
  · cases hf
  · cases hf

/-- What a loop that fails has done last. -/
theorem Rounds.failed {deadline : σ → Deadline ℚ} {marks : List (Mark σ)} {f : Fault}
    (h : timer.Rounds deadline interval holds fuel s marks (.error f) t) :
    (∃ m, marks.getLast? = some (.looked (.error f) m)) ∨
      (∃ length m, marks.getLast? = some (.slept length (.error f) m)) ∨
      f = .sleepLimit ∧ (Mark.sleeps marks).length = fuel := by
  obtain ⟨seen, -, ⟨m, rfl, -⟩ | ⟨m, f', hf, -, rfl⟩ | ⟨hf, hfuel, rfl⟩⟩ := h.shape
  · exact Or.inl ⟨m, by simp⟩
  · cases hf
    exact Or.inr (Or.inl ⟨timer.nap deadline interval m, timer.ready deadline m, by simp⟩)
  · cases hf
    rw [sleeps_rounds, List.length_map]
    exact Or.inr (Or.inr ⟨rfl, hfuel⟩)

/-- **The contract of a wait**, for any condition, clock and deadline, whatever they do to the
state.  The condition alone is asked not to turn back the time, and to do no more to the deadline
than cancel it.  Writing down the looks and the sleeps changes nothing else, and shows the
following.

A wait that returns has looked once more often than it has slept.  It says yes exactly if its last
look does, the others having said no, and it says no exactly if all looks have said no and the
deadline is over after the last of them and has not been over after any other.  A look that says
yes, fails, or leaves the deadline over, cancelled or not, is the last thing that happens, and the
wait ends as that look does; so a yes wins over the deadline, a fault passes through, and a deadline
that is over at the beginning leaves room for one look and no sleep.  No sleep is longer than the
interval, or than the time left when it is asked for after the look before.  A wait that fails has
failed in a look or a sleep, unless the counter has run out, with as many sleeps. -/
theorem check_contract (honward : Keeps (timer.Onward (timer.opened timeout given s).1) holds) :
    let deadline := (timer.opened timeout given s).1
    let begun := (timer.opened timeout given s).2
    let run := (timer.logged.check timeout interval holds.logged (given.map fun d p => d p.1)
      (fuel + 1)).runOn (s, [])
    let looks := Mark.looks run.2.2
    let sleeps := Mark.sleeps run.2.2
    (timer.check timeout interval holds given (fuel + 1)).runOn s = (run.1, run.2.1) ∧
      (∀ b, run.1 = .ok b → looks.length = sleeps.length + 1 ∧
        (b = true ↔ (∃ m, looks.getLast? = some (.ok true, m)) ∧
          ∀ x ∈ looks.dropLast, x.1 = .ok false) ∧
        (b = false ↔ (∀ x ∈ looks, x.1 = .ok false) ∧
          (∀ x ∈ looks.getLast?, timer.Over deadline x.2) ∧
          ∀ x ∈ looks.dropLast, ¬ timer.Over deadline x.2)) ∧
      (∀ earlier found m later, run.2.2 = earlier ++ .looked found m :: later →
        found ≠ .ok false ∨ timer.Over deadline m →
          later = [] ∧ run.1 = found ∧ looks.length = sleeps.length + 1) ∧
      (timer.Over deadline begun → ∃ m, run.2.2 = [.looked run.1 m]) ∧
      (∀ earlier length ended m later, run.2.2 = earlier ++ .slept length ended m :: later →
        ∃ before seen, earlier = before ++ [.looked (.ok false) seen] ∧ length ≤ interval ∧
          length ≤ timer.left deadline (timer.asked deadline seen)) ∧
      ∀ f, run.1 = .error f → (∃ m, run.2.2.getLast? = some (.looked (.error f) m)) ∨
        (∃ length m, run.2.2.getLast? = some (.slept length (.error f) m)) ∨
        f = .sleepLimit ∧ sleeps.length = fuel + 1 := by
  intro deadline begun run looks sleeps
  rcases hplain : (timer.check timeout interval holds given (fuel + 1)).runOn s with ⟨out, t⟩
  obtain ⟨marks, hrounds, hlogged⟩ := rounds_check hplain
  have hrun : run = (out, t, marks) := hlogged
  simp only [looks, sleeps, hrun]
  refine ⟨trivial, ?_, fun _ _ _ _ hmarks hend => hrounds.ends hmarks hend,
    fun hover => hrounds.once honward hover, ?_, ?_⟩
  · rintro b rfl
    obtain ⟨seen, m, hseen, hover, hlooks, hsleeps⟩ := hrounds.returned
    rw [hlooks, hsleeps, List.dropLast_concat, List.getLast?_concat]
    have hearlier : ∀ x ∈ seen.map (fun m => ((.ok false : Except Fault Bool), m)),
        x.1 = .ok false ∧ ¬ timer.Over deadline x.2 := by
      intro x hx
      obtain ⟨m', hm', rfl⟩ := List.mem_map.mp hx
      exact ⟨rfl, hseen m' hm'⟩
    refine ⟨by simp, ⟨fun hb => ⟨⟨m, by rw [hb]⟩, fun x hx => (hearlier x hx).1⟩, ?_⟩,
      ⟨fun hb => ⟨?_, ?_, fun x hx => (hearlier x hx).2⟩, ?_⟩⟩
    · rintro ⟨⟨m', hlast⟩, -⟩
      cases hlast
      rfl
    · intro x hx
      rcases List.mem_append.mp hx with hx | hx
      · exact (hearlier x hx).1
      · rw [List.mem_singleton.mp hx, hb]
    · intro x hx
      rw [← Option.mem_some_iff.mp hx]
      exact hover hb
    · rintro ⟨hfalse, -⟩
      exact Except.ok.inj (hfalse (.ok b, m) (by simp))
  · intro earlier length ended m later hmarks
    obtain ⟨before, seen, hearlier, -, rfl, -⟩ := hrounds.slept hmarks
    exact ⟨before, seen, hearlier, min_le_left _ _, min_le_right _ _⟩
  · rintro f rfl
    exact hrounds.failed

/-- A condition that never holds, and cancels the deadline when it is looked at for the third time.
-/
def cancelsThird : Act (World (ℕ × Deadline ℚ) ℚ) Bool := fun w =>
  .ok false { w with node :=
    (w.node.1 + 1, if w.node.1 = 2 then w.node.2.cancel else w.node.2) }

theorem onward_cancelsThird :
    Keeps (World.timer.Onward fun w => w.node.2) cancelsThird := fun w => by
  show Onward _ _ w { w with node := _ }
  refine ⟨le_rfl, ?_, ?_, fun hcancelled => ?_⟩
  · dsimp only
    split <;> rfl
  · dsimp only
    split <;> rfl
  · dsimp only
    split
    · rfl
    · exact hcancelled

set_option maxRecDepth 10000 in
/-- The third look cancels a deadline that is a minute away: there are two sleeps and no more looks,
and it is only now that the deadline is over. -/
theorem check_contract_cancelled :
    let deadline (w : World (ℕ × Deadline ℚ) ℚ) := w.node.2
    let w : World (ℕ × Deadline ℚ) ℚ :=
      { node := (0, { started := 0, timeout := 60 }), clock := { now := 0 } }
    let run := (World.timer.logged.check 5 (1 / 10) cancelsThird.logged
      ((some deadline).map fun d p => d p.1) 9).runOn (w, [])
    run.1 = .ok false ∧ (Mark.looks run.2.2).length = 3 ∧ (Mark.sleeps run.2.2).length = 2 ∧
      (∀ x ∈ (Mark.looks run.2.2).getLast?, World.timer.Over deadline x.2) ∧
      ∀ x ∈ (Mark.looks run.2.2).dropLast, ¬ World.timer.Over deadline x.2 := by
  intro deadline w run
  have hno : ∀ r : Except Fault Bool, r.toOption = some false → r = .ok false := by
    rintro (f | b) hr
    · cases hr
    · rw [Option.some.inj hr]
  obtain ⟨-, hreturns, -⟩ := @check_contract _ World.timer 5 (1 / 10) cancelsThird (some deadline) 8
    w onward_cancelsThird
  have hrun : run.1 = .ok false := hno _ (by decide +kernel)
  obtain ⟨hcount, -, hfalse⟩ := hreturns false hrun
  have hlooks : (Mark.looks run.2.2).length = 3 := by decide +kernel
  obtain ⟨-, hlast, hearlier⟩ := hfalse.mp rfl
  exact ⟨hrun, hlooks, Nat.succ.inj (hcount.symm.trans hlooks), hlast, hearlier⟩

end Timer

end Campaign
