import Campaign.Proofs.Action
import Campaign.Proofs.History

/-!
# Waiting on a world

What the smallest actions on a world do to it, and from that what a wait for a nonce can have done.

`Timer.poll_endsLooking` takes the loop apart once for all: if it ends well, the last look came
after looks that missed and the sleeps between them; else all looks missed.  A wait for a nonce
(`waitForNonce_cases`) is that loop between two notices, and one of its looks is one query of the
account's record (`accountNonce_cases`).
-/

namespace Campaign

open Act

variable {σ ν τ α β : Type}

theorem Clock.runOn_advance [Seconds τ] (length : τ) (c : Clock τ) :
    (advance length).runOn c =
      match Seconds.add c.now length with
      | .error f => (.error f, c)
      | .ok now => (.ok (), { c with now }) := by
  rw [advance, runOn_bind_ok (runOn_get _)]
  rcases hadd : Seconds.add c.now length with f | now
  · exact runOn_bind_error (runOn_ofExcept _ _)
  · exact runOn_bind_ok (runOn_ofExcept _ _)

/-- What a sleep of a clock does: it may be refused, not be allowed any more, or be interrupted when
it has been noted, and else it moves the time on. -/
theorem Clock.runOn_sleep_eq [Seconds τ] (length : τ) (c : Clock τ) :
    (sleep length).runOn c =
      match Seconds.isNegative length with
      | .error f => (.error f, c)
      | .ok true => (.error .negativeSleep, c)
      | .ok false =>
        let noted := { c with slept := length :: c.slept }
        if c.limit ≤ c.slept.length then (.error .sleepLimit, c)
        else if noted.interrupts then (.error (.interrupted ""), noted)
        else
          match Seconds.add c.now length with
          | .error f => (.error f, noted)
          | .ok now => (.ok (), { noted with now }) := by
  rcases hnegative : Seconds.isNegative length with f | _ | _
  · rw [sleep, runOn_bind_error (by rw [runOn_ofExcept, hnegative])]
  · rw [sleep, runOn_bind_ok (by rw [runOn_ofExcept, hnegative])]
    simp only [Bool.false_eq_true, if_false]
    rw [runOn_bind_ok (runOn_get _)]
    split
    · rfl
    · have hset : (set { c with slept := length :: c.slept } : Act (Clock τ) Unit).runOn c =
          (.ok (), { c with slept := length :: c.slept }) := rfl
      rw [runOn_bind_ok hset]
      split
      · rfl
      · exact runOn_advance length _
  · rw [sleep, runOn_bind_ok (by rw [runOn_ofExcept, hnegative])]
    rfl

namespace World

/-- The world after an operation of the node, which is written down. -/
def after (w : World ν τ) (n : ν) (x : Event τ) : World ν τ :=
  { w with node := n, journal := x :: w.journal }

/-- The world with one notice more. -/
def noted (w : World ν τ) (n : Notice τ) : World ν τ :=
  { w with journal := .noticed n :: w.journal }

theorem runOn_note (n : Notice τ) (w : World ν τ) : (note n).runOn w = (.ok (), w.noted n) := rfl

theorem runOn_call (act : τ → Act ν α) (event : Except Fault α → Event τ) (w : World ν τ) :
    (call act event).runOn w =
      (((act w.clock.now).runOn w.node).1,
        w.after ((act w.clock.now).runOn w.node).2 (event ((act w.clock.now).runOn w.node).1)) := by
  simp only [runOn, call]
  cases act w.clock.now w.node <;> rfl

/-- A sleep changes the clock alone. -/
theorem sleep_clock [Seconds τ] (length : τ) (w : World ν τ) :
    ∃ c, ((sleep length).runOn w).2 = { w with clock := c } := by
  rw [sleep, runOn_within]
  exact ⟨_, rfl⟩

end World

/-! ### The loop -/

namespace Timer

/-- An action ends well only with a last look that does, after something in `R`; else it is in `R`
as a whole. -/
def EndsLooking (R : σ → σ → Prop) (holds act : Act σ Bool) : Prop :=
  ∀ s t out, act.runOn s = (out, t) →
    (out = .ok true ∧ ∃ m, R s m ∧ holds.runOn m = (.ok true, t)) ∨ (out ≠ .ok true ∧ R s t)

variable {R : σ → σ → Prop} [IsPreorder σ R] {holds : Act σ Bool}

theorem endsLooking_throw (f : Fault) : EndsLooking R holds (throw f) := by
  intro s t out h
  obtain ⟨rfl, rfl⟩ := Prod.mk.inj h
  exact Or.inr ⟨by simp, refl_of R _⟩

theorem endsLooking_false : EndsLooking R holds (pure false) := by
  intro s t out h
  obtain ⟨rfl, rfl⟩ := Prod.mk.inj h
  exact Or.inr ⟨by simp, refl_of R _⟩

/-- What comes before the looking may be anything in `R`. -/
theorem endsLooking_bind {act : Act σ β} {next : β → Act σ Bool} (h : Keeps R act)
    (hnext : ∀ b, EndsLooking R holds (next b)) : EndsLooking R holds (act >>= next) := by
  intro s t out hrun
  rcases bind_cases hrun with ⟨b, m, hb, hn⟩ | ⟨f, hf, rfl⟩
  · have hsm : R s m := h.of_runOn hb
    rcases hnext b m t out hn with ⟨ho, k, hk, hlast⟩ | ⟨ho, hmt⟩
    · exact Or.inl ⟨ho, k, trans_of R hsm hk, hlast⟩
    · exact Or.inr ⟨ho, trans_of R hsm hmt⟩
  · exact Or.inr ⟨by simp, h.of_runOn hf⟩

variable [Seconds τ] {timer : Timer σ τ} {deadline : σ → Deadline τ}

theorem keeps_expired (hread : ∀ s, R s (timer.read s).2) : Keeps R (timer.expired deadline) := by
  intro s
  simp only [expired, runOn]
  cases (deadline s).cancelled
  · cases (deadline s).expired (timer.read s).1 <;> exact hread s
  · exact refl_of R s

theorem keeps_remaining (hread : ∀ s, R s (timer.read s).2) :
    Keeps R (timer.remaining deadline) := by
  intro s
  simp only [remaining, runOn]
  cases (deadline s).cancelled
  · cases (deadline s).remaining (timer.read s).1 <;> exact hread s
  · exact refl_of R s

/-- **What a loop of looks has done.**  If `R` covers the looks that miss and the sleeps, then a
loop that ends well is in `R` up to its last look, and any other is in `R` as a whole. -/
theorem poll_endsLooking {interval : τ}
    (hmiss : ∀ s t out, holds.runOn s = (out, t) → out ≠ .ok true → R s t)
    (hread : ∀ s, R s (timer.read s).2) (hsleep : ∀ length, Keeps R (timer.sleep length)) :
    ∀ fuel, EndsLooking R holds (timer.poll deadline interval holds fuel) := by
  intro fuel
  induction fuel with
  | zero => exact endsLooking_throw _
  | succ fuel ih =>
    have hrest : EndsLooking R holds (do
        if ← timer.expired deadline then return false
        timer.sleep (← Act.ofExcept (Seconds.least interval (← timer.remaining deadline)))
        timer.poll deadline interval holds fuel) := by
      refine endsLooking_bind (keeps_expired hread) fun e => ?_
      cases e with
      | true => exact endsLooking_false
      | false =>
        refine endsLooking_bind (keeps_remaining hread) fun l => ?_
        refine endsLooking_bind (keeps_ofExcept _) fun l' => ?_
        exact endsLooking_bind (hsleep l') fun _ => ih
    intro s t out h
    rcases bind_cases h with ⟨b, m, hlook, h⟩ | ⟨f, hlook, rfl⟩
    · cases b with
      | true =>
        obtain ⟨rfl, rfl⟩ := Prod.mk.inj h
        exact Or.inl ⟨rfl, s, refl_of R s, hlook⟩
      | false =>
        have hsm : R s m := hmiss s m _ hlook (by simp)
        rcases hrest m t out h with ⟨ho, k, hk, hlast⟩ | ⟨ho, hmt⟩
        · exact Or.inl ⟨ho, k, trans_of R hsm hk, hlast⟩
        · exact Or.inr ⟨ho, trans_of R hsm hmt⟩
    · exact Or.inr ⟨by simp, hmiss s t _ hlook (by simp)⟩

end Timer

/-! ### A wait for a nonce -/

namespace Client

/-- A look at a nonce is one query of the account's record. -/
theorem accountNonce_cases {node : Node ν τ} {a : String} {w v : World ν τ} {out : Except Fault Int}
    (h : (accountNonce node (.text a)).runOn w = (out, v)) :
    ∃ answer n, (node.query w.clock.now "System" "Account" (.list [.text a])).runOn w.node =
        (answer, n) ∧ v = w.after n (.look a answer) ∧ out = answer.bind nonceOf := by
  rcases hq : (node.query w.clock.now "System" "Account" (.list [.text a])).runOn w.node with
    ⟨answer, n⟩
  have hfind : (find? node "System" "Account" (.list [.text a])).runOn w =
      (answer, w.after n (.look a answer)) := by
    rw [find?, World.runOn_call, hq]
    rfl
  refine ⟨answer, n, rfl, ?_⟩
  rcases bind_cases h with ⟨found, m, hf, hn⟩ | ⟨f, hf, rfl⟩
  · obtain ⟨rfl, rfl⟩ := Prod.mk.inj (hfind.symm.trans hf)
    rw [runOn_ofExcept] at hn
    obtain ⟨rfl, rfl⟩ := Prod.mk.inj hn
    exact ⟨rfl, rfl⟩
  · obtain ⟨rfl, rfl⟩ := Prod.mk.inj (hfind.symm.trans hf)
    exact ⟨rfl, rfl⟩

/-- Whole numbers are compared as such. -/
theorem atLeast_int (r target : Int) :
    Value.atLeast (.int r) (.int target) = .ok (decide (target ≤ r)) := by
  simp only [Value.atLeast, Value.number?, Number.le, Number.compare?, compare, compareOfLessAndEq]
  rcases Int.lt_trichotomy target r with h | h | h
  · simp [h, Int.le_of_lt h]
  · simp [h]
  · simp [show ¬ target < r by omega, show target ≠ r by omega, show ¬ target ≤ r by omega]

/-- The look that a wait takes: whether the nonce on chain has reached the target. -/
def hasReached (node : Node ν τ) (a : String) (target : Int) : Act (World ν τ) Bool := do
  let nonce ← accountNonce node (.text a)
  Act.ofExcept (Value.atLeast (.int nonce) (.int target))

theorem hasReached_cases {node : Node ν τ} {a : String} {target : Int} {w v : World ν τ}
    {out : Except Fault Bool} (h : (hasReached node a target).runOn w = (out, v)) :
    ∃ answer n, (node.query w.clock.now "System" "Account" (.list [.text a])).runOn w.node =
        (answer, n) ∧ v = w.after n (.look a answer) ∧
        out = (answer.bind nonceOf).map fun r => decide (target ≤ r) := by
  rcases bind_cases h with ⟨r, m, hread, hcmp⟩ | ⟨f, hread, rfl⟩
  · obtain ⟨answer, n, hq, rfl, hr⟩ := accountNonce_cases hread
    rw [runOn_ofExcept, atLeast_int] at hcmp
    obtain ⟨rfl, rfl⟩ := Prod.mk.inj hcmp
    exact ⟨answer, n, hq, rfl, by rw [← hr]; rfl⟩
  · obtain ⟨answer, n, hq, rfl, hr⟩ := accountNonce_cases hread
    exact ⟨answer, n, hq, rfl, by rw [← hr]; rfl⟩

/-- A wait for a nonce is a loop of looks between two notices. -/
theorem waitForNonce_eq [Seconds τ] (node : Node ν τ) (a : String) (target : Int)
    (timeout interval : τ) :
    waitForNonce node (.text a) (.int target) timeout interval none = (do
      World.note (.waiting (.int target) (.text a) timeout)
      let ok ← World.waitFor timeout interval (hasReached node a target)
      World.note (if ok then .reached (.int target) (.text a)
        else .timedOut timeout (.int target) (.text a))
      return ok) := rfl

section

variable [Seconds τ] {R : World ν τ → World ν τ → Prop} [IsPreorder (World ν τ) R]

/-- **What a wait for a nonce has done.**  Let `R` cover notices, sleeps and looks whose answer is
no nonce that has reached the target.  A wait that says yes is in `R` up to a last look that has
reached it; any other is in `R` as a whole. -/
theorem waitForNonce_cases {node : Node ν τ} {a : String} {target : Int} {timeout interval : τ}
    (hnote : ∀ (n : Notice τ) (w : World ν τ), n.IsPlain → R w (w.noted n))
    (hsleep : ∀ (c : Clock τ) (w : World ν τ), R w { w with clock := c })
    (hmiss : ∀ (w : World ν τ) answer n,
      (node.query w.clock.now "System" "Account" (.list [.text a])).runOn w.node = (answer, n) →
      (∀ r, answer.bind nonceOf = .ok r → r < target) → R w (w.after n (.look a answer)))
    {w v : World ν τ} {out : Except Fault Bool}
    (h : (waitForNonce node (.text a) (.int target) timeout interval none).runOn w = (out, v)) :
    (out = .ok true ∧ ∃ m answer n r, R w m ∧
        (node.query m.clock.now "System" "Account" (.list [.text a])).runOn m.node = (answer, n) ∧
        answer.bind nonceOf = .ok r ∧ target ≤ r ∧
        v = (m.after n (.look a answer)).noted (.reached (.int target) (.text a))) ∨
      (out ≠ .ok true ∧ R w v) := by
  have hslept : ∀ length, Keeps R (World.sleep (ν := ν) length) := by
    intro length w
    obtain ⟨c, hc⟩ := World.sleep_clock length w
    rw [hc]
    exact hsleep c w
  have hloop : ∀ deadline fuel, Timer.EndsLooking R (hasReached node a target)
      (World.timer.poll deadline interval (hasReached node a target) fuel) := by
    intro deadline fuel
    refine Timer.poll_endsLooking (fun s t out hl ho => ?_) (fun s => refl_of R s) hslept fuel
    obtain ⟨answer, n, hq, rfl, rfl⟩ := hasReached_cases hl
    refine hmiss s answer n hq fun r hr => ?_
    rw [hr] at ho
    rcases Int.lt_or_le r target with hlt | hle
    · exact hlt
    · exact absurd (by simp [Except.map, hle]) ho
  rw [waitForNonce, runOn_bind_ok (World.runOn_note _ w)] at h
  have hstart : R w (w.noted (.waiting (.int target) (.text a) timeout)) := hnote _ w ⟨rfl, rfl⟩
  rcases bind_cases h with ⟨ok, m, hpoll, h⟩ | ⟨f, hpoll, rfl⟩
  · rw [runOn_bind_ok (World.runOn_note _ m)] at h
    obtain ⟨rfl, rfl⟩ := Prod.mk.inj h
    rcases hloop _ _ _ _ _ hpoll with ⟨ho, k, hk, hlast⟩ | ⟨ho, hm⟩
    · obtain ⟨answer, n, hq, rfl, hout⟩ := hasReached_cases hlast
      obtain rfl : ok = true := by simpa using ho
      cases hr : answer.bind nonceOf with
      | error f => simp [hr, Except.map] at hout
      | ok r =>
        refine Or.inl ⟨rfl, k, answer, n, r, trans_of R hstart hk, hq, hr, ?_, rfl⟩
        simpa [hr, Except.map] using hout
    · obtain rfl : ok = false := by simpa using ho
      exact Or.inr ⟨by simp, trans_of R hstart (trans_of R hm (hnote _ m ⟨rfl, rfl⟩))⟩
  · rcases hloop _ _ _ _ _ hpoll with ⟨ho, -⟩ | ⟨-, hm⟩
    · cases ho
    · exact Or.inr ⟨by simp, trans_of R hstart hm⟩

end

end Client

end Campaign
