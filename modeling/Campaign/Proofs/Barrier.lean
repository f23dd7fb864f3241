import Campaign.Proofs.Accounting
import Campaign.Proofs.Growth
import Campaign.Proofs.SharedNode

/-!
# What a barrier tells

A barrier waits for the tracked nonce of its account, and everything the node has taken from the
account is below that one (`Accounted.nonce_lt`).  So a barrier that says yes has seen all of it on
chain, under whichever role it was sent.  A barrier that does not say yes has only read nonces below
the tracked one, and a strict one raises exactly then.

`waitOn_cases` is the wait itself on a node that others use as well: `Overseen` says that the pool
is moved by nobody else than those others.
-/

namespace Campaign

open Act History Campaign.Sequential

variable {τ : Type}

namespace History

/-- A nonce was read for an address. -/
def Reads (a : String) (h : History τ) (r : Int) : Prop :=
  ∃ answer, .look a answer ∈ h ∧ answer.bind Client.nonceOf = .ok r

end History

/-- An event of a wait that has not been long enough: what it reads, if anything, is below the
target. -/
def Event.Misses (a : String) (target : Int) (x : Event τ) : Prop :=
  x.Watches a ∧ ∀ answer r, x = .look a answer → answer.bind Client.nonceOf = .ok r → r < target

namespace Sequential

/-- Nothing was handed in meanwhile, and only others have used nonces. -/
structure Overseen (uses : Nat → List String) (n m : Shared) : Prop where
  operations : n.operations ≤ m.operations
  pool : m.own.pool = (usedBy (foreign uses n.operations m.operations) n.own).pool
  accepted : m.own.accepted = n.own.accepted
  attempts : m.own.attempts = n.own.attempts

variable {uses : Nat → List String}

instance : IsPreorder Shared (Overseen uses) where
  refl n := ⟨Nat.le_refl _, by rw [foreign_self]; rfl, rfl, rfl⟩
  trans n m l h g := by
    refine ⟨Nat.le_trans h.operations g.operations, ?_, g.accepted.trans h.accepted,
      g.attempts.trans h.attempts⟩
    rw [← foreign_append uses h.operations g.operations, usedBy_append, g.pool]
    exact pool_usedBy _ h.pool

theorem attempts_usedBy (addresses : List String) : ∀ s : State,
    (usedBy addresses s).attempts = s.attempts ∧ (usedBy addresses s).accepted = s.accepted := by
  induction addresses with
  | nil => exact fun _ => ⟨rfl, rfl⟩
  | cons a rest ih => exact fun s => ih (bump a s)

/-- A read hands nothing in. -/
theorem overseen_read (n : Shared) :
    Overseen uses n { own := countRead (n.found uses), operations := n.operations + 1 } where
  operations := Nat.le_succ _
  pool := by
    rw [foreign_succ uses (Nat.le_refl _), foreign_self]
    rfl
  accepted := (attempts_usedBy _ n.own).2
  attempts := (attempts_usedBy _ n.own).1

end Sequential

section

variable {setup : Setup τ} {uses : Nat → List String} {a : String} {target : Int}

/-- What a wait does that has not been long enough. -/
structure Missing (uses : Nat → List String) (a : String) (target : Int) (w v : World Shared τ) :
    Prop where
  adds : World.Adds (Event.Misses a target) w v
  node : Overseen uses w.node v.node

instance : IsPreorder (World Shared τ) (Missing uses a target) where
  refl w := ⟨refl_of (World.Adds _) w, refl_of (Overseen uses) w.node⟩
  trans _ _ _ h g := ⟨trans_of (World.Adds _) h.adds g.adds, trans_of (Overseen uses) h.node g.node⟩

theorem missing_note {n : Notice τ} (w : World Shared τ) (plain : n.IsPlain) :
    Missing uses a target w (w.noted n) where
  adds := History.grows_cons _ ⟨Or.inr ⟨n, rfl, plain⟩, fun _ _ hx => nomatch hx⟩
  node := refl_of (Overseen uses) w.node

theorem missing_pass {c : Clock τ} (w : World Shared τ) :
    Missing uses a target w { w with clock := c } where
  adds := refl_of (World.Adds _) w
  node := refl_of (Overseen uses) w.node

variable [Seconds τ]

theorem missing_look (htruth : setup.Truthful) (w : World Shared τ) {answer n}
    (hq : ((shared setup uses).query w.clock.now "System" "Account" (.list [.text a])).runOn
      w.node = (answer, n))
    (hmiss : ∀ r, answer.bind Client.nonceOf = .ok r → r < target) :
    Missing uses a target w (w.after n (.look a answer)) where
  adds := by
    refine History.grows_cons _ ⟨Or.inl ⟨answer, rfl⟩, fun answer' r hx hr => hmiss r ?_⟩
    cases hx
    exact hr
  node := by
    rw [query_shared htruth] at hq
    obtain ⟨rfl, rfl⟩ := Prod.mk.inj hq
    exact overseen_read w.node

/-- **What a wait has read.**  One that says yes has at last read a nonce that has reached the
target, which is on chain now; any other has read lower ones only. -/
theorem Script.waitOn_cases {script : Script Shared τ} (htruth : setup.Truthful)
    (hnode : script.node = shared setup uses) {b : Barrier τ} {w v : World Shared τ}
    {polled : Except Fault Bool} (h : (script.waitOn b a target).runOn w = (polled, v)) :
    Overseen uses w.node v.node ∧ ∃ new, v.journal = new ++ w.journal ∧ (∀ x ∈ new, x.Watches a) ∧
      (polled = .ok true → target ≤ onChain a v.node.own) ∧
      (polled ≠ .ok true ↔ ∀ r, Reads a new r → r < target) := by
  rw [waitOn, hnode] at h
  rcases Client.waitForNonce_cases (R := Missing uses a target)
    (fun _ w plain => missing_note w plain) (fun _ w => missing_pass w)
    (fun w _ _ hq => missing_look htruth w hq) h with
    ⟨rfl, m, answer, n, r, hm, hq, hr, hle, rfl⟩ | ⟨hpolled, hwv⟩
  · obtain ⟨new, hnew, hmiss⟩ := hm.adds
    have hread : answer.bind Client.nonceOf = .ok (onChain a n.own) ∧ Overseen uses m.node n := by
      rw [query_shared htruth] at hq
      obtain ⟨rfl, rfl⟩ := Prod.mk.inj hq
      exact ⟨rfl, overseen_read m.node⟩
    have hchain : r = onChain a n.own := Except.ok.inj (hr.symm.trans hread.1)
    refine ⟨trans_of (Overseen uses) hm.node hread.2,
      .noticed (.reached (.int target) (.text a)) :: .look a answer :: new, ?_, ?_, ?_, ?_⟩
    · rw [List.cons_append, List.cons_append, ← hnew]
      rfl
    · rintro x (_ | ⟨_, _ | ⟨_, hx⟩⟩)
      · exact Or.inr ⟨_, rfl, rfl, rfl⟩
      · exact Or.inl ⟨answer, rfl⟩
      · exact (hmiss x hx).1
    · exact fun _ => hchain ▸ hle
    · refine ⟨fun hne => absurd rfl hne, fun hlow => ?_⟩
      have hlt : r < target := hlow r ⟨answer, by simp, hr⟩
      omega
  · obtain ⟨new, hnew, hmiss⟩ := hwv.adds
    refine ⟨hwv.node, new, hnew, fun x hx => (hmiss x hx).1, fun hok => absurd hok hpolled,
      fun _ => ?_, fun _ => hpolled⟩
    rintro r ⟨answer, hx, hr⟩
    exact (hmiss _ hx).2 answer r rfl hr

section

variable {ν : Type} {script : Script ν τ} {b : Barrier τ} {polled : Except Fault Bool}

/-- A barrier says yes only if its wait does. -/
theorem Script.ok_of_verdict (h : polled.bind (script.verdict b target) = .ok true) :
    polled = .ok true := by
  rcases polled with f | _ | _
  · cases h
  · simp only [Except.bind, verdict_false] at h
    split at h <;> cases h
  · rfl

/-- If its wait raises nothing, a barrier raises a timeout exactly when it is strict and the wait
was in vain. -/
theorem Script.timeout_iff_of_verdict (hpolled : ∀ f, polled ≠ .error f) :
    polled.bind (script.verdict b target) = .error (.barrierTimeout b.account.shown target
        (Seconds.text (b.timeout.getD script.barrierTimeout))) ↔
      b.strict.truthy = true ∧ polled ≠ .ok true := by
  rcases polled with f | _ | _
  · exact absurd rfl (hpolled f)
  · simp only [Except.bind, verdict_false]
    split <;> simp_all
  · simp [Except.bind]

end

/-- **Barriers are sound.**  If a barrier says yes, everything taken from its address is on chain;
if it says no, it has read no nonce that had reached the tracked one; if nothing else is raised, it
raises a timeout exactly when it is strict and has read no such nonce.  It changes neither the
tracked nonces nor the record, and adds only looks and notices; the pool is only moved by others. -/
theorem Script.barrier_sound {script : Script Shared τ} (htruth : setup.Truthful)
    (hnode : script.node = shared setup uses) (start : Table String Int) (c : Clock τ)
    {s t : Session Shared τ} (h : script.Reaches (.fresh (.ofNonces start) c) s) {b : Barrier τ}
    {out : Except Fault Bool} (hrun : (script.wait b).runOn s = (out, t)) :
    (out = .ok true → ∃ a, script.address b.account = .ok a ∧
      ∀ e ∈ accepted a t.world.journal, e.nonce < onChain a t.world.node.own) ∧
    t.nonces = s.nonces ∧ t.sent = s.sent ∧ Overseen uses s.world.node t.world.node ∧
    ∃ new, t.world.journal = new ++ s.world.journal ∧
      (∀ x ∈ new, ∃ a, script.address b.account = .ok a ∧ x.Watches a) ∧
      ∀ a target, script.address b.account = .ok a → s.nonces.get? (.text a) = some target →
        (out = .ok false → ∀ r, Reads a new r → r < target) ∧
        ((∀ f, ((script.waitOn b a target).runOn s.world).1 ≠ .error f) →
          (out = .error (.barrierTimeout b.account.shown target
              (Seconds.text (b.timeout.getD script.barrierTimeout))) ↔
            b.strict.truthy = true ∧ ∀ r, Reads a new r → r < target)) := by
  have acc : Accounted s.nonces s.world.journal := Accounted.nil.moves (moves_of_reaches h)
  rcases wait_cases hrun with ⟨f, haddr, rfl, rfl⟩ | ⟨a, haddr, ⟨hnone, rfl, rfl⟩ |
    ⟨target, polled, w, htarget, hpoll, rfl, rfl⟩⟩
  · refine ⟨(nomatch ·), rfl, rfl, refl_of (Overseen uses) _, [], rfl, by simp, ?_⟩
    intro a target ha
    rw [haddr] at ha
    cases ha
  · refine ⟨(nomatch ·), rfl, rfl, refl_of (Overseen uses) _, [], rfl, by simp, ?_⟩
    intro c target hc htarget
    obtain rfl : a = c := by simpa [haddr] using hc
    rw [hnone] at htarget
    cases htarget
  · obtain ⟨hseen, new, hnew, hwatch, hchain, hlow⟩ := waitOn_cases htruth hnode hpoll
    refine ⟨fun hout => ⟨a, haddr, fun e he => ?_⟩, rfl, rfl, hseen, new, hnew,
      fun x hx => ⟨a, haddr, hwatch x hx⟩, ?_⟩
    · -- what the wait adds takes nothing, and all that was taken is below the target
      have hsame : accepted a w.journal = accepted a s.world.journal := by
        rw [hnew]
        exact accepted_append fun x hx => Event.accepted?_of_attempt? (hwatch x hx).quiet.1
      rw [hsame] at he
      exact Int.lt_of_lt_of_le (acc.nonce_lt htarget he) (hchain (ok_of_verdict hout))
    · intro c target' hc htarget'
      obtain rfl : a = c := by simpa [haddr] using hc
      obtain rfl : target = target' := by simpa [htarget] using htarget'
      refine ⟨fun hno => hlow.mp fun hyes => ?_, fun hnone => ?_⟩
      · rw [hyes] at hno
        cases hno
      · rw [← hlow]
        exact timeout_iff_of_verdict fun f hf => hnone f (by rw [hpoll, hf])

/-- What is taken is included after two reads, and others use the address while it waits. -/
def Script.delayed : Script Shared Value where
  node := shared { includeAfter := 2 } fun n => if n = 5 then ["a"] else []
  accounts := ⟨[("root", ⟨"a", true⟩), ("user", ⟨"a", true⟩)]⟩
  barrierTimeout := .int 5
  pollInterval := .int 1

set_option maxRecDepth 10000 in
/-- A barrier waits for the inclusion of what another role of its address has sent. -/
theorem Script.barrier_sound_delayed :
    let started := (delayed.startRoles .empty ["user"]).runOn
      (.fresh (.ofNonces ⟨[("a", 5)]⟩) { now := .int 0 })
    let s := ((delayed.perform (.submit ⟨"user", "System", "remark", .absent, .null⟩)).runOn
      started.2).2
    let run := (delayed.wait ⟨"root", none, .bool true⟩).runOn s
    (accepted "a" run.2.world.journal).map Extrinsic.nonce = [5] ∧
      run.2.world.clock.slept.length = 1 ∧ run.1 = .ok true ∧
      ∃ a, delayed.address "root" = .ok a ∧
        ∀ e ∈ accepted a run.2.world.journal, e.nonce < onChain a run.2.world.node.own := by
  have hok : ∀ r : Except Fault Bool, r.toOption = some true → r = .ok true := by
    rintro (f | b) hr
    · cases hr
    · rw [Option.some.inj hr]
  intro started s run
  have hreach : delayed.Reaches (.fresh (.ofNonces ⟨[("a", 5)]⟩) { now := .int 0 }) s :=
    .perform _ (.start _ .refl fun _ _ _ _ => unattempted_nil)
  have htruth : ({ includeAfter := 2 } : Setup Value).Truthful := ⟨rfl, rfl, rfl⟩
  have hrun : run.1 = .ok true := hok _ (by decide +kernel)
  refine ⟨by decide +kernel, by decide +kernel, hrun, ?_⟩
  exact (barrier_sound htruth rfl _ _ hreach rfl).1 hrun

end

end Campaign
