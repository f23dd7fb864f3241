import Campaign.Proofs.Accounting
import Campaign.Proofs.Growth
import Campaign.Proofs.Inclusion
import Campaign.Proofs.Pacing
import Campaign.Proofs.Schedule

/-!
# Barriers under delayed inclusion

On a node that nobody else uses, what a barrier comes to is settled when it begins.  How many reads
the account still needs stands in the line of what waits for inclusion (`Sequential.readsLeft`), and
how many looks there is time for in the schedule of the wait.  The smaller of the two is the number
of reads that the barrier makes, and if it is the first, the barrier says yes.

`Abreast` is what makes a line and a tracker fit together: what is tracked for an address is the
pool's next nonce, which ends its line.  Every move keeps it (`Abreast.move`), so it holds of every
session that can be reached.  `World.ReadTimes` counts reads between two worlds, and
`barrier_counts_reads` puts the pieces together.
-/

namespace Campaign

open Act History Campaign.Sequential

variable {τ : Type}

/-! ### The tracker and the line -/

/-- **The tracker is abreast of the node**, and what waits on the node stands in line. -/
structure Abreast (setup : Setup τ) (s : Session State τ) : Prop where
  lined : Lined setup.includeAfter s.world.node
  /-- What is tracked is the pool's next nonce. -/
  tracked : ∀ a k, s.nonces.get? (.text a) = some k → k = next a s.world.node
  /-- Nothing waits from an address that nothing was taken from. -/
  idle : ∀ a, accepted a s.world.journal = [] → waitingFrom a s.world.node.waiting = []

namespace Abreast

variable {setup : Setup τ} {s t : Session State τ}

theorem fresh (setup : Setup τ) (chain : Table String Int) (c : Clock τ) :
    Abreast setup (.fresh (.ofNonces chain) c) where
  lined := lined_ofNonces _ chain
  tracked _ _ hk := nomatch hk
  idle _ _ := rfl

/-- Reads leave the tracker abreast, whatever is written down with which nothing is taken. -/
theorem read (h : Abreast setup s) {x : Event τ} (hx : x.accepted? = none) :
    Abreast setup (s.after (countRead s.world.node) x) where
  lined := h.lined.countRead
  tracked := h.tracked
  idle a ha := by
    have hbefore : accepted a (x :: s.world.journal) = accepted a s.world.journal :=
      accepted_cons_of_none hx
    have hnone := h.idle a (hbefore.symm.trans ha)
    show waitingFrom a (countRead s.world.node).waiting = []
    rw [waitingFrom_countRead, hnone]
    rfl

/-- What leaves pool, chain and line alone, and takes nothing, leaves the tracker abreast. -/
theorem same (h : Abreast setup s) {n : State} {x : Event τ} (hx : x.accepted? = none)
    (hpool : n.pool = s.world.node.pool) (hincluded : n.included = s.world.node.included)
    (hwaiting : n.waiting = s.world.node.waiting) : Abreast setup (s.after n x) := by
  have hnext : ∀ a, next a n = next a s.world.node := fun a => by rw [next, hpool, next]
  have hchain : ∀ a, onChain a n = onChain a s.world.node := fun a => by
    rw [onChain, hincluded, onChain]
  refine ⟨⟨?_, ?_, fun a => ?_⟩, fun a k hk => ?_, fun a ha => ?_⟩
  · rw [show (s.after n x).world.node.waiting = _ from hwaiting]
    exact h.lined.reads
  · rw [show (s.after n x).world.node.waiting = _ from hwaiting]
    exact h.lined.ordered
  · show Consecutive (onChain a n) (next a n) (waitingFrom a n.waiting)
    rw [hchain, hnext, hwaiting]
    exact h.lined.nonces a
  · exact (h.tracked a k hk).trans (hnext a).symm
  · have hbefore : accepted a (x :: s.world.journal) = accepted a s.world.journal :=
      accepted_cons_of_none hx
    show waitingFrom a n.waiting = []
    rw [hwaiting]
    exact h.idle a (hbefore.symm.trans ha)

/-- An address that nothing was taken from is tracked from the pool's next nonce. -/
theorem onChain_countRead (h : Abreast setup s) {a : String}
    (hnone : accepted a s.world.journal = []) :
    onChain a (countRead s.world.node) = next a s.world.node := by
  have hidle : waitingFrom a (countRead s.world.node).waiting = [] := by
    rw [waitingFrom_countRead, h.idle a hnone]
    rfl
  exact h.lined.countRead.onChain_eq_next (h.lined.countRead.readsLeft_eq_zero.mpr hidle)

/-- The next extrinsic of an address moves the pool and the tracker on together. -/
theorem accept (h : Abreast setup s) {e : Extrinsic} {hash : Option String} {n : State}
    (role : Value) (call : String) (hnonce : e.nonce = next e.address s.world.node)
    (hn : n = taken setup e { s.world.node with attempts := s.world.node.attempts + 1 }) :
    Abreast setup ((s.after n (.submitted e (.ok hash))).taking e role call hash) := by
  subst hn
  have hattempt : Lined setup.includeAfter
      { s.world.node with attempts := s.world.node.attempts + 1 } :=
    ⟨h.lined.reads, h.lined.ordered, h.lined.nonces⟩
  refine ⟨hattempt.taken hnonce, fun a k hk => ?_, fun a ha => ?_⟩
  · have hput : (s.nonces.put (.text e.address) (e.nonce + 1)).get? (.text a) = some k := hk
    show k = next a (taken setup e _)
    rw [Tracker.get?_put_text] at hput
    rw [next_taken]
    split at hput
    · rename_i hea
      rw [if_pos hea]
      exact (Option.some.inj hput).symm
    · rename_i hea
      rw [if_neg hea]
      exact h.tracked a k hput
  · have hafter : accepted a
        (.noticed (.submitted hash e.nonce) :: .submitted e (.ok hash) :: s.world.journal) =
          [] := ha
    rw [accepted_cons_of_none rfl, accepted_cons_of_some rfl] at hafter
    split at hafter
    · exact absurd hafter (by simp)
    · rename_i hea
      exact (waitingFrom_taken hea).trans (h.idle a hafter)

variable [Seconds τ]

/-- **Every move keeps the tracker abreast of the node.** -/
theorem move (h : Abreast setup s) (htruth : setup.Truthful)
    (acc : Accounted s.nonces s.world.journal)
    (hmove : Session.Move (Sequential.node setup) s t) : Abreast setup t := by
  cases hmove with
  | note n plain => exact h.same rfl rfl rfl rfl
  | pass c => exact ⟨h.lined, h.tracked, h.idle⟩
  | look hq =>
    rw [query_account htruth] at hq
    obtain ⟨-, rfl⟩ := Prod.mk.inj hq
    exact h.read rfl
  | compose hc =>
    obtain ⟨-, rfl⟩ := Prod.mk.inj hc
    exact h.same rfl rfl rfl rfl
  | sign due hs =>
    obtain ⟨-, rfl⟩ := Prod.mk.inj hs
    exact h.same rfl rfl rfl rfl
  | refuse due hs =>
    rcases submit_cases htruth hs with ⟨_, hok, -⟩ | ⟨f, -, rfl, -⟩
    · cases hok
    · exact h.same rfl rfl rfl rfl
  | accept role call due hs =>
    rcases submit_cases htruth hs with ⟨_, -, hnonce, hn⟩ | ⟨_, hno, -⟩
    · exact h.accept role call hnonce hn
    · cases hno
  | @track a answer n v fresh hq hv =>
    rw [query_account htruth] at hq
    obtain ⟨rfl, rfl⟩ := Prod.mk.inj hq
    obtain rfl : onChain a (countRead s.world.node) = v := Except.ok.inj hv
    have hread := h.read (x := .look a (.ok (some (ownRecord (onChain a
      (countRead s.world.node)))))) rfl
    refine ⟨hread.lined, fun b k hk => ?_, hread.idle⟩
    have hput : (s.nonces.put (.text a) (onChain a (countRead s.world.node))).get? (.text b) =
      some k := hk
    show k = next b (countRead s.world.node)
    rw [Tracker.get?_put_text] at hput
    split at hput
    · rename_i hab
      rw [← Option.some.inj hput, ← hab]
      exact h.onChain_countRead (accepted_of_unattempted (acc.unattempted fresh))
    · exact h.tracked b k hput

theorem moves (h : Abreast setup s) (htruth : setup.Truthful)
    (acc : Accounted s.nonces s.world.journal)
    (hmoves : Session.Moves (Sequential.node setup) s t) : Abreast setup t := by
  induction hmoves with
  | refl => exact h
  | tail hbefore hmove ih => exact ih.move htruth (acc.moves hbefore) hmove

end Abreast

/-! ### Reads between two worlds -/

/-- How many reads it takes until one finds all that was taken from an address on chain.  There is
always one. -/
def Sequential.readsNeeded (a : String) (n : State) : ℕ := max 1 (readsLeft a n)

namespace World

/-- **Between two worlds an account is read so many times**, and nothing else is asked of the
node. -/
structure ReadTimes (a : String) (k : ℕ) (w v : World State τ) : Prop where
  node : v.node = countRead^[k] w.node
  journal : ∃ new, v.journal = new ++ w.journal ∧ (∀ x ∈ new, x.Watches a) ∧ operations new = k

namespace ReadTimes

variable {a : String} {k : ℕ} {w v : World State τ}

theorem refl (a : String) (w : World State τ) : ReadTimes a 0 w w :=
  ⟨rfl, [], rfl, by simp, rfl⟩

theorem noted (h : ReadTimes a k w v) {n : Notice τ} (plain : n.IsPlain) :
    ReadTimes a k w (v.noted n) := by
  obtain ⟨hnode, new, hjournal, hnew, hcount⟩ := h
  refine ⟨hnode, .noticed n :: new, ?_, ?_, ?_⟩
  · rw [World.noted, hjournal, List.cons_append]
  · exact List.forall_mem_cons.mpr ⟨Or.inr ⟨n, rfl, plain⟩, hnew⟩
  · rw [operations_cons, hcount]
    rfl

theorem look (h : ReadTimes a k w v) (answer : Except Fault (Option Value)) :
    ReadTimes a (k + 1) w (v.after (countRead v.node) (.look a answer)) := by
  obtain ⟨hnode, new, hjournal, hnew, hcount⟩ := h
  refine ⟨?_, .look a answer :: new, ?_, ?_, ?_⟩
  · rw [Function.iterate_succ_apply', ← hnode]
    rfl
  · rw [World.after, hjournal, List.cons_append]
  · exact List.forall_mem_cons.mpr ⟨Or.inl ⟨answer, rfl⟩, hnew⟩
  · rw [operations_cons, hcount]
    rfl

end ReadTimes

/-! ### Looks -/

section

variable {setup : Setup ℚ} {a : String} {longest : Int} {k : ℕ} {w v : World State ℚ}
  {timeout interval : ℚ}

/-- A look counts a read and finds what is on chain then. -/
theorem runOn_hasReached (htruth : setup.Truthful) (a : String) (target : Int)
    (w : World State ℚ) :
    (Client.hasReached (Sequential.node setup) a target).runOn w =
      (.ok (decide (target ≤ onChain a (countRead w.node))), w.after (countRead w.node)
        (.look a (.ok (some (ownRecord (onChain a (countRead w.node))))))) := by
  rcases hrun : (Client.hasReached (Sequential.node setup) a target).runOn w with ⟨out, v⟩
  obtain ⟨answer, n, hq, rfl, rfl⟩ := Client.hasReached_cases hrun
  rw [query_account htruth] at hq
  obtain ⟨rfl, rfl⟩ := Prod.mk.inj hq
  rfl

/-- Every look of a wait is one read, and the sleeps are none. -/
theorem ReadTimes.upTo (htruth : setup.Truthful) (target : Int) (lengths : List ℚ)
    (h : ReadTimes a k w v) : ReadTimes a (k + lengths.length) w
      (upTo (Client.hasReached (Sequential.node setup) a target) lengths v) := by
  induction lengths generalizing k v with
  | nil => exact h
  | cons length lengths ih =>
    have hlook := h.look (.ok (some (ownRecord (onChain a (countRead v.node)))))
    rw [World.upTo, runOn_hasReached htruth, List.length_cons, Nat.add_comm lengths.length,
      ← Nat.add_assoc]
    exact ih ⟨hlook.node, hlook.journal⟩

/-- **A look tells whether the reads have come to what is needed.** -/
theorem ReadTimes.hasReached (htruth : setup.Truthful) (hlined : Lined longest w.node)
    (h : ReadTimes a k w v) :
    ∃ u, (Client.hasReached (Sequential.node setup) a (next a w.node)).runOn v =
        (.ok (decide (readsNeeded a w.node ≤ k + 1)), u) ∧ ReadTimes a (k + 1) w u := by
  refine ⟨_, ?_, h.look (.ok (some (ownRecord (onChain a (countRead v.node)))))⟩
  have hcount : next a w.node ≤ onChain a (countRead v.node) ↔ readsNeeded a w.node ≤ k + 1 := by
    have hline := (hlined.iterate (k + 1)).next_le_onChain (a := a)
    rw [next_iterate, readsLeft_iterate, Function.iterate_succ_apply', ← h.node] at hline
    rw [hline, readsNeeded]
    omega
  rw [runOn_hasReached htruth]
  simp only [hcount]

/-- **A wait for the pool's next nonce counts its reads.**  It has time for so many, and ends with
the one that is needed if it comes to that. -/
theorem ReadTimes.waitFor (htruth : setup.Truthful) (hlined : Lined longest w.node)
    (hinterval : 0 < interval) (h : ReadTimes a 0 w v) (hsteady : v.clock.Steady)
    (hfits : v.clock.Fits ⌈max 0 timeout / interval⌉₊) :
    let looks := ⌈max 0 timeout / interval⌉₊ + 1
    ∃ u, (World.waitFor timeout interval
          (Client.hasReached (Sequential.node setup) a (next a w.node))).runOn v =
        (.ok (decide (readsNeeded a w.node ≤ looks)), u) ∧
      ReadTimes a (min (readsNeeded a w.node) looks) w u := by
  intro looks
  set holds := Client.hasReached (Sequential.node setup) a (next a w.node)
  set last := ⌈max 0 timeout / interval⌉₊
  -- The world at a look on the schedule, with one read for each look before it.
  let atLook k := World.upTo holds ((pauses timeout interval).take k) v
  have hlook : ∀ k ≤ last, ∃ u,
      holds.runOn (atLook k) = (.ok (decide (readsNeeded a w.node ≤ k + 1)), u) ∧
        ReadTimes a (k + 1) w u := by
    intro k hk
    have hreads := h.upTo htruth (next a w.node) ((pauses timeout interval).take k)
    rw [Nat.zero_add, List.length_take_of_le (length_pauses.symm ▸ hk)] at hreads
    exact hreads.hasReached htruth hlined
  have hno : ∀ k ≤ last, k + 1 < readsNeeded a w.node →
      (holds.runOn (atLook k)).1 = .ok false := by
    intro k hk hless
    obtain ⟨u, hu, -⟩ := hlook k hk
    rw [hu, decide_eq_false (Nat.not_le.mpr hless)]
  obtain ⟨-, -, -, hyes, -, hnever⟩ :=
    looks_on_schedule hinterval (Client.sameClock_hasReached _ a _) hsteady hfits
  have hone : 1 ≤ readsNeeded a w.node := le_max_left _ _
  by_cases htime : readsNeeded a w.node ≤ last + 1
  · obtain ⟨u, hu, hreads⟩ := hlook (readsNeeded a w.node - 1) (by omega)
    rw [Nat.sub_add_cancel hone] at hu hreads
    rw [decide_eq_true le_rfl] at hu
    rw [decide_eq_true htime, Nat.min_eq_left htime]
    refine ⟨u, (hyes _ (by omega)).2.2 _ u (fun j hj => ?_) hu (by simp), hreads⟩
    exact hno j (by omega) (by omega)
  · obtain ⟨u, hu, hreads⟩ := hlook last le_rfl
    rw [decide_eq_false htime, Nat.min_eq_right (Nat.le_of_not_le htime)]
    refine ⟨u, ?_, hreads⟩
    rw [(hnever fun k hk => hno k hk (by omega)).1]
    exact congrArg (Prod.mk _) (congrArg Prod.snd hu)

end

end World

/-! ### Barriers -/

namespace Script

variable {setup : Setup ℚ} {script : Script State ℚ}

/-- The wait of a barrier is such a wait between two notices. -/
theorem waitOn_counts_reads (htruth : setup.Truthful)
    (hnode : script.node = Sequential.node setup) (hinterval : 0 < script.pollInterval)
    (b : Barrier ℚ) (a : String) {w : World State ℚ} (hlined : Lined setup.includeAfter w.node)
    (hsteady : w.clock.Steady)
    (hfits : w.clock.Fits ⌈max 0 (script.patience b) / script.pollInterval⌉₊) :
    let looks := ⌈max 0 (script.patience b) / script.pollInterval⌉₊ + 1
    ∃ u, (script.waitOn b a (next a w.node)).runOn w =
        (.ok (decide (readsNeeded a w.node ≤ looks)), u) ∧
      w.ReadTimes a (min (readsNeeded a w.node) looks) u := by
  intro looks
  have hnoted := (World.ReadTimes.refl a w).noted
    (n := .waiting (.int (next a w.node)) (.text a) (script.patience b)) ⟨rfl, rfl⟩
  obtain ⟨u, hu, hreads⟩ := hnoted.waitFor htruth hlined hinterval
    (show Clock.Steady _ from hsteady) (show Clock.Fits _ _ from hfits)
  refine ⟨_, ?_, hreads.noted (n := if decide (readsNeeded a w.node ≤ looks) then
      .reached (.int (next a w.node)) (.text a)
    else .timedOut (script.patience b) (.int (next a w.node)) (.text a)) ?_⟩
  · rw [waitOn_eq, runOn_bind_ok (World.runOn_note _ w), hnode, runOn_bind_ok hu,
      runOn_bind_ok (World.runOn_note _ u)]
    rfl
  · split <;> exact ⟨rfl, rfl⟩

/-- **What a barrier comes to is settled when it begins.**  On a node that nobody else uses, that
shows the nonces as they are and includes after any number of reads, take a session that a caller
can bring about and an account that it tracks.  The barrier needs as many reads as the last of the
account's extrinsics that wait, and one if none waits; it has time for one look more than intervals
fit into its timeout, a part of one counting as one.  If there is time for what is needed, it makes
just those reads and says yes, and then the chain has caught up with the pool.  Else it makes as
many reads as there is time for and gives up.  Whatever failed before does not matter. -/
theorem barrier_counts_reads (htruth : setup.Truthful)
    (hnode : script.node = Sequential.node setup) (hinterval : 0 < script.pollInterval)
    {chain : Table String Int} {c : Clock ℚ} {s : Session State ℚ}
    (h : script.Reaches (.fresh (.ofNonces chain) c) s) {b : Barrier ℚ} {a : String} {target : Int}
    (haddr : script.address b.account = .ok a)
    (htracked : s.nonces.get? (.text a) = some target) (hsteady : s.world.clock.Steady)
    (hfits : s.world.clock.Fits ⌈max 0 (script.patience b) / script.pollInterval⌉₊) :
    let needed := readsNeeded a s.world.node
    let looks := ⌈max 0 (script.patience b) / script.pollInterval⌉₊ + 1
    let run := (script.wait b).runOn s
    run.2.nonces = s.nonces ∧ run.2.sent = s.sent ∧
      (needed ≤ looks → run.1 = .ok true ∧ s.world.ReadTimes a needed run.2.world ∧
        onChain a run.2.world.node = next a run.2.world.node) ∧
      (looks < needed →
        (run.1 = if b.strict.truthy then
          .error (.barrierTimeout b.account.shown target (Seconds.text (script.patience b)))
        else .ok false) ∧ s.world.ReadTimes a looks run.2.world ∧
        onChain a run.2.world.node < next a run.2.world.node) := by
  intro needed looks run
  have hmoves := moves_of_reaches h
  rw [hnode] at hmoves
  have habreast := (Abreast.fresh setup chain c).moves htruth Accounted.nil hmoves
  obtain rfl := habreast.tracked a target htracked
  obtain ⟨u, hu, hreads⟩ :
      ∃ u, (script.waitOn b a (next a s.world.node)).runOn s.world =
          (.ok (decide (needed ≤ looks)), u) ∧ s.world.ReadTimes a (min needed looks) u :=
    waitOn_counts_reads htruth hnode hinterval b a habreast.lined hsteady hfits
  have hrun : run = ((.ok (decide (needed ≤ looks)) : Except Fault Bool).bind
      (script.verdict b (next a s.world.node)), { s with world := u }) := by
    rcases wait_cases (show (script.wait b).runOn s = (run.1, run.2) from rfl) with
      ⟨f, hf, -⟩ | ⟨a', ha', ⟨hnone, -⟩ | ⟨target, polled, v, htarget, hpoll, hend, hout⟩⟩
    · cases haddr.symm.trans hf
    · obtain rfl := Except.ok.inj (haddr.symm.trans ha')
      cases htracked.symm.trans hnone
    · obtain rfl := Except.ok.inj (haddr.symm.trans ha')
      obtain rfl := Option.some.inj (htracked.symm.trans htarget)
      obtain ⟨rfl, rfl⟩ := Prod.mk.inj (hu.symm.trans hpoll)
      exact Prod.ext hout hend
  have hlined : ∀ k, s.world.ReadTimes a k u → Lined setup.includeAfter u.node := fun k hk =>
    hk.node ▸ habreast.lined.iterate k
  rw [hrun]
  refine ⟨rfl, rfl, fun htime => ?_, fun htime => ?_⟩
  · have hcount : s.world.ReadTimes a needed u := by
      rwa [Nat.min_eq_left htime] at hreads
    refine ⟨by rw [decide_eq_true htime]; rfl, hcount, (hlined _ hcount).onChain_eq_next ?_⟩
    rw [hcount.node, readsLeft_iterate]
    exact Nat.sub_eq_zero_of_le (le_max_right _ _)
  · have hcount : s.world.ReadTimes a looks u := by
      rwa [Nat.min_eq_right (Nat.le_of_lt htime)] at hreads
    refine ⟨?_, hcount, not_le.mp fun hcaught => ?_⟩
    · rw [decide_eq_false (Nat.not_le.mpr htime)]
      exact verdict_false b _
    · -- Something still waits.
      have hnone : readsLeft a u.node = 0 := (hlined _ hcount).next_le_onChain.mp hcaught
      rw [hcount.node, readsLeft_iterate] at hnone
      have hmore : looks < max 1 (readsLeft a s.world.node) := htime
      have hone : 1 ≤ looks := Nat.le_add_left 1 _
      omega

/-- A script with two accounts, on a node that includes after three reads. -/
def late : Script State ℚ where
  node := Sequential.node { includeAfter := 3 }
  accounts := ⟨[("root", ⟨"a", true⟩), ("user", ⟨"b", true⟩)]⟩
  barrierTimeout := 1
  pollInterval := 1 / 2

set_option maxRecDepth 10000 in
/-- A barrier of another account has read once between two submissions, so that two and three reads
are needed.  A barrier that has time for three looks says yes with the third, and one that has time
for two gives up. -/
theorem barrier_counts_reads_late :
    let started := (late.startRoles .empty ["root", "user"]).runOn
      (.fresh (.ofNonces ⟨[("a", 5)]⟩) { now := 0 })
    let s := ((late.perform (.run [⟨"mixed", [
      .submit ⟨"root", "System", "remark", .absent, .null⟩,
      .barrier ⟨"user", some 0, .null⟩,
      .submit ⟨"root", "System", "remark", .absent, .null⟩]⟩])).runOn started.2).2
    let wait timeout := (late.wait ⟨"root", some timeout, .null⟩).runOn s
    s.world.node.waiting = [⟨2, "a", 5⟩, ⟨3, "a", 6⟩] ∧
      (wait 1).1 = .ok true ∧ s.world.ReadTimes "a" 3 (wait 1).2.world ∧
      (wait (1 / 2)).1 = .ok false ∧ s.world.ReadTimes "a" 2 (wait (1 / 2)).2.world := by
  intro started s wait
  have hreaches : late.Reaches (.fresh (.ofNonces ⟨[("a", 5)]⟩) { now := 0 }) s :=
    .perform _ (.start _ .refl fun _ _ _ _ => unattempted_nil)
  have hinterval : 0 < late.pollInterval := by norm_num [late]
  have htracked : s.nonces.get? (.text "a") = some 7 := by decide +kernel
  have hclock : s.world.clock.interruptAt = none ∧ s.world.clock.slept = [] ∧
    s.world.clock.limit = 5000 := by decide +kernel
  have hneeded : readsNeeded "a" s.world.node = 3 := by decide +kernel
  have hbarrier timeout (hlooks : ⌈max 0 (late.patience ⟨"root", some timeout, .null⟩) /
      late.pollInterval⌉₊ ≤ 2) :=
    barrier_counts_reads ⟨rfl, rfl, rfl⟩ rfl hinterval hreaches
      (b := ⟨"root", some timeout, .null⟩) (a := "a") rfl htracked hclock.1 (by
        rw [Clock.Fits, hclock.2.1, hclock.2.2]
        exact (Nat.add_le_add_left hlooks 0).trans (by decide))
  have hthree : ⌈max 0 (late.patience ⟨"root", some 1, .null⟩) / late.pollInterval⌉₊ = 2 := by
    decide +kernel
  have htwo : ⌈max 0 (late.patience ⟨"root", some (1 / 2), .null⟩) / late.pollInterval⌉₊ = 1 := by
    decide +kernel
  obtain ⟨-, -, hyes, -⟩ := hbarrier 1 hthree.le
  obtain ⟨-, -, -, hno⟩ := hbarrier (1 / 2) (htwo.le.trans one_le_two)
  rw [hneeded, hthree] at hyes
  rw [hneeded, htwo] at hno
  exact ⟨by decide +kernel, (hyes le_rfl).1, (hyes le_rfl).2.1, (hno (by decide)).1,
    (hno (by decide)).2.1⟩

end Script

end Campaign
