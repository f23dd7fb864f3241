import Campaign.Proofs.Accounting
import Campaign.Proofs.Growth
import Campaign.Proofs.SharedNode

/-!
# When an extrinsic is refused

On a node that others use as well, the tracker of a run and the pool of the node go apart in one way
only: each foreign use of an address moves the pool on by one, and the tracker does not notice.
`InStep` says that the pool is ahead of the tracked nonce by exactly the foreign uses since the
address was last tracked.  It rests on a second fact: while nothing has been taken from an address
the chain has what the pool has (`Sequential.Idle`), so that a read gives the pool's next nonce,
whenever it is made.

From this `refused_iff_used` reads off when an extrinsic is refused, which it stays for ever: when
its address has been used by others since it was tracked.
-/

namespace Campaign

open Act History Campaign.Sequential

variable {τ : Type}

/-- Others have used a nonce of an address since it was last tracked. -/
def UsedSince (uses : Nat → List String) (a : String) (h : History τ) : Prop :=
  ∃ i, trackedAt? a h = some i ∧ a ∈ foreign uses i (operations h)

/-- **The tracker and the node**, up to foreign uses. -/
structure InStep (uses : Nat → List String) (nonces : Tracker) (node : Shared) (h : History τ) :
    Prop where
  /-- The node has counted the operations that the history tells. -/
  counted : node.operations = operations h
  /-- The pool is ahead of a tracked nonce by the foreign uses since it is tracked. -/
  ahead : ∀ a n, nonces.get? (.text a) = some n → ∃ i, trackedAt? a h = some i ∧
    i ≤ operations h ∧ next a node.own = n + (foreign uses i (operations h)).count a
  /-- While nothing has been taken from an address, a read gives the pool's next nonce. -/
  idle : ∀ a, accepted a h = [] → Idle a node.own

/-- **How extrinsics are judged.** -/
structure Judged (uses : Nat → List String) (h : History τ) : Prop where
  /-- An extrinsic is refused exactly if its address was used by others since it was tracked. -/
  refused_iff : Each (fun x earlier => ∀ e answer, x = .submitted e answer →
    ((∃ f, answer = .error f) ↔ UsedSince uses e.address (x :: earlier))) h
  /-- It is refused because its nonce is outdated. -/
  outdated : ∀ e f, .submitted e (.error f) ∈ h → f = .refused (poolRefusal true)
  /-- After a refusal, everything from the address is refused. -/
  again : Each (fun x earlier => ∀ e answer, x = .submitted e answer →
    (∃ e' f', .submitted e' (.error f') ∈ earlier ∧ e'.address = e.address) →
      ∃ f, answer = .error f) h
  /-- The use that made for a refusal is not forgotten. -/
  stale : ∀ e f, .submitted e (.error f) ∈ h → UsedSince uses e.address h

section

variable {uses : Nat → List String} {nonces : Tracker} {node : Shared} {h : History τ}
  {x : Event τ} {a : String}

theorem operations_cons_of_operation (hx : x.isOperation = true) :
    operations (x :: h) = operations h + 1 := by
  rw [operations_cons, if_pos hx]

theorem operations_cons_of_not (hx : x.isOperation = false) :
    operations (x :: h) = operations h := by
  rw [operations_cons, hx]
  rfl

theorem operations_le_cons : operations h ≤ operations (x :: h) := by
  rw [operations_cons]
  omega

theorem usedSince_iff {i : Nat} (hi : trackedAt? a h = some i) :
    UsedSince uses a h ↔ a ∈ foreign uses i (operations h) := by
  rw [UsedSince, hi]
  constructor
  · rintro ⟨j, hj, hmem⟩
    rwa [Option.some.inj hj]
  · exact fun hmem => ⟨i, rfl, hmem⟩

/-- A use is remembered until the address is tracked anew. -/
theorem UsedSince.cons (hused : UsedSince uses a h)
    (hx : ∀ v, x.tracked? ≠ some (a, v)) : UsedSince uses a (x :: h) := by
  obtain ⟨i, hi, hmem⟩ := hused
  refine ⟨i, ?_, ?_⟩
  · cases htrack : x.tracked? with
    | none => rw [trackedAt?_cons_of_none htrack, hi]
    | some p =>
      obtain ⟨b, v⟩ := p
      have hne : b ≠ a := fun hba => hx v (by rw [htrack, hba])
      rw [trackedAt?_cons_of_some htrack, if_neg hne, hi]
  · obtain ⟨m, him, hmk, ha⟩ := mem_foreign.mp hmem
    have hle : operations h ≤ operations (x :: h) := operations_le_cons
    exact mem_foreign.mpr ⟨m, him, by omega, ha⟩

namespace InStep

theorem nil (start : Table String Int) :
    InStep uses .empty (.ofNonces start) ([] : History τ) where
  counted := rfl
  ahead _ _ hn := by cases hn
  idle _ _ := ⟨rfl, fun _ hw => by cases hw⟩

/-- The tracked nonce is behind the pool exactly after a foreign use. -/
theorem lt_next_iff (st : InStep uses nonces node h) {n : Int}
    (hn : nonces.get? (.text a) = some n) : n < next a node.own ↔ UsedSince uses a h := by
  obtain ⟨i, hi, hle, hnext⟩ := st.ahead a n hn
  rw [usedSince_iff hi, ← List.count_pos_iff]
  omega

/-- What an operation finds is ahead by the foreign uses up to it. -/
theorem found (st : InStep uses nonces node h) {n : Int} (hn : nonces.get? (.text a) = some n) :
    ∃ i, trackedAt? a h = some i ∧ i ≤ operations h ∧
      next a (node.found uses) = n + (foreign uses i (operations h + 1)).count a := by
  obtain ⟨i, hi, hle, hnext⟩ := st.ahead a n hn
  refine ⟨i, hi, hle, ?_⟩
  rw [Shared.found, next_usedBy, hnext, foreign_succ uses hle, List.count_append, st.counted]
  omega

theorem idle_found (st : InStep uses nonces node h) (hacc : accepted a h = []) :
    Idle a (node.found uses) := (st.idle a hacc).usedBy _

/-- An operation that leaves the pool alone, with which no account is tracked. -/
theorem operation (st : InStep uses nonces node h) {own : State} (hop : x.isOperation = true)
    (htrack : x.tracked? = none) (hacc : x.accepted? = none)
    (hnext : ∀ a, next a own = next a (node.found uses))
    (hidle : ∀ a, Idle a (node.found uses) → Idle a own) :
    InStep uses nonces { own, operations := node.operations + 1 } (x :: h) := by
  constructor
  · rw [operations_cons_of_operation hop, ← st.counted]
  · intro a n hn
    obtain ⟨i, hi, hle, hfound⟩ := st.found hn
    refine ⟨i, by rw [trackedAt?_cons_of_none htrack, hi], ?_, ?_⟩
    · rw [operations_cons_of_operation hop]
      omega
    · rw [operations_cons_of_operation hop, ← hfound]
      exact hnext a
  · intro a ha
    rw [accepted_cons_of_none hacc] at ha
    exact hidle a (st.idle_found ha)

/-- What is said changes nothing. -/
theorem notice (st : InStep uses nonces node h) {n : Notice τ}
    (htrack : (Event.noticed n).tracked? = none) : InStep uses nonces node (.noticed n :: h) := by
  have hop : operations (.noticed n :: h) = operations h := operations_cons_of_not rfl
  constructor
  · rw [hop, st.counted]
  · intro a v hv
    rw [hop, trackedAt?_cons_of_none htrack]
    exact st.ahead a v hv
  · intro a ha
    rw [accepted_cons_of_none rfl] at ha
    exact st.idle a ha

/-- An extrinsic is refused exactly if its address was used since it was tracked, and then because
its nonce is outdated. -/
theorem submit [Seconds τ] {setup : Setup τ} (st : InStep uses nonces node h)
    (htruth : setup.Truthful) (hfail : setup.failures = []) {e : Extrinsic}
    {answer : Except Fault (Option String)} {n : Shared}
    (hdue : nonces.get? (.text e.address) = some e.nonce)
    (hrun : ((shared setup uses).submit e).runOn node = (answer, n)) :
    ((∃ f, answer = .error f) ↔ UsedSince uses e.address (.submitted e answer :: h)) ∧
      ∀ f, answer = .error f → f = .refused (poolRefusal true) := by
  obtain ⟨i, hi, hle, hfound⟩ := st.found hdue
  have hused : UsedSince uses e.address (.submitted e answer :: h) ↔
      e.address ∈ foreign uses i (operations h + 1) := by
    have hop : operations (.submitted e answer :: h) = operations h + 1 :=
      operations_cons_of_operation rfl
    have htracked : trackedAt? e.address (.submitted e answer :: h) = some i := by
      rw [trackedAt?_cons_of_none rfl, hi]
    rw [usedSince_iff htracked, hop]
  rw [hused, ← List.count_pos_iff]
  obtain ⟨-, ⟨hash, rfl, heq, -⟩ | ⟨f, rfl, -, hwhy⟩⟩ := submit_shared_cases htruth hrun
  · refine ⟨⟨fun hf => ?_, fun hpos => ?_⟩, fun _ hf => ?_⟩
    · obtain ⟨_, hf⟩ := hf
      cases hf
    · omega
    · cases hf
  · obtain ⟨hne, rfl⟩ := hwhy hfail
    refine ⟨⟨fun _ => by omega, fun _ => ⟨_, rfl⟩⟩, fun g hg => ?_⟩
    have hlt : e.nonce < next e.address (node.found uses) := by omega
    rw [← Except.error.inj hg, decide_eq_true hlt]

/-- What is taken moves the tracker and the pool on together. -/
theorem accept [Seconds τ] {setup : Setup τ} (st : InStep uses nonces node h)
    (htruth : setup.Truthful) {e : Extrinsic} {hash : Option String} {n : Shared}
    (hdue : nonces.get? (.text e.address) = some e.nonce)
    (hrun : ((shared setup uses).submit e).runOn node = (.ok hash, n)) :
    InStep uses (nonces.put (.text e.address) (e.nonce + 1)) n (.submitted e (.ok hash) :: h) := by
  have hop : operations (.submitted e (.ok hash) :: h) = operations h + 1 :=
    operations_cons_of_operation rfl
  obtain ⟨hcount, ⟨_, -, heq, hown⟩ | ⟨f, hf, -⟩⟩ := submit_shared_cases htruth hrun
  · have hnext : ∀ a, next a n.own =
        if e.address = a then e.nonce + 1 else next a (node.found uses) := by
      intro a
      rw [hown, next_taken]
      rfl
    constructor
    · rw [hop, hcount, st.counted]
    · intro a v hv
      rw [hop, trackedAt?_cons_of_none rfl, hnext]
      rw [Tracker.get?_put_text] at hv
      by_cases ha : e.address = a
      · subst ha
        rw [if_pos rfl] at hv ⊢
        obtain ⟨i, hi, hle, hfound⟩ := st.found hdue
        obtain rfl : e.nonce + 1 = v := by simpa using hv
        exact ⟨i, hi, by omega, by omega⟩
      · rw [if_neg ha] at hv ⊢
        obtain ⟨i, hi, hle, hfound⟩ := st.found hv
        exact ⟨i, hi, by omega, hfound⟩
    · intro a ha
      rw [accepted_cons_of_some rfl] at ha
      by_cases hea : e.address = a
      · simp [hea] at ha
      · rw [if_neg hea] at ha
        rw [hown]
        exact Idle.taken (st.idle_found ha) hea
  · cases hf

/-- A read from which an account is tracked gives the pool's next nonce. -/
theorem track [Seconds τ] {setup : Setup τ} (st : InStep uses nonces node h)
    (htruth : setup.Truthful) {now : τ} {answer : Except Fault (Option Value)} {n : Shared}
    {v : Int} (hacc : accepted a h = [])
    (hrun : ((shared setup uses).query now "System" "Account" (.list [.text a])).runOn node =
      (answer, n))
    (hv : answer.bind Client.nonceOf = .ok v) :
    InStep uses (nonces.put (.text a) v) n
      (.noticed (.nonceRead (.text a) v) :: .look a answer :: h) := by
  rw [query_shared htruth] at hrun
  obtain ⟨rfl, rfl⟩ := Prod.mk.inj hrun
  have hread : InStep uses nonces
      { own := countRead (node.found uses), operations := node.operations + 1 }
      (.look a (.ok (some (ownRecord (onChain a (countRead (node.found uses)))))) :: h) :=
    st.operation rfl rfl rfl (fun b => next_countRead b _) fun b hb => hb.countRead
  have hnext : v = next a (countRead (node.found uses)) := by
    rw [← (st.idle_found hacc).countRead.1]
    exact (Except.ok.inj hv).symm
  have htrack : (Event.noticed (τ := τ) (.nonceRead (.text a) v)).tracked? = some (a, v) := rfl
  constructor
  · rw [operations_cons_of_not rfl]
    exact hread.counted
  · intro b w hw
    rw [operations_cons_of_not rfl, trackedAt?_cons_of_some htrack]
    rw [Tracker.get?_put_text] at hw
    by_cases hab : a = b
    · subst hab
      rw [if_pos rfl] at hw ⊢
      obtain rfl : v = w := by simpa using hw
      exact ⟨_, rfl, Nat.le_refl _, by simpa [foreign_self] using hnext.symm⟩
    · rw [if_neg hab] at hw ⊢
      exact hread.ahead b w hw
  · intro b hb
    rw [accepted_cons_of_none rfl] at hb
    exact hread.idle b hb

end InStep

namespace Judged

theorem nil : Judged uses ([] : History τ) where
  refused_iff := each_nil
  outdated _ _ he := by cases he
  again := each_nil
  stale _ _ he := by cases he

/-- An event that hands nothing in, and with which no account is tracked from which something was
handed in. -/
theorem cons_other (ju : Judged uses h) (hsub : x.isHandIn = false)
    (htrack : ∀ b v, x.tracked? = some (b, v) → Unattempted b h) : Judged uses (x :: h) := by
  have hne : ∀ e answer, x ≠ .submitted e answer := by
    rintro e answer rfl
    cases hsub
  constructor
  · exact each_cons.mpr ⟨fun e answer hx => absurd hx (hne e answer), ju.refused_iff⟩
  · intro e f he
    rcases List.mem_cons.mp he with hx | he
    · exact absurd hx.symm (hne e _)
    · exact ju.outdated e f he
  · exact each_cons.mpr ⟨fun e answer hx => absurd hx (hne e answer), ju.again⟩
  · intro e f he
    rcases List.mem_cons.mp he with hx | he
    · exact absurd hx.symm (hne e _)
    · exact (ju.stale e f he).cons fun v hv => htrack _ v hv _ he e rfl rfl

/-- An event that hands nothing in and tracks nothing. -/
theorem cons_plain (ju : Judged uses h) (hsub : x.isHandIn = false) (htrack : x.tracked? = none) :
    Judged uses (x :: h) :=
  ju.cons_other hsub fun b v hv => by rw [htrack] at hv; cases hv

/-- An extrinsic that is judged as it should be. -/
theorem cons_submitted (ju : Judged uses h) {e : Extrinsic} {answer : Except Fault (Option String)}
    (hiff : (∃ f, answer = .error f) ↔ UsedSince uses e.address (.submitted e answer :: h))
    (hwhy : ∀ f, answer = .error f → f = .refused (poolRefusal true)) :
    Judged uses (.submitted e answer :: h) := by
  have hkeep : ∀ a, UsedSince uses a h → UsedSince uses a (.submitted e answer :: h) :=
    fun a ha => ha.cons fun v hv => nomatch hv
  constructor
  · refine each_cons.mpr ⟨fun e' answer' hx => ?_, ju.refused_iff⟩
    cases hx
    exact hiff
  · intro e' f he
    rcases List.mem_cons.mp he with hx | he
    · cases hx
      exact hwhy f rfl
    · exact ju.outdated e' f he
  · refine each_cons.mpr ⟨fun e' answer' hx => ?_, ju.again⟩
    cases hx
    rintro ⟨e', f', hmem, haddr⟩
    exact hiff.mpr (hkeep _ (haddr ▸ ju.stale e' f' hmem))
  · intro e' f he
    rcases List.mem_cons.mp he with hx | he
    · cases hx
      exact hiff.mp ⟨f, rfl⟩
    · exact hkeep _ (ju.stale e' f he)

end Judged

/-- After a refusal the nonce that was refused is still the tracked one. -/
theorem Accounted.tracked_of_refusal {e : Extrinsic} {f : Fault}
    {trail earlier : History τ}
    (acc : Accounted nonces (trail ++ .submitted e (.error f) :: earlier))
    (htrail : ∀ x ∈ trail, x.IsPhaseFailure) : nonces.get? (.text e.address) = some e.nonce := by
  obtain ⟨v, hbase, hnonce⟩ := acc.attempts trail _ earlier rfl e rfl
  have hplain : ∀ x ∈ trail, x.tracked? = none ∧ x.accepted? = none := by
    intro x hx
    obtain ⟨_, _, _, _, rfl⟩ := htrail x hx
    exact ⟨rfl, rfl⟩
  rw [acc.tracked, base?_append fun x hx => (hplain x hx).1,
    accepted_append fun x hx => (hplain x hx).2, base?_cons_of_none rfl,
    accepted_cons_of_none rfl, hbase, Option.map_some, hnonce]

end

/-! ### All runs -/

section

variable [Seconds τ] {setup : Setup τ} {uses : Nat → List String} {s t : Session Shared τ}

/-- **The pool stays ahead by the foreign uses**, whatever happens. -/
theorem InStep.move (htruth : setup.Truthful) (acc : Accounted s.nonces s.world.journal)
    (st : InStep uses s.nonces s.world.node s.world.journal)
    (hmove : Session.Move (shared setup uses) s t) :
    InStep uses t.nonces t.world.node t.world.journal := by
  cases hmove with
  | note n plain => exact st.notice plain
  | pass c => exact st
  | @look a answer n h =>
    rw [query_shared htruth] at h
    obtain ⟨rfl, rfl⟩ := Prod.mk.inj h
    exact st.operation (x := .look a _) rfl rfl rfl (fun b => next_countRead b _)
      fun b hb => hb.countRead
  | @compose pallet function params answer n h =>
    rw [compose_shared] at h
    obtain ⟨rfl, rfl⟩ := Prod.mk.inj h
    exact st.operation (x := .composed pallet function params _) rfl rfl rfl (fun _ => rfl)
      fun _ hb => hb
  | @sign e answer n due h =>
    rw [sign_shared] at h
    obtain ⟨rfl, rfl⟩ := Prod.mk.inj h
    exact st.operation (x := .signed e _) rfl rfl rfl (fun _ => rfl) fun _ hb => hb
  | @refuse e f n due h =>
    obtain ⟨hcount, ⟨_, hok, -⟩ | ⟨_, -, hown, -⟩⟩ := submit_shared_cases htruth h
    · cases hok
    · have hn : n = ⟨s.world.node.attempted uses, s.world.node.operations + 1⟩ := by
        rw [← hown, ← hcount]
      rw [hn]
      exact st.operation (x := .submitted e (.error f)) rfl rfl rfl (fun _ => rfl) fun _ hb => hb
  | accept role call due h => exact (st.accept htruth due h).notice rfl
  | track fresh h hv =>
    exact st.track htruth (accepted_of_unattempted (acc.unattempted fresh)) h hv

theorem Judged.move (htruth : setup.Truthful) (hfail : setup.failures = [])
    (acc : Accounted s.nonces s.world.journal)
    (st : InStep uses s.nonces s.world.node s.world.journal) (ju : Judged uses s.world.journal)
    (hmove : Session.Move (shared setup uses) s t) : Judged uses t.world.journal := by
  cases hmove with
  | note n plain => exact ju.cons_plain rfl plain
  | pass c => exact ju
  | look h => exact ju.cons_plain rfl rfl
  | compose h => exact ju.cons_plain rfl rfl
  | sign due h => exact ju.cons_plain rfl rfl
  | refuse due h =>
    obtain ⟨hiff, hwhy⟩ := st.submit htruth hfail due h
    exact ju.cons_submitted hiff hwhy
  | accept role call due h =>
    obtain ⟨hiff, hwhy⟩ := st.submit htruth hfail due h
    exact (ju.cons_submitted hiff hwhy).cons_plain rfl rfl
  | track fresh h hv =>
    refine (ju.cons_plain rfl rfl).cons_other rfl fun b w hw => ?_
    obtain ⟨rfl, rfl⟩ := Prod.mk.inj (Option.some.inj hw)
    exact (unattempted_cons_of_none rfl).mpr (acc.unattempted fresh)

/-- What holds of every session on a shared node. -/
structure Coupled (uses : Nat → List String) (s : Session Shared τ) : Prop where
  accounted : Accounted s.nonces s.world.journal
  inStep : InStep uses s.nonces s.world.node s.world.journal
  judged : Judged uses s.world.journal

theorem Coupled.moves (htruth : setup.Truthful) (hfail : setup.failures = [])
    (co : Coupled uses s) (hmoves : Session.Moves (shared setup uses) s t) : Coupled uses t := by
  induction hmoves with
  | refl => exact co
  | tail _ hmove ih =>
    obtain ⟨acc, st, ju⟩ := ih
    exact ⟨acc.move hmove, st.move htruth acc hmove, ju.move htruth hfail acc st hmove⟩

theorem Script.stopsAtRefusal_perform {ν : Type} {script : Script ν τ} (r : Request τ) :
    Session.StopsAtRefusal (script.perform r) := by
  have hpure : Session.StopsAtRefusal (pure () : Act (Session ν τ) Unit) :=
    Session.stopsAtRefusal_of_adds (keeps_pure _)
  cases r with
  | submit x => exact Session.stopsAtRefusal_bind (stopsAtRefusal_submit x) fun _ => hpure
  | wait b =>
    refine Session.stopsAtRefusal_bind (Session.stopsAtRefusal_of_adds ?_) fun _ => hpure
    exact keeps_adds_mono (quiet_wait b) fun _ hx => Event.refused?_of_attempt? hx.1
  | execute step => exact Session.stopsAtRefusal_bind (stopsAtRefusal_execute step) fun _ => hpure
  | runPhase phase => exact stopsAtRefusal_runPhase phase
  | run phases => exact Session.stopsAtRefusal_bind (stopsAtRefusal_run phases) fun _ => hpure

/-- **An extrinsic is refused exactly if its address was used by others since it was tracked**: then
its nonce is below the pool's, everything from the address is refused from then on, and the request
ends there with a rejection.  Nothing is refused from an address that nobody else uses. -/
theorem Script.refused_iff_used {script : Script Shared τ} (htruth : setup.Truthful)
    (hfail : setup.failures = []) (hnode : script.node = shared setup uses)
    (start : Table String Int) (c : Clock τ) (h : script.Reaches (.fresh (.ofNonces start) c) s) :
    Judged uses s.world.journal ∧
      (∀ a n, s.nonces.get? (.text a) = some n →
        (n < next a s.world.node.own ↔ UsedSince uses a s.world.journal)) ∧
      (∀ r t out, (script.perform r).runOn s = (out, t) →
        Session.Adds (fun x => x.refused? = none) s t ∨
          ∃ e trail earlier,
            out = .error (.rejected e.address e.nonce e.call (poolRefusal true)) ∧
            t.world.journal =
              trail ++ .submitted e (.error (.refused (poolRefusal true))) :: earlier ∧
            (∀ x ∈ trail, x.IsPhaseFailure) ∧
            Grows (fun x => x.refused? = none) s.world.journal earlier ∧
            t.nonces.get? (.text e.address) = some e.nonce ∧
            e.nonce < next e.address t.world.node.own) ∧
      ∀ e answer, (∀ m, e.address ∉ uses m) → .submitted e answer ∈ s.world.journal →
        ∃ hash, answer = .ok hash := by
  have hstart : Coupled uses (.fresh (.ofNonces start) c : Session Shared τ) :=
    ⟨.nil, .nil start, .nil⟩
  have hcoupled : ∀ {t}, script.Reaches (.fresh (.ofNonces start) c) t → Coupled uses t := by
    intro t ht
    have hmoves := moves_of_reaches ht
    rw [hnode] at hmoves
    exact hstart.moves htruth hfail hmoves
  have co := hcoupled h
  refine ⟨co.judged, fun a n hn => co.inStep.lt_next_iff hn, fun r t out hrun => ?_, ?_⟩
  · rcases stopsAtRefusal_perform r s t out hrun with hadds |
      ⟨e, f, trail, earlier, rfl, hjournal, htrail, hgrow⟩
    · exact Or.inl hadds
    · have hreach : script.Reaches (.fresh (.ofNonces start) c) t := by
        have := h.perform r
        rwa [hrun] at this
      have ct := hcoupled hreach
      have hmem : .submitted e (.error f) ∈ t.world.journal := by simp [hjournal]
      obtain rfl := ct.judged.outdated e f hmem
      have htracked : t.nonces.get? (.text e.address) = some e.nonce :=
        Accounted.tracked_of_refusal (hjournal ▸ ct.accounted) htrail
      exact Or.inr ⟨e, trail, earlier, rfl, hjournal, htrail, hgrow, htracked,
        (ct.inStep.lt_next_iff htracked).mpr (ct.judged.stale e _ hmem)⟩
  · intro e answer hfree hmem
    cases answer with
    | ok hash => exact ⟨hash, rfl⟩
    | error f =>
      obtain ⟨i, -, hused⟩ := co.judged.stale e f hmem
      obtain ⟨m, -, -, hm⟩ := mem_foreign.mp hused
      exact absurd hm (hfree m)

/-- Others use the address `b` once, just before the fifth operation. -/
def Script.disturbed : Script Shared Value where
  node := shared {} fun n => if n = 4 then ["b"] else []
  accounts := ⟨[("root", ⟨"a", true⟩), ("user", ⟨"b", true⟩)]⟩
  barrierTimeout := .int 1
  pollInterval := .int 1

set_option maxRecDepth 10000 in
/-- Both accounts are started, and the one that others use is refused. -/
theorem Script.refused_iff_used_disturbed :
    let started := (disturbed.startRoles .empty ["root", "user"]).runOn
      (.fresh (.ofNonces ⟨[("a", 5), ("b", 2)]⟩) { now := .int 0 })
    let s := ((disturbed.perform (.run [⟨"mixed", [
      .submit ⟨"root", "System", "remark", .absent, .null⟩,
      .submit ⟨"user", "System", "remark", .absent, .null⟩,
      .submit ⟨"root", "System", "remark", .absent, .null⟩]⟩])).runOn started.2).2
    Judged (fun n => if n = 4 then ["b"] else []) s.world.journal ∧
      s.nonces.get? "a" = some 6 ∧ s.nonces.get? "b" = some 2 ∧ next "b" s.world.node.own = 3 := by
  have htruth : ({} : Setup Value).Truthful := ⟨rfl, rfl, rfl⟩
  refine ⟨(refused_iff_used htruth rfl rfl _ _
    (.perform _ (.start _ .refl fun _ _ _ _ => unattempted_nil))).1, ?_, ?_, ?_⟩ <;>
  decide +kernel

end

end Campaign
