import Campaign.Node.Sequential
import Campaign.Proofs.Moves

/-!
# The nonces of a run are in sequence

For every address, the tracker and the node agree on a book: it is opened with the nonce of a read
(`History.base?`), every extrinsic that the node takes is one entry more (`History.accepted`), and
the tracked nonce is the opening nonce plus the number of entries.  `Accounted` says so of a tracker
and a history, and `nonces_accounted` proves it of every session that can be reached, with any node
and whatever fails on the way.

An address may go by several roles, so the book belongs to the address and never to a role.  The
invariant is proved for one event more at a time.  Only two kinds of events touch a book: opening it
anew needs that nothing has been attempted from the address, which is why roles are started first,
and an entry carries the nonce that was due.
-/

namespace Campaign

open Act History

variable {ν τ : Type}

/-- **The books are right.** -/
structure Accounted (nonces : Tracker) (h : History τ) : Prop where
  /-- The tracked nonce is the opening nonce plus the number of extrinsics taken. -/
  tracked : ∀ a, nonces.get? (.text a) = (base? a h).map (· + ((accepted a h).length : Int))
  /-- The extrinsics taken from an address carry the nonces from the opening one on, without gap or
  repetition. -/
  sequence : ∀ a v, base? a h = some v →
    (accepted a h).map Extrinsic.nonce = (List.range (accepted a h).length).map (v + Int.ofNat ·)
  /-- Nothing is signed or handed in from an address whose nonce was never read. -/
  untracked : ∀ a, base? a h = none → Unattempted a h
  /-- Every attempt, taken or not, carries the nonce that was due when it was made. -/
  attempts : Each (fun x earlier => ∀ e, x.attempt? = some e → ∃ v,
    base? e.address earlier = some v ∧ e.nonce = v + (accepted e.address earlier).length) h
  /-- A book is opened with the answer to a read of the address, made just before. -/
  opened : Each (fun x earlier => ∀ a v, x.tracked? = some (a, v) → ∃ answer before,
    earlier = .look a answer :: before ∧ answer.bind Client.nonceOf = .ok v) h

namespace Accounted

variable {nonces : Tracker} {h : History τ} {x : Event τ}

theorem nil : Accounted .empty ([] : History τ) where
  tracked _ := rfl
  sequence _ _ hv := nomatch hv
  untracked _ _ := unattempted_nil
  attempts := each_nil
  opened := each_nil

/-- The nonce that is due belongs to an open book. -/
theorem due (acc : Accounted nonces h) {a : String} {n : Int}
    (hn : nonces.get? (.text a) = some n) :
    ∃ v, base? a h = some v ∧ n = v + (accepted a h).length := by
  rw [acc.tracked, Option.map_eq_some_iff] at hn
  obtain ⟨v, hv, rfl⟩ := hn
  exact ⟨v, hv, rfl⟩

/-- Everything taken from an address is below its tracked nonce. -/
theorem nonce_lt (acc : Accounted nonces h) {a : String} {n : Int}
    (hn : nonces.get? (.text a) = some n) {e : Extrinsic} (he : e ∈ accepted a h) :
    e.nonce < n := by
  obtain ⟨v, hv, rfl⟩ := acc.due hn
  have hmem : e.nonce ∈ (accepted a h).map Extrinsic.nonce := List.mem_map_of_mem he
  rw [acc.sequence a v hv, List.mem_map] at hmem
  obtain ⟨i, hi, hnonce⟩ := hmem
  have hlt : i < (accepted a h).length := List.mem_range.mp hi
  have hcast : v + (i : Int) = e.nonce := hnonce
  omega

/-- Nothing has been attempted from an address that may be tracked anew. -/
theorem unattempted (acc : Accounted nonces h) {a : String}
    (fresh : nonces.get? (.text a) = none ∨ Unattempted a h) : Unattempted a h := by
  rcases fresh with hnone | hfree
  · rw [acc.tracked, Option.map_eq_none_iff] at hnone
    exact acc.untracked a hnone
  · exact hfree

/-- An event without extrinsic leaves the books as they are. -/
theorem cons_plain (acc : Accounted nonces h) (hatt : x.attempt? = none)
    (htrack : x.tracked? = none) : Accounted nonces (x :: h) := by
  have hacc : x.accepted? = none := Event.accepted?_of_attempt? hatt
  constructor
  · intro a
    rw [base?_cons_of_none htrack, accepted_cons_of_none hacc]
    exact acc.tracked a
  · intro a v hv
    rw [base?_cons_of_none htrack] at hv
    rw [accepted_cons_of_none hacc]
    exact acc.sequence a v hv
  · intro a ha
    rw [base?_cons_of_none htrack] at ha
    exact (unattempted_cons_of_none hatt).mpr (acc.untracked a ha)
  · exact each_cons.mpr ⟨by simp [hatt], acc.attempts⟩
  · exact each_cons.mpr ⟨by simp [htrack], acc.opened⟩

/-- An attempt that comes to nothing leaves the books as they are. -/
theorem cons_attempt (acc : Accounted nonces h) {e : Extrinsic} (hatt : x.attempt? = some e)
    (hacc : x.accepted? = none) (hdue : nonces.get? (.text e.address) = some e.nonce) :
    Accounted nonces (x :: h) := by
  have htrack : x.tracked? = none := Event.tracked?_of_attempt? hatt
  obtain ⟨v, hbase, hnonce⟩ := acc.due hdue
  constructor
  · intro a
    rw [base?_cons_of_none htrack, accepted_cons_of_none hacc]
    exact acc.tracked a
  · intro a w hw
    rw [base?_cons_of_none htrack] at hw
    rw [accepted_cons_of_none hacc]
    exact acc.sequence a w hw
  · intro a ha
    rw [base?_cons_of_none htrack] at ha
    refine unattempted_cons.mpr ⟨fun f hf hfa => ?_, acc.untracked a ha⟩
    obtain rfl : e = f := by simpa [hatt] using hf
    rw [hfa, ha] at hbase
    cases hbase
  · refine each_cons.mpr ⟨fun f hf => ?_, acc.attempts⟩
    obtain rfl : e = f := by simpa [hatt] using hf
    exact ⟨v, hbase, hnonce⟩
  · exact each_cons.mpr ⟨by simp [htrack], acc.opened⟩

/-- An extrinsic that is taken is the next entry of its book, and the tracked nonce moves on. -/
theorem cons_accept (acc : Accounted nonces h) {e : Extrinsic} {hash : Option String}
    (hdue : nonces.get? (.text e.address) = some e.nonce) :
    Accounted (nonces.put (.text e.address) (e.nonce + 1)) (.submitted e (.ok hash) :: h) := by
  have htrack : (Event.submitted (τ := τ) e (.ok hash)).tracked? = none := rfl
  have hacc : (Event.submitted (τ := τ) e (.ok hash)).accepted? = some e := rfl
  obtain ⟨v, hbase, hnonce⟩ := acc.due hdue
  constructor
  · intro a
    rw [Tracker.get?_put_text, base?_cons_of_none htrack, accepted_cons_of_some hacc]
    by_cases ha : e.address = a
    · subst ha
      rw [if_pos rfl, if_pos rfl, hbase, Option.map_some, List.length_append, hnonce]
      simp [Int.add_assoc]
    · rw [if_neg ha, if_neg ha]
      exact acc.tracked a
  · intro a w hw
    rw [base?_cons_of_none htrack] at hw
    rw [accepted_cons_of_some hacc]
    by_cases ha : e.address = a
    · subst ha
      obtain rfl : v = w := by simpa [hbase] using hw
      rw [if_pos rfl, List.map_append, acc.sequence _ v hbase, List.length_append,
        List.length_singleton, List.range_succ, List.map_append, List.map_singleton,
        List.map_singleton, hnonce]
      rfl
    · rw [if_neg ha]
      exact acc.sequence a w hw
  · intro a ha
    rw [base?_cons_of_none htrack] at ha
    refine unattempted_cons.mpr ⟨fun f hf hfa => ?_, acc.untracked a ha⟩
    obtain rfl : e = f := by simpa [Event.attempt?] using hf
    rw [hfa, ha] at hbase
    cases hbase
  · refine each_cons.mpr ⟨fun f hf => ?_, acc.attempts⟩
    obtain rfl : e = f := by simpa [Event.attempt?] using hf
    exact ⟨v, hbase, hnonce⟩
  · exact each_cons.mpr ⟨by simp [htrack], acc.opened⟩

/-- A read opens the book of an address that nothing has been attempted from. -/
theorem cons_track (acc : Accounted nonces h) {a : String} {v : Int}
    {answer : Except Fault (Option Value)}
    (fresh : nonces.get? (.text a) = none ∨ Unattempted a h)
    (hv : answer.bind Client.nonceOf = .ok v) :
    Accounted (nonces.put (.text a) v)
      (.noticed (.nonceRead (.text a) v) :: .look a answer :: h) := by
  have hread : Accounted nonces (.look a answer :: h) := acc.cons_plain rfl rfl
  have hempty : accepted a (.look a answer :: h) = [] := by
    rw [accepted_cons_of_none rfl]
    exact accepted_of_unattempted (acc.unattempted fresh)
  have htrack : (Event.noticed (τ := τ) (.nonceRead (.text a) v)).tracked? = some (a, v) := rfl
  have hacc : (Event.noticed (τ := τ) (.nonceRead (.text a) v)).accepted? = none := rfl
  constructor
  · intro b
    rw [Tracker.get?_put_text, base?_cons_of_some htrack, accepted_cons_of_none hacc]
    by_cases hb : a = b
    · subst hb
      rw [if_pos rfl, if_pos rfl, hempty]
      simp
    · rw [if_neg hb, if_neg hb]
      exact hread.tracked b
  · intro b w hw
    rw [base?_cons_of_some htrack] at hw
    rw [accepted_cons_of_none hacc]
    by_cases hb : a = b
    · subst hb
      rw [hempty]
      rfl
    · rw [if_neg hb] at hw
      exact hread.sequence b w hw
  · intro b hb
    rw [base?_cons_of_some htrack] at hb
    split at hb
    · cases hb
    · exact (unattempted_cons_of_none rfl).mpr (hread.untracked b hb)
  · exact each_cons.mpr ⟨by simp [Event.attempt?], hread.attempts⟩
  · refine each_cons.mpr ⟨fun b w hw => ?_, hread.opened⟩
    obtain ⟨rfl, rfl⟩ : a = b ∧ v = w := by simpa [htrack] using hw
    exact ⟨answer, h, rfl, hv⟩

/-- **Every move keeps the books right.** -/
theorem move {node : Node ν τ} {s t : Session ν τ} (acc : Accounted s.nonces s.world.journal)
    (hmove : Session.Move node s t) : Accounted t.nonces t.world.journal := by
  cases hmove with
  | note n plain => exact acc.cons_plain rfl plain
  | pass c => exact acc
  | look h => exact acc.cons_plain rfl rfl
  | compose h => exact acc.cons_plain rfl rfl
  | sign due h => exact acc.cons_attempt rfl rfl due
  | refuse due h => exact acc.cons_attempt rfl rfl due
  | accept role call due h => exact (acc.cons_accept due).cons_plain rfl rfl
  | track fresh h hv => exact acc.cons_track fresh hv

theorem moves {node : Node ν τ} {s t : Session ν τ} (acc : Accounted s.nonces s.world.journal)
    (hmoves : Session.Moves node s t) : Accounted t.nonces t.world.journal := by
  induction hmoves with
  | refl => exact acc
  | tail _ hmove ih => exact ih.move hmove

end Accounted

/-! ### What does not count -/

namespace Session

/-- No tracked nonce has moved and nothing has been taken, though an account may be tracked now that
was not before. -/
structure SameBooks (s t : Session ν τ) : Prop where
  nonces : ∀ a n, s.nonces.get? (.text a) = some n → t.nonces.get? (.text a) = some n
  accepted : ∀ a, accepted a t.world.journal = accepted a s.world.journal

instance : IsPreorder (Session ν τ) SameBooks where
  refl _ := ⟨fun _ _ h => h, fun _ => rfl⟩
  trans _ _ _ h g :=
    ⟨fun a n hn => g.nonces a n (h.nonces a n hn), fun a => (g.accepted a).trans (h.accepted a)⟩

theorem sameBooks_after (s : Session ν τ) (n : ν) {x : Event τ} (hx : x.accepted? = none) :
    SameBooks s (s.after n x) :=
  ⟨fun _ _ h => h, fun _ => accepted_cons_of_none hx⟩

theorem sameBooks_noted (s : Session ν τ) (n : Notice τ) : SameBooks s (s.noted n) :=
  sameBooks_after s s.world.node rfl

theorem sameBooks_compose (node : Node ν τ) (pallet function params : Value) :
    Keeps (Onto SameBooks) (Client.compose node pallet function params) := by
  intro w nonces sent
  rw [Client.compose, World.runOn_call]
  exact sameBooks_after ⟨w, nonces, sent⟩ _ rfl

end Session

namespace Script

open Session

variable {script : Script ν τ}

theorem sameBooks_ensureTracked (a : String) : Keeps SameBooks (script.ensureTracked a) := by
  refine keeps_of fun s t out h => ?_
  rcases ensureTracked_cases h with ⟨-, -, rfl⟩ | ⟨hnew, r, hstart, -⟩
  · exact refl_of SameBooks _
  · have hnone : s.nonces.get? (.text a) = none := by simpa [Table.has] using hnew
    obtain ⟨answer, n, -, hend⟩ := startTracking_cases hstart
    have hread : SameBooks s (s.after n (.look a answer)) := sameBooks_after s n rfl
    rcases hend with ⟨v, -, -, rfl⟩ | ⟨f, -, -, rfl⟩
    · refine ⟨fun b k hk => ?_, hread.accepted⟩
      have hab : a ≠ b := by
        rintro rfl
        rw [hnone] at hk
        cases hk
      rw [tracking, Tracker.get?_put_text, if_neg hab]
      exact hk
    · exact hread

theorem sameBooks_prepare (x : Submit) : Keeps SameBooks (script.prepare x) := by
  refine keeps_bind (keeps_ofExcept _) fun a => ?_
  refine keeps_bind (sameBooks_ensureTracked a) fun _ => ?_
  refine keeps_bind keeps_get fun _ => ?_
  refine keeps_bind (keeps_ofExcept _) fun params => ?_
  refine keeps_bind (keeps_inWorld ?_) fun call => ?_
  · exact keeps_bind (sameBooks_compose _ _ _ _) fun _ =>
      keeps_ite (sameBooks_compose _ _ _ _) (keeps_pure _)
  · refine keeps_bind (keeps_bind keeps_get fun _ => keeps_ofExcept _) fun nonce => ?_
    exact keeps_bind (keeps_within fun s => sameBooks_noted s _) fun _ => keeps_pure _

/-- A submission that fails, wherever it does, moves no tracked nonce. -/
theorem sameBooks_of_submit_error {x : Submit} {s t : Session ν τ} {f : Fault}
    (h : (script.submit x).runOn s = (.error f, t)) : SameBooks s t := by
  rw [submit_eq] at h
  rcases bind_cases h with ⟨e, m, hprep, hsend⟩ | ⟨_, hprep, -⟩
  · obtain ⟨-, hdue, -⟩ := prepare_ok hprep
    have hm : SameBooks s m := (sameBooks_prepare x).of_runOn hprep
    rcases send_cases hdue hsend with ⟨_, n, -, -, rfl⟩ | ⟨n, -, ⟨_, n', -, -, rfl⟩ |
      ⟨_, _, -, hok, -⟩⟩
    · exact trans_of SameBooks hm (sameBooks_after m n rfl)
    · exact trans_of SameBooks hm
        (trans_of SameBooks (sameBooks_after m n rfl) (sameBooks_after _ n' rfl))
    · cases hok
  · exact (sameBooks_prepare x).of_runOn hprep

variable [Seconds τ]

/-- Only submissions touch the tracker and the record: barriers and pauses do not, however they
end. -/
theorem execute_nonces {step : Step τ} (hstep : ∀ x, step ≠ .submit x) (s : Session ν τ) :
    ((script.execute step).runOn s).2.nonces = s.nonces ∧
      ((script.execute step).runOn s).2.sent = s.sent := by
  cases step with
  | submit x => exact absurd rfl (hstep x)
  | barrier b =>
    rcases hwait : (script.wait b).runOn s with ⟨out, t⟩
    have hsame : t.nonces = s.nonces ∧ t.sent = s.sent := by
      rcases wait_cases hwait with ⟨_, -, -, rfl⟩ | ⟨_, -, ⟨-, -, rfl⟩ |
        ⟨_, _, _, -, -, rfl, -⟩⟩ <;> exact ⟨rfl, rfl⟩
    rw [execute, runOn_bind, hwait]
    cases out <;> exact hsame
  | pause d =>
    rw [execute, runOn_bind, runOn_inWorld]
    rcases (World.note (.pausing d) >>= fun _ => World.sleep d : Act (World ν τ) Unit).runOn s.world
      with ⟨_ | _, w⟩ <;> exact ⟨rfl, rfl⟩
  | other v => exact ⟨rfl, rfl⟩

/-! ### All runs -/

/-- **The nonces of every run are in sequence**, with any node and for any requests, whatever fails
on the way.  In particular a failed submission, a barrier or a pause never moves a tracked nonce. -/
theorem nonces_accounted (n : ν) (c : Clock τ) {s : Session ν τ}
    (h : script.Reaches (.fresh n c) s) :
    Accounted s.nonces s.world.journal ∧
      (∀ x f t, (script.submit x).runOn s = (.error f, t) → SameBooks s t) ∧
      ∀ step, (∀ x, step ≠ .submit x) →
        ((script.execute step).runOn s).2.nonces = s.nonces ∧
          ((script.execute step).runOn s).2.sent = s.sent := by
  refine ⟨?_, fun x f t hx => sameBooks_of_submit_error hx, fun step hstep => ?_⟩
  · exact Accounted.nil.moves (moves_of_reaches h)
  · exact execute_nonces hstep s

/-- Two roles share the address `a`; the third attempt is refused, and nothing is included in
time. -/
def sharing : Script Sequential.State Value where
  node := Sequential.node { includeAfter := 9, failures := [(2, .refused .null)] }
  accounts := ⟨[("root", ⟨"a", true⟩), ("user", ⟨"a", true⟩)]⟩
  barrierTimeout := .int 1
  pollInterval := .int 1

set_option maxRecDepth 10000 in
/-- The books of two roles that share an address, after a run that stops at a refusal. -/
theorem nonces_accounted_sharing :
    let started := (sharing.startRoles .empty ["root"]).runOn
      (.fresh (.ofNonces ⟨[("a", 5)]⟩) { now := .int 0 })
    let s := ((sharing.perform (.run [⟨"mixed", [
      .submit ⟨"user", "System", "remark", .absent, .null⟩,
      .barrier ⟨"root", none, .null⟩,
      .submit ⟨"root", "System", "remark", .absent, .null⟩,
      .submit ⟨"user", "System", "remark", .absent, .null⟩]⟩])).runOn started.2).2
    Accounted s.nonces s.world.journal ∧ s.nonces.get? "a" = some 7 ∧
      (accepted "a" s.world.journal).map Extrinsic.nonce = [5, 6] := by
  refine ⟨(nonces_accounted _ _ (.perform _ (.start _ .refl fun _ _ _ _ => ?_))).1, ?_, ?_⟩
  · exact unattempted_nil
  · decide +kernel
  · decide +kernel

end Script

end Campaign
