import Campaign.Proofs.SharedNode
import Mathlib.Logic.Function.Iterate

/-!
# What waits for inclusion

A node may include what it has taken only after a number of reads.  Every read counts down all that
wait, of whatever address, and several extrinsics of one address wait with different counters.
Still they stand in a line: whoever joined later needs no fewer reads, and what waits from an
address carries the nonces from the one on chain up to the pool's next, without a gap (`Lined`).  A
read takes the head of the line off (`Lined.countRead`), so that the line stays one.

Hence one number tells when the chain has caught up with the pool, `readsLeft`: the largest counter
of an address.  It goes down by one with every read (`readsLeft_countRead`), and the chain has
caught up exactly when it is zero (`Lined.next_le_onChain`).
-/

namespace Campaign.Sequential

open List

variable {τ : Type} {a : String} {longest : Int} {n : State}

/-! ### Lines of nonces -/

/-- What waits carries the nonces from a first one up to before a last one. -/
inductive Consecutive : Int → Int → List Waiting → Prop
  | nil (nonce : Int) : Consecutive nonce nonce []
  | cons {last : Int} {w : Waiting} {ws : List Waiting} (rest : Consecutive (w.nonce + 1) last ws) :
      Consecutive w.nonce last (w :: ws)

namespace Consecutive

variable {first last : Int} {ws : List Waiting}

theorem last_eq (h : Consecutive first last ws) : last = first + ws.length := by
  induction h with
  | nil => simp
  | cons _ ih =>
    rw [ih, List.length_cons]
    omega

theorem append (h : Consecutive first last ws) {w : Waiting} (hw : w.nonce = last) :
    Consecutive first (last + 1) (ws ++ [w]) := by
  induction h with
  | nil nonce =>
    subst hw
    exact .cons (.nil _)
  | cons _ ih => exact .cons (ih hw)

/-- The counters do not matter. -/
theorem map (h : Consecutive first last ws) {f : Waiting → Waiting}
    (hf : ∀ w, (f w).nonce = w.nonce) : Consecutive first last (ws.map f) := by
  induction h with
  | nil => exact .nil _
  | @cons last w ws _ ih =>
    rw [← hf w] at ih ⊢
    exact .cons ih

end Consecutive

/-! ### The line of a node -/

/-- What waits for inclusion from an address, in order. -/
def waitingFrom (a : String) (ws : List Waiting) : List Waiting := ws.filter fun w => w.address = a

/-- The largest counter of an address: how many reads it takes until nothing of it waits. -/
def readsLeft (a : String) (n : State) : ℕ :=
  (waitingFrom a n.waiting).foldr (fun w most => max w.reads.toNat most) 0

/-- **What waits stands in line**, with counters up to that of whoever joins next. -/
structure Lined (longest : Int) (n : State) : Prop where
  /-- Everything that waits needs a read, and no more of them than whoever joins next. -/
  reads : ∀ w ∈ n.waiting, 0 < w.reads ∧ w.reads ≤ longest
  /-- Whoever joined later needs no fewer reads. -/
  ordered : n.waiting.Pairwise fun w v => w.reads ≤ v.reads
  /-- What waits from an address carries the nonces from the one on chain up to the pool's next. -/
  nonces : ∀ a, Consecutive (onChain a n) (next a n) (waitingFrom a n.waiting)

/-- A node at its beginning has nothing in line. -/
theorem lined_ofNonces (longest : Int) (chain : Table String Int) :
    Lined longest (.ofNonces chain) where
  reads _ hw := nomatch hw
  ordered := .nil
  nonces _ := .nil _

/-! ### Reads -/

/-- One read less to wait. -/
def Waiting.nearer (w : Waiting) : Waiting := { w with reads := w.reads - 1 }

theorem Waiting.reads_nearer (w : Waiting) : w.nearer.reads = w.reads - 1 := rfl

/-- Whose time has not come. -/
def Waiting.stays (w : Waiting) : Bool := !decide (w.reads ≤ 0)

theorem Waiting.stays_iff {w : Waiting} : w.stays = true ↔ 0 < w.reads := by
  simp [stays]

theorem Waiting.stays_nearer_iff {w : Waiting} : w.nearer.stays = true ↔ 1 < w.reads := by
  rw [stays_iff, reads_nearer]
  omega

/-- In a line those whose time has come are at its head. -/
theorem filter_append_of_ordered {ws : List Waiting}
    (hordered : ws.Pairwise fun w v => w.reads ≤ v.reads) :
    ws.filter (fun w => decide (w.reads ≤ 0)) ++ ws.filter Waiting.stays = ws := by
  induction ws with
  | nil => rfl
  | cons w ws ih =>
    obtain ⟨hfirst, hrest⟩ := List.pairwise_cons.mp hordered
    by_cases hw : w.reads ≤ 0
    · simp [Waiting.stays, hw, ih hrest]
    · have hstay : ∀ v ∈ w :: ws, ¬ v.reads ≤ 0 := by
        refine List.forall_mem_cons.mpr ⟨hw, fun v hv => ?_⟩
        have hle := hfirst v hv
        omega
      rw [List.filter_eq_nil_iff.mpr, List.filter_eq_self.mpr, List.nil_append]
      · exact fun v hv => by simpa [Waiting.stays] using hstay v hv
      · exact fun v hv => by simpa using hstay v hv

/-- The head of a line is included, and what is left follows on what is on chain then. -/
theorem consecutive_included {last : Int} :
    ∀ (due rest : List Waiting) (included : Table String Int),
    Consecutive ((included.get? a).getD 0) last (waitingFrom a (due ++ rest)) →
    Consecutive (((due.foldl includeOne included).get? a).getD 0) last (waitingFrom a rest)
  | [], _, _, h => h
  | w :: due, rest, included, h => by
    refine consecutive_included due rest (includeOne included w) ?_
    rw [includeOne, Table.get?_put]
    by_cases hw : w.address = a
    · have hline : waitingFrom a (w :: due ++ rest) = w :: waitingFrom a (due ++ rest) := by
        simp [waitingFrom, hw]
      rw [hline] at h
      rw [if_pos hw, hw]
      generalize (included.get? a).getD 0 = first at h ⊢
      cases h with
      | cons hrest => rwa [Option.getD_some, Int.max_eq_right (by omega)]
    · have hline : waitingFrom a (w :: due ++ rest) = waitingFrom a (due ++ rest) := by
        simp [waitingFrom, hw]
      rwa [if_neg hw, ← hline]

/-- Nobody changes places in a read. -/
theorem waitingFrom_nearer (a : String) (ws : List Waiting) :
    waitingFrom a (ws.map Waiting.nearer) = (waitingFrom a ws).map Waiting.nearer := by
  rw [waitingFrom, waitingFrom, List.filter_map]
  rfl

theorem countRead_eq (n : State) : countRead n =
    { n with
      reads := n.reads + 1
      waiting := (n.waiting.map Waiting.nearer).filter Waiting.stays
      included := ((n.waiting.map Waiting.nearer).filter fun w => decide (w.reads ≤ 0)).foldl
        includeOne n.included } := by
  simp only [countRead, List.partition_eq_filter_filter]
  rfl

/-- **A read takes the head of the line off.** -/
theorem Lined.countRead (h : Lined longest n) : Lined longest (countRead n) := by
  have hordered : (n.waiting.map Waiting.nearer).Pairwise fun w v => w.reads ≤ v.reads :=
    List.pairwise_map.mpr (h.ordered.imp fun hle => Int.sub_le_sub_right hle 1)
  rw [countRead_eq]
  refine ⟨fun w hw => ?_, hordered.filter _, fun a => ?_⟩
  · obtain ⟨hnear, hstays⟩ := List.mem_filter.mp hw
    obtain ⟨v, hv, rfl⟩ := List.mem_map.mp hnear
    have hmost := (h.reads v hv).2
    refine ⟨Waiting.stays_iff.mp hstays, ?_⟩
    rw [Waiting.reads_nearer]
    omega
  · have hline : Consecutive (onChain a n) (next a n)
        (waitingFrom a (n.waiting.map Waiting.nearer)) := by
      rw [waitingFrom_nearer]
      exact (h.nonces a).map fun _ => rfl
    rw [← filter_append_of_ordered hordered] at hline
    exact consecutive_included _ _ _ hline

theorem waitingFrom_countRead (a : String) (n : State) : waitingFrom a (countRead n).waiting =
    ((waitingFrom a n.waiting).map Waiting.nearer).filter Waiting.stays := by
  rw [countRead_eq, ← waitingFrom_nearer, waitingFrom, waitingFrom, List.filter_filter,
    List.filter_filter]
  simp only [Bool.and_comm]

/-- **Every read counts an address down by one.** -/
theorem readsLeft_countRead (a : String) (n : State) :
    readsLeft a (countRead n) = readsLeft a n - 1 := by
  have hdown : ∀ ws : List Waiting,
      ((ws.map Waiting.nearer).filter Waiting.stays).foldr
          (fun w most => max w.reads.toNat most) 0 =
        ws.foldr (fun w most => max w.reads.toNat most) 0 - 1 := by
    intro ws
    induction ws with
    | nil => rfl
    | cons w ws ih =>
      rw [List.map_cons, List.filter_cons, List.foldr_cons]
      split
      · rename_i hstays
        rw [List.foldr_cons, ih, Waiting.reads_nearer]
        omega
      · rename_i hdue
        rw [Waiting.stays_nearer_iff] at hdue
        rw [ih]
        omega
  rw [readsLeft, readsLeft, waitingFrom_countRead, hdown]

theorem Lined.iterate (h : Lined longest n) : ∀ k, Lined longest (Sequential.countRead^[k] n)
  | 0 => h
  | k + 1 => by
    rw [Function.iterate_succ_apply']
    exact (h.iterate k).countRead

/-- Reads leave the pool alone. -/
theorem next_iterate (a : String) (n : State) : ∀ k, next a (countRead^[k] n) = next a n
  | 0 => rfl
  | k + 1 => by
    rw [Function.iterate_succ_apply', next_countRead, next_iterate a n k]

theorem readsLeft_iterate (a : String) (n : State) :
    ∀ k, readsLeft a (countRead^[k] n) = readsLeft a n - k
  | 0 => rfl
  | k + 1 => by
    rw [Function.iterate_succ_apply', readsLeft_countRead, readsLeft_iterate a n k, Nat.sub_sub]

/-! ### How far the chain is -/

theorem Lined.readsLeft_eq_zero (h : Lined longest n) :
    readsLeft a n = 0 ↔ waitingFrom a n.waiting = [] := by
  constructor
  · intro hzero
    rw [readsLeft] at hzero
    cases hline : waitingFrom a n.waiting with
    | nil => rfl
    | cons w ws =>
      have hw : w ∈ n.waiting := by
        refine (List.mem_filter.mp (?_ : w ∈ waitingFrom a n.waiting)).1
        rw [hline]
        exact List.mem_cons_self
      have hpos := (h.reads w hw).1
      rw [hline, List.foldr_cons] at hzero
      omega
  · intro hnone
    rw [readsLeft, hnone]
    rfl

/-- **The chain has caught up with the pool when no more reads are needed**, and not before. -/
theorem Lined.next_le_onChain (h : Lined longest n) :
    next a n ≤ onChain a n ↔ readsLeft a n = 0 := by
  rw [h.readsLeft_eq_zero, ← List.length_eq_zero_iff]
  have hlast := (h.nonces a).last_eq
  omega

theorem Lined.onChain_eq_next (h : Lined longest n) (hnone : readsLeft a n = 0) :
    onChain a n = next a n := by
  have hlast := (h.nonces a).last_eq
  rw [h.readsLeft_eq_zero.mp hnone] at hlast
  simpa using hlast.symm

/-! ### Extrinsics -/

section

variable {setup : Setup τ}

/-- An extrinsic that is not included at once joins the line at its end. -/
theorem waiting_taken (setup : Setup τ) (e : Extrinsic) (n : State) :
    (taken setup e n).waiting = n.waiting ++
      if 0 < setup.includeAfter then [⟨setup.includeAfter, e.address, e.nonce⟩] else [] := by
  simp only [taken, accept, Act.runOn]
  split <;> simp_all

theorem onChain_taken (setup : Setup τ) (e : Extrinsic) (a : String) (n : State) :
    onChain a (taken setup e n) =
      if e.address = a ∧ ¬ 0 < setup.includeAfter then e.nonce + 1 else onChain a n := by
  simp only [taken, accept, Act.runOn, onChain]
  split
  · rename_i hlater
    rw [if_neg fun h => h.2 hlater]
  · rename_i hnow
    rw [Table.get?_put]
    by_cases ha : e.address = a <;> simp [ha, hnow]

/-- Only the line of its own address is longer for an extrinsic. -/
theorem waitingFrom_taken {e : Extrinsic} (hne : e.address ≠ a) :
    waitingFrom a (taken setup e n).waiting = waitingFrom a n.waiting := by
  rw [waiting_taken, waitingFrom, waitingFrom, List.filter_append]
  split <;> simp [hne]

/-- **An extrinsic that is taken keeps the line in order**, whether it joins it or not. -/
theorem Lined.taken (h : Lined setup.includeAfter n) {e : Extrinsic}
    (hnonce : e.nonce = next e.address n) : Lined setup.includeAfter (taken setup e n) := by
  have hother : ∀ a, e.address ≠ a → Consecutive (onChain a (Sequential.taken setup e n))
      (next a (Sequential.taken setup e n))
      (waitingFrom a (Sequential.taken setup e n).waiting) := fun a ha => by
    rw [onChain_taken, next_taken, waitingFrom_taken ha, if_neg ha, if_neg fun h => ha h.1]
    exact h.nonces a
  by_cases hlater : 0 < setup.includeAfter
  · have hwaiting : (Sequential.taken setup e n).waiting =
        n.waiting ++ [⟨setup.includeAfter, e.address, e.nonce⟩] := by
      rw [waiting_taken, if_pos hlater]
    refine ⟨fun w hw => ?_, ?_, fun a => ?_⟩
    · rw [hwaiting, List.mem_append, List.mem_singleton] at hw
      rcases hw with hw | rfl
      · exact h.reads w hw
      · exact ⟨hlater, Int.le_refl _⟩
    · rw [hwaiting, List.pairwise_append]
      refine ⟨h.ordered, List.pairwise_singleton _ _, fun w hw v hv => ?_⟩
      rw [List.mem_singleton.mp hv]
      exact (h.reads w hw).2
    · by_cases ha : e.address = a
      · subst ha
        rw [onChain_taken, next_taken, hwaiting, if_pos rfl, if_neg fun h => h.2 hlater, hnonce]
        simpa [waitingFrom] using (h.nonces e.address).append rfl
      · exact hother a ha
  · -- Nothing can have waited.
    have hnone : n.waiting = [] := by
      refine List.eq_nil_iff_forall_not_mem.mpr fun w hw => ?_
      have hreads := h.reads w hw
      omega
    have hwaiting : (Sequential.taken setup e n).waiting = [] := by
      rw [waiting_taken, if_neg hlater, hnone, List.append_nil]
    refine ⟨fun w hw => ?_, ?_, fun a => ?_⟩
    · rw [hwaiting] at hw
      cases hw
    · rw [hwaiting]
      exact .nil
    · by_cases ha : e.address = a
      · rw [onChain_taken, next_taken, hwaiting, if_pos ha, if_pos ⟨ha, hlater⟩]
        exact .nil _
      · exact hother a ha

end

end Campaign.Sequential
