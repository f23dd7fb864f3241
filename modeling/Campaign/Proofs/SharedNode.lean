import Campaign.Node.Sequential
import Campaign.Proofs.Waiting

/-!
# A node that others use as well

The accounts of a run may be used by somebody else at any time.  For the run it only matters between
which of its own operations that happens: `shared setup uses` is the node that takes nonces in
sequence, and just before its `n`-th operation others use the next nonces of the addresses
`uses n`.  Nothing is assumed of `uses`, so every interleaving is covered.

Two numbers of an address matter: the nonce that the pool takes next (`next`) and the one that is on
chain (`onChain`).  For each operation this file says what it does to them.  `foreign uses i k` are
the addresses used by others from the `i`-th operation to before the `k`-th; nothing but them and
the extrinsics that are taken ever changes `next`.
-/

namespace Campaign.Sequential

open Act

variable {τ α : Type}

/-- The nonce that the pool takes next from an address. -/
def next (a : String) (s : State) : Int := (s.pool.get? a).getD 0

/-- The nonce that is on chain for an address. -/
def onChain (a : String) (s : State) : Int := (s.included.get? a).getD 0

/-- Nothing of an address waits for inclusion, and the chain has what the pool has. -/
def Idle (a : String) (s : State) : Prop :=
  onChain a s = next a s ∧ ∀ w ∈ s.waiting, w.address ≠ a

/-! ### Foreign uses -/

/-- Others use the next nonces of some addresses, one after the other. -/
def usedBy (addresses : List String) (s : State) : State :=
  addresses.foldl (fun s a => bump a s) s

/-- The addresses that others use from one operation to before another one. -/
def foreign (uses : Nat → List String) (i k : Nat) : List String :=
  (List.range' i (k - i)).flatMap uses

theorem foreign_self (uses : Nat → List String) (i : Nat) : foreign uses i i = [] := by
  simp [foreign]

theorem foreign_succ (uses : Nat → List String) {i k : Nat} (h : i ≤ k) :
    foreign uses i (k + 1) = foreign uses i k ++ uses k := by
  rw [foreign, foreign, Nat.succ_sub h, List.range'_concat, List.flatMap_append,
    List.flatMap_singleton, Nat.one_mul, Nat.add_sub_cancel' h]

theorem foreign_append (uses : Nat → List String) {i j k : Nat} (hij : i ≤ j) (hjk : j ≤ k) :
    foreign uses i j ++ foreign uses j k = foreign uses i k := by
  obtain ⟨d, rfl⟩ := Nat.exists_eq_add_of_le hij
  obtain ⟨d', rfl⟩ := Nat.exists_eq_add_of_le hjk
  have hlength : i + d + d' - i = d + d' := by omega
  rw [foreign, foreign, foreign, ← List.flatMap_append, hlength, Nat.add_sub_cancel_left,
    Nat.add_sub_cancel_left, List.range'_append_1]

theorem mem_foreign {uses : Nat → List String} {i k : Nat} {a : String} :
    a ∈ foreign uses i k ↔ ∃ m, i ≤ m ∧ m < k ∧ a ∈ uses m := by
  simp only [foreign, List.mem_flatMap, List.mem_range'_1]
  constructor
  · rintro ⟨m, ⟨him, hmk⟩, ha⟩
    exact ⟨m, him, by omega, ha⟩
  · rintro ⟨m, him, hmk, ha⟩
    exact ⟨m, ⟨him, by omega⟩, ha⟩

theorem next_bump (a b : String) (s : State) :
    next b (bump a s) = if a = b then next b s + 1 else next b s := by
  rw [next, bump, Table.get?_put]
  by_cases h : a = b
  · subst h
    simp [next]
  · simp [next, h]

theorem onChain_bump (a b : String) (s : State) :
    onChain b (bump a s) = if a = b then next b s + 1 else onChain b s := by
  rw [onChain, bump, Table.get?_put]
  by_cases h : a = b
  · subst h
    simp [next]
  · simp [onChain, h]

/-- The pool after foreign uses depends on the pool alone. -/
theorem pool_usedBy (addresses : List String) : ∀ {s t : State}, s.pool = t.pool →
    (usedBy addresses s).pool = (usedBy addresses t).pool := by
  induction addresses with
  | nil => exact fun h => h
  | cons a rest ih =>
    intro s t h
    exact ih (by simp only [bump, h])

theorem usedBy_append (first rest : List String) (s : State) :
    usedBy (first ++ rest) s = usedBy rest (usedBy first s) := List.foldl_append

/-- Each foreign use moves the pool on by one. -/
theorem next_usedBy (b : String) (addresses : List String) :
    ∀ s : State, next b (usedBy addresses s) = next b s + addresses.count b := by
  induction addresses with
  | nil => intro s; simp [usedBy]
  | cons a rest ih =>
    intro s
    have hrest : next b (usedBy (a :: rest) s) = next b (bump a s) + rest.count b := ih (bump a s)
    rw [hrest, next_bump, List.count_cons]
    by_cases h : a = b
    · simp [h]
      omega
    · simp [h]

theorem Idle.bump {a : String} {s : State} (h : Idle a s) (b : String) :
    Idle a (Sequential.bump b s) := by
  refine ⟨?_, h.2⟩
  rw [onChain_bump, next_bump]
  split
  · rfl
  · exact h.1

theorem Idle.usedBy {a : String} (addresses : List String) :
    ∀ {s : State}, Idle a s → Idle a (Sequential.usedBy addresses s) := by
  induction addresses with
  | nil => exact fun h => h
  | cons b rest ih => exact fun h => ih (h.bump b)

/-! ### Reads and extrinsics -/

/-- A read leaves the pool alone. -/
theorem next_countRead (a : String) (s : State) : next a (countRead s) = next a s := rfl

theorem onChain_includeOne (a : String) : ∀ (due : List Waiting) (included : Table String Int),
    (∀ w ∈ due, w.address ≠ a) →
    ((due.foldl includeOne included).get? a) = included.get? a := by
  intro due
  induction due with
  | nil => exact fun _ _ => rfl
  | cons w rest ih =>
    intro included hdue
    rw [List.foldl_cons, ih _ fun v hv => hdue v (by simp [hv]), includeOne, Table.get?_put,
      if_neg (hdue w (by simp))]

theorem Idle.countRead {a : String} {s : State} (h : Idle a s) : Idle a (countRead s) := by
  have hall : ∀ w ∈ s.waiting.map fun w => { w with reads := w.reads - 1 }, w.address ≠ a := by
    intro w hw
    obtain ⟨v, hv, rfl⟩ := List.mem_map.mp hw
    exact h.2 v hv
  have hdue : ∀ w ∈ (s.waiting.map fun w => { w with reads := w.reads - 1 }).filter
      fun w => decide (w.reads ≤ 0), w.address ≠ a :=
    fun w hw => hall w (List.mem_filter.mp hw).1
  constructor
  · rw [next_countRead, ← h.1]
    simp only [onChain, Sequential.countRead, List.partition_eq_filter_filter]
    rw [onChain_includeOne a _ _ hdue]
  · intro w hw
    simp only [Sequential.countRead, List.partition_eq_filter_filter] at hw
    exact hall w (List.mem_filter.mp hw).1

/-- The state that has taken an extrinsic. -/
def taken (setup : Setup τ) (e : Extrinsic) (s : State) : State := ((accept setup e).runOn s).2

theorem next_taken (setup : Setup τ) (e : Extrinsic) (a : String) (s : State) :
    next a (taken setup e s) = if e.address = a then e.nonce + 1 else next a s := by
  have hpool : (taken setup e s).pool = s.pool.put e.address (e.nonce + 1) := by
    simp only [taken, accept, runOn]
    split <;> rfl
  rw [next, hpool, Table.get?_put]
  split <;> rfl

theorem Idle.taken {setup : Setup τ} {e : Extrinsic} {a : String} {s : State} (h : Idle a s)
    (hne : e.address ≠ a) : Idle a (taken setup e s) := by
  constructor
  · rw [next_taken, if_neg hne, ← h.1]
    simp only [onChain, Sequential.taken, accept, runOn]
    split
    · rfl
    · simp only [Table.get?_put, if_neg hne]
  · intro w hw
    simp only [Sequential.taken, accept, runOn] at hw
    split at hw
    · rcases List.mem_append.mp hw with hw | hw
      · exact h.2 w hw
      · obtain rfl := List.mem_singleton.mp hw
        exact hne
    · exact h.2 w hw

/-! ### The shared node -/

/-- A node with the number of its operations so far. -/
structure Shared where
  own : State
  operations : Nat := 0

/-- A shared node at its beginning: what is on chain is what the pool has. -/
def Shared.ofNonces (nonces : Table String Int) : Shared := { own := .ofNonces nonces }

/-- What the next operation finds, after the foreign uses just before it. -/
def Shared.found (uses : Nat → List String) (s : Shared) : State :=
  usedBy (uses s.operations) s.own

/-- What an attempt finds, which counts it. -/
def Shared.attempted (uses : Nat → List String) (s : Shared) : State :=
  { s.found uses with attempts := (s.found uses).attempts + 1 }

/-- An operation of a node that others use as well. -/
def among (uses : Nat → List String) (act : Act State α) : Act Shared α :=
  Act.within (Shared.found uses) (fun own s => { own, operations := s.operations + 1 }) act

/-- The node of a setup when others use it as well. -/
def shared [Seconds τ] (setup : Setup τ) (uses : Nat → List String) : Node Shared τ where
  chain := setup.chain
  version := setup.version
  query now pallet storage params := among uses ((node setup).query now pallet storage params)
  queryMap now pallet storage params :=
    among uses ((node setup).queryMap now pallet storage params)
  compose pallet function params :=
    among uses ((node (τ := τ) setup).compose pallet function params)
  sign e := among uses ((node setup).sign e)
  submit e := among uses ((node setup).submit e)

/-- A node that shows the nonces as they are, and whose foreign uses are those of `uses` alone. -/
structure Setup.Truthful (setup : Setup τ) : Prop where
  records : setup.records = .empty
  schedule : setup.schedule = []
  bumps : setup.bumps = []

theorem runOn_among (uses : Nat → List String) (act : Act State α) (s : Shared) :
    (among uses act).runOn s = ((act.runOn (s.found uses)).1,
      { own := (act.runOn (s.found uses)).2, operations := s.operations + 1 }) :=
  runOn_within _ _ act s

section

variable [Seconds τ] {setup : Setup τ} {uses : Nat → List String}

theorem query_account (h : setup.Truthful) (now : τ) (a : String) (s : State) :
    ((node setup).query now "System" "Account" (.list [.text a])).runOn s =
      (.ok (some (ownRecord (onChain a (countRead s)))), countRead s) := by
  have hsorted : byTime setup.schedule = [] := by
    rw [h.schedule]
    simp [byTime]
  have hrecord : record { setup with schedule := byTime setup.schedule } now (.text a)
      (countRead s) = .ok (ownRecord (onChain a (countRead s))) := by
    simp only [record, hsorted, h.records]
    rfl
  have hfirst : first (.list [.text a]) = .ok (.text a) := rfl
  show (do
    let address ← Act.ofExcept (first (.list [.text a]))
    modify countRead
    return some (← Act.ofExcept (record { setup with schedule := byTime setup.schedule } now
      address (← get))) : Act State (Option Value)).runOn s = _
  rw [hfirst, runOn_bind_ok (runOn_ofExcept (Except.ok (Value.text a)) s),
    runOn_bind_ok (runOn_modify _ _), runOn_bind_ok (runOn_get _), hrecord]
  rfl

/-- **Reads are truthful**: the answer is the nonce on chain at that moment. -/
theorem query_shared (h : setup.Truthful) (now : τ) (a : String) (s : Shared) :
    ((shared setup uses).query now "System" "Account" (.list [.text a])).runOn s =
      (.ok (some (ownRecord (onChain a (countRead (s.found uses))))),
        { own := countRead (s.found uses), operations := s.operations + 1 }) := by
  rw [shared, runOn_among, query_account h]

theorem compose_shared (pallet function params : Value) (s : Shared) :
    ((shared setup uses).compose pallet function params).runOn s =
      (.ok (composed pallet function params),
        { own := s.found uses, operations := s.operations + 1 }) := rfl

theorem sign_shared (e : Extrinsic) (s : Shared) :
    ((shared setup uses).sign e).runOn s =
      (.ok (), { own := s.found uses, operations := s.operations + 1 }) := rfl

/-- **The pool takes exactly its next nonce**, unless the setup has the attempt fail. -/
theorem submit_shared_cases (h : setup.Truthful) {e : Extrinsic} {s t : Shared}
    {answer : Except Fault (Option String)}
    (hrun : ((shared setup uses).submit e).runOn s = (answer, t)) :
    t.operations = s.operations + 1 ∧
      ((∃ hash, answer = .ok hash ∧ e.nonce = next e.address (s.found uses) ∧
          t.own = taken setup e (s.attempted uses)) ∨
        ∃ f, answer = .error f ∧ t.own = s.attempted uses ∧
          (setup.failures = [] → e.nonce ≠ next e.address (s.found uses) ∧
            f = .refused (poolRefusal (e.nonce < next e.address (s.found uses))))) := by
  rw [shared, runOn_among] at hrun
  obtain ⟨rfl, rfl⟩ := Prod.mk.inj hrun
  refine ⟨rfl, ?_⟩
  have hbegin : beginAttempt { setup with schedule := byTime setup.schedule } (s.found uses) =
      s.attempted uses := by
    simp only [beginAttempt, h.bumps]
    rfl
  have hsubmit : (node setup).submit e =
      submit { setup with schedule := byTime setup.schedule } e := rfl
  rw [hsubmit, submit, runOn_bind_ok (runOn_get _), runOn_bind_ok (runOn_modify _ _), hbegin]
  dsimp only
  cases hfail : setup.failures.lookup ((s.found uses).attempts : Int) with
  | some f =>
    refine Or.inr ⟨f, rfl, rfl, fun hnone => ?_⟩
    rw [hnone] at hfail
    cases hfail
  | none =>
    dsimp only
    rw [runOn_bind_ok (runOn_get _)]
    split
    · rename_i hne
      exact Or.inr ⟨_, rfl, rfl, fun _ => ⟨hne, rfl⟩⟩
    · rename_i heq
      exact Or.inl ⟨_, rfl, Decidable.not_not.mp heq, rfl⟩

/-- So does the pool of a node that nobody else uses. -/
theorem submit_cases (h : setup.Truthful) {e : Extrinsic} {n m : State}
    {answer : Except Fault (Option String)}
    (hrun : ((node setup).submit e).runOn n = (answer, m)) :
    (∃ hash, answer = .ok hash ∧ e.nonce = next e.address n ∧
        m = taken setup e { n with attempts := n.attempts + 1 }) ∨
      ∃ f, answer = .error f ∧ m = { n with attempts := n.attempts + 1 } ∧
        (setup.failures = [] → e.nonce ≠ next e.address n) := by
  have hshared : ((shared setup fun _ => []).submit e).runOn { own := n } =
      (answer, { own := m, operations := 1 }) := by
    rw [shared, runOn_among]
    simp only [Shared.found, usedBy, List.foldl_nil, hrun]
  obtain ⟨-, ⟨hash, rfl, hnonce, hown⟩ | ⟨f, rfl, hown, hwhy⟩⟩ := submit_shared_cases h hshared
  · exact Or.inl ⟨hash, rfl, hnonce, hown⟩
  · exact Or.inr ⟨f, rfl, hown, fun hnone => (hwhy hnone).1⟩

end

end Campaign.Sequential
