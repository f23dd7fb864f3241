import Campaign.Proofs.Action
import Campaign.Proofs.Sampling
import Campaign.Proofs.Whole
import Mathlib.Data.List.Sort

/-!
# Ids are divided

A drawing divides ids into chosen ones and others.  What comes out is a `Draw.Division`: two rows in
order without a common id that make up the ids, with as many chosen as there are winners, or all.

The random words matter for which ids are chosen, and for nothing else.  `Draw.splitFrom` divides
with any source of them in any state, and a division is one of those (`Draw.split_eq_splitFrom`).
Without a seed the words come from the entropy of the system; with one they do not
(`Draw.split_seeded`).

* `Draw.splitFrom_ints`: **a division comes out**, whatever the random words are.
* `Draw.split_congr`: only the set of ids counts, however often and in which order they come.
* `Draw.split_ints`, `Draw.split_negative`: what that is for the divisions of a run.
-/

namespace Campaign.Draw

open List

variable {γ : Type}

/-! ### Seeds and numbers of winners -/

/-- The values that a draw can be seeded with: all but lists, tuples and dictionaries. -/
def Seed.Fits : Value → Prop
  | .list _ | .tuple _ | .dict _ => False
  | _ => True

theorem Seed.generator_of_fits {seed : Value} (h : Seed.Fits seed) (entropy : List UInt32) :
    ∃ g, Seed.generator entropy seed = .ok g := by
  cases seed with
  | list | tuple | dict => exact h.elim
  | _ => exact ⟨_, rfl⟩

theorem Seed.generator_of_not_fits {seed : Value} (h : ¬ Seed.Fits seed) (entropy : List UInt32) :
    Seed.generator entropy seed = .error .badSeed := by
  cases seed with
  | list | tuple | dict => rfl
  | _ => exact absurd trivial h

/-- With a seed, the entropy of the system is not asked for. -/
theorem Seed.generator_seeded {seed : Value} (h : seed ≠ .null) (entropy other : List UInt32) :
    Seed.generator other seed = Seed.generator entropy seed := by
  cases seed with
  | null => exact absurd rfl h
  | _ => rfl

theorem winnerCount_int (winners n : Nat) :
    winnerCount (.int winners) n = .ok (min winners n) := by
  by_cases h : n < winners
  · simp [winnerCount, Value.number?, Number.int_lt, h, Nat.min_eq_right h.le]
  · simp [winnerCount, Value.number?, Number.int_lt, h, Nat.min_eq_left (Nat.not_lt.mp h)]

/-! ### The pool -/

/-- The pool of some ids: each once, in order. -/
theorem pool_ints (ids : List Int) : ∃ pool : List Int, Once pool ids ∧ pool.Pairwise (· < ·) ∧
    (Value.keySet (ids.map .int) >>= Value.sort) = .ok (pool.map .int) := by
  obtain ⟨members, hmembers, hset⟩ := Value.keySet_ints ids
  have honce : Once members.mergeSort ids := hmembers.of_perm (List.mergeSort_perm members _)
  refine ⟨members.mergeSort, honce,
    (List.sortedLE_mergeSort.sortedLT_of_nodup honce.nodup).pairwise, ?_⟩
  rw [hset]
  exact Value.sort_ints members

/-- Ids that are the same ones make the same pool. -/
theorem pool_congr {ids others : List Int} (h : ∀ i, i ∈ others ↔ i ∈ ids) :
    (Value.keySet (others.map .int) >>= Value.sort) =
      (Value.keySet (ids.map .int) >>= Value.sort) := by
  obtain ⟨pool, honce, hsorted, hpool⟩ := pool_ints ids
  obtain ⟨pool', honce', hsorted', hpool'⟩ := pool_ints others
  have hsame : pool' = pool := hsorted'.sortedLT.eq_of_mem_iff hsorted.sortedLT fun i => by
    rw [honce'.mem_iff, h, honce.mem_iff]
  rw [hpool, hpool', hsame]

/-! ### Samples of ids -/

/-- Values that are all among whole numbers are whole numbers. -/
theorem exists_ints {vs : List Value} {ns : List Int} (h : vs ⊆ ns.map .int) :
    ∃ ms : List Int, vs = ms.map .int := by
  have hrange : vs ∈ Set.range (List.map Value.int) := by
    rw [Set.range_list_map]
    intro v hv
    obtain ⟨n, -, rfl⟩ := List.mem_map.mp (h hv)
    exact ⟨n, rfl⟩
  obtain ⟨ms, rfl⟩ := hrange
  exact ⟨ms, rfl⟩

/-- A sample of whole numbers and what is left of the pool are whole numbers that make it up, and
what is left is in the order of the pool. -/
theorem sample_ints {pool : List Int} {count : Nat} (hcount : count ≤ pool.length)
    (next : γ → UInt32 × γ) (g : γ) :
    let drawn := sample next count (pool.map Value.int).zipIdx g
    ∃ winning rest : List Int, drawn.map (·.1) = winning.map .int ∧
      undrawn drawn (pool.map .int) = rest.map .int ∧ winning ++ rest ~ pool ∧ rest <+ pool ∧
      winning.length = count := by
  intro drawn
  obtain ⟨hdrawn, hpart⟩ : drawn.length = count ∧ drawn <+~ (pool.map Value.int).zipIdx :=
    sample_spec g (by simpa using hcount)
  have hwhole := perm_undrawn hpart
  obtain ⟨winning, hwinning⟩ : ∃ ms : List Int, drawn.map (·.1) = ms.map .int :=
    exists_ints fun v hv => hwhole.subset (List.mem_append_left _ hv)
  -- What is left is never sorted: it is a sublist of the pool, which is in order.
  obtain ⟨rest, hsub, hrest⟩ := List.sublist_map_iff.mp (undrawn_sublist drawn (pool.map Value.int))
  refine ⟨winning, rest, hwinning, hrest, ?_, hsub, ?_⟩
  · rw [hwinning, hrest, ← List.map_append] at hwhole
    exact (List.map_perm_map_iff fun _ _ => Value.int.inj).mp hwhole
  · have hlength := congrArg List.length hwinning
    simpa [hdrawn] using hlength.symm

/-! ### Divisions -/

/-- **A division of ids**: both sides in order, without a common id, together the ids, and as many
chosen as there are winners, or all. -/
structure Division (ids : List Int) (winners : Int) (chosen notChosen : List Int) : Prop where
  chosen_increases : chosen.Pairwise (· < ·)
  notChosen_increases : notChosen.Pairwise (· < ·)
  disjoint : chosen.Disjoint notChosen
  union : ∀ i, i ∈ chosen ∨ i ∈ notChosen ↔ i ∈ ids
  size : (chosen.length : Int) = min winners ids.toFinset.card

namespace Division

variable {ids chosen notChosen : List Int} {winners : Int}

theorem once (h : Division ids winners chosen notChosen) : Once (chosen ++ notChosen) ids where
  nodup := h.chosen_increases.sortedLT.nodup.append h.notChosen_increases.sortedLT.nodup h.disjoint
  mem_iff i := by rw [List.mem_append, h.union]

/-- Without winners nothing is chosen. -/
theorem chosen_eq_nil (h : Division ids 0 chosen notChosen) : chosen = [] := by
  have hsize := h.size
  rw [Int.min_eq_left (Int.natCast_nonneg _)] at hsize
  exact List.length_eq_zero_iff.mp (Int.ofNat_eq_zero.mp hsize)

/-- With a winner for each id nothing is left. -/
theorem notChosen_eq_nil (h : Division ids winners chosen notChosen)
    (hmany : (ids.toFinset.card : Int) ≤ winners) : notChosen = [] := by
  have hsize := h.size
  have hall := h.once.length_eq
  rw [Int.min_eq_right hmany] at hsize
  rw [List.length_append] at hall
  exact List.length_eq_zero_iff.mp (by omega)

end Division

/-- Winners and the rest as some source of random words has them, in any state of it. -/
def splitFrom (next : γ → UInt32 × γ) (g : γ) (ids : List Value) (winners : Value) :
    Except Fault (List Value × List Value) := do
  let pool ← Value.sort (← Value.keySet ids)
  if ← winners.before (.int 0) then throw (.negativeWinners winners)
  let count ← winnerCount winners pool.length
  let drawn := sample next count pool.zipIdx g
  return (← Value.sort (drawn.map (·.1)), undrawn drawn pool)

/-- The source of the words is the generator of the seed. -/
theorem split_eq_splitFrom {seed : Value} {entropy : List UInt32} {g : Twister}
    (hg : Seed.generator entropy seed = .ok g) (ids : List Value) (winners : Value) :
    split ids winners seed entropy = splitFrom Twister.next g ids winners := by
  simp only [split, splitFrom, hg]
  rfl

/-- **Ids are divided**, whatever the random words are. -/
theorem splitFrom_ints (next : γ → UInt32 × γ) (g : γ) (ids : List Int) (winners : Nat) :
    ∃ chosen notChosen : List Int, splitFrom next g (ids.map .int) (.int winners) =
        .ok (chosen.map .int, notChosen.map .int) ∧ Division ids winners chosen notChosen := by
  obtain ⟨pool, honce, hsorted, hpool⟩ := pool_ints ids
  obtain ⟨winning, rest, hwinning, hrest, hperm, hsub, hlength⟩ :=
    sample_ints (Nat.min_le_right winners pool.length) next g
  have hnodup : (winning ++ rest).Nodup := hperm.nodup_iff.mpr hsorted.sortedLT.nodup
  have hchosen := List.mergeSort_perm winning fun a b => decide (a ≤ b)
  refine ⟨winning.mergeSort, rest, ?_, ?_, ?_, ?_, fun i => ?_, ?_⟩
  · obtain ⟨members, hset, hsort⟩ := Act.outcome_bind_ok.mp hpool
    have hnegative : Value.before (.int winners) (.int 0) = .ok false := by
      simp [Value.int_before]
    simp [splitFrom, hset, hsort, hnegative, winnerCount_int, hwinning, hrest, Value.sort_ints,
      bind, Except.bind, pure, Except.pure]
  · exact (List.sortedLE_mergeSort.sortedLT_of_nodup
      (hchosen.nodup_iff.mpr (List.Nodup.of_append_left hnodup))).pairwise
  · exact hsorted.sublist hsub
  · exact fun i hi => List.disjoint_of_nodup_append hnodup (hchosen.mem_iff.mp hi)
  · rw [hchosen.mem_iff, ← List.mem_append, hperm.mem_iff, honce.mem_iff]
  · rw [List.length_mergeSort, hlength, honce.length_eq]
    omega

/-! ### With a seed, or the entropy of the system -/

/-- Fewer winners than none are refused. -/
theorem split_negative (ids : List Int) {winners : Int} (h : winners < 0) (seed : Value)
    (entropy : List UInt32) :
    split (ids.map .int) (.int winners) seed entropy =
      .error (.negativeWinners (.int winners)) := by
  obtain ⟨members, -, hset⟩ := Value.keySet_ints ids
  simp [split, hset, Value.sort_ints, Value.int_before, h, bind, Except.bind, throw, throwThe,
    MonadExceptOf.throw]

/-- A seed that cannot be used is refused. -/
theorem split_badSeed (ids : List Int) (winners : Nat) {seed : Value} (h : ¬ Seed.Fits seed)
    (entropy : List UInt32) :
    split (ids.map .int) (.int winners) seed entropy = .error .badSeed := by
  obtain ⟨members, -, hset⟩ := Value.keySet_ints ids
  simp [split, hset, Value.sort_ints, Value.int_before, Seed.generator_of_not_fits h, bind,
    Except.bind]

/-- **Only the set of ids counts** in a division. -/
theorem split_congr {ids others : List Int} (h : ∀ i, i ∈ others ↔ i ∈ ids)
    (winners seed : Value) (entropy : List UInt32) :
    split (others.map .int) winners seed entropy = split (ids.map .int) winners seed entropy := by
  simp only [split, ← bind_assoc]
  rw [pool_congr h]

/-- **With a seed, the entropy of the system does not count.** -/
theorem split_seeded {seed : Value} (h : seed ≠ .null) (ids : List Value) (winners : Value)
    (entropy other : List UInt32) :
    split ids winners seed other = split ids winners seed entropy := by
  simp only [split, Seed.generator_seeded h entropy other]

/-- Ids are divided, with any seed that can be used and any entropy. -/
theorem split_ids (ids : List Int) (winners : Nat) {seed : Value} (hseed : Seed.Fits seed)
    (entropy : List UInt32) :
    ∃ chosen notChosen : List Int, split (ids.map .int) (.int winners) seed entropy =
        .ok (chosen.map .int, notChosen.map .int) ∧ Division ids winners chosen notChosen := by
  obtain ⟨g, hg⟩ := Seed.generator_of_fits hseed entropy
  rw [split_eq_splitFrom hg]
  exact splitFrom_ints Twister.next g ids winners

/-- The same of ids that stand for others, each once. -/
theorem split_ints {ks ids : List Int} (hks : Once ks ids) (winners : Nat) {seed : Value}
    (hseed : Seed.Fits seed) (entropy : List UInt32) :
    ∃ chosen notChosen : List Int, split (ks.map .int) (.int winners) seed entropy =
        .ok (chosen.map .int, notChosen.map .int) ∧
      Once (chosen ++ notChosen) ids ∧ chosen.length = min winners ids.toFinset.card := by
  obtain ⟨chosen, notChosen, hsplit, hdivision⟩ := split_ids ids winners hseed entropy
  have hsize := hdivision.size
  refine ⟨chosen, notChosen, ?_, hdivision.once, by omega⟩
  rw [split_congr hks.mem_iff, hsplit]

/-- A division that goes well is not of fewer than no winners, and has a seed that fits. -/
theorem ok_of_split {ids chosen notChosen : List Value} {winners seed : Value}
    {entropy : List UInt32} (h : split ids winners seed entropy = .ok (chosen, notChosen)) :
    winners.before (.int 0) = .ok false ∧ ∃ g, Seed.generator entropy seed = .ok g := by
  obtain ⟨members, hset, h⟩ := Act.outcome_bind_ok.mp h
  obtain ⟨pool, hsort, h⟩ := Act.outcome_bind_ok.mp h
  obtain ⟨negative, hnegative, h⟩ := Act.outcome_bind_ok.mp h
  cases negative with
  | true =>
    obtain ⟨_, hthrown, -⟩ := Act.outcome_bind_ok.mp h
    cases hthrown
  | false =>
    obtain ⟨g, hg, -⟩ := Act.outcome_bind_ok.mp h
    exact ⟨hnegative, g, hg⟩

/-- A division that goes well divides whole numbers. -/
theorem split_ok_ints {ks ids : List Int} (hks : Once ks ids) {winners : Int} {seed : Value}
    {entropy : List UInt32} {chosen notChosen : List Value}
    (h : split (ks.map .int) (.int winners) seed entropy = .ok (chosen, notChosen)) :
    ∃ cs ns : List Int, chosen = cs.map .int ∧ notChosen = ns.map .int ∧
      Once (cs ++ ns) ids := by
  obtain ⟨hnegative, g, hg⟩ := ok_of_split h
  have hfits : Seed.Fits seed := by
    by_contra hbad
    cases (Seed.generator_of_not_fits hbad entropy).symm.trans hg
  obtain ⟨k, rfl⟩ : ∃ k : Nat, winners = k := by
    rw [Value.int_before] at hnegative
    exact Int.eq_ofNat_of_zero_le (by simpa using hnegative)
  obtain ⟨cs, ns, hsplit, honce, -⟩ := split_ints hks k hfits entropy
  obtain ⟨rfl, rfl⟩ := Prod.mk.inj (Except.ok.inj (hsplit.symm.trans h))
  exact ⟨cs, ns, rfl, rfl, honce⟩

/-- **A drawing divides the set of ids**, in any order and however often they come.  Fewer winners
than none are refused, as is a seed that cannot be used.  Else a division comes out: with any seed,
and without one whatever the random words are.  Without winners nothing is chosen, and with a winner
for each id nothing is left.  Other ids that are the same ones are divided the same way, if there is
a seed, or if the entropy of the system is the same. -/
theorem ids_are_divided (ids : List Int) (winners : Int) :
    (winners < 0 → ∀ seed entropy,
      split (ids.map .int) (.int winners) seed entropy =
          .error (.negativeWinners (.int winners)) ∧
        (Fault.negativeWinners (.int winners)).kind = "ValueError") ∧
    (0 ≤ winners →
      (∀ seed entropy, ¬ Seed.Fits seed →
        split (ids.map .int) (.int winners) seed entropy = .error .badSeed) ∧
      (∀ seed entropy, Seed.Fits seed → ∃ chosen notChosen : List Int,
        split (ids.map .int) (.int winners) seed entropy =
            .ok (chosen.map .int, notChosen.map .int) ∧
          Division ids winners chosen notChosen) ∧
      (∀ (γ : Type) (next : γ → UInt32 × γ) (g : γ), ∃ chosen notChosen : List Int,
        splitFrom next g (ids.map .int) (.int winners) =
            .ok (chosen.map .int, notChosen.map .int) ∧
          Division ids winners chosen notChosen) ∧
      ∀ chosen notChosen, Division ids winners chosen notChosen →
        (winners = 0 → chosen = []) ∧ (ids.toFinset.card ≤ winners → notChosen = [])) ∧
    ∀ others : List Int, (∀ i, i ∈ others ↔ i ∈ ids) → ∀ seed entropy other,
      (seed = .null → other = entropy) →
        split (others.map .int) (.int winners) seed other =
          split (ids.map .int) (.int winners) seed entropy := by
  refine ⟨fun hnegative seed entropy => ⟨split_negative ids hnegative seed entropy, rfl⟩,
    fun hcount => ?_, fun others hsame seed entropy other hentropy => ?_⟩
  · obtain ⟨count, rfl⟩ := Int.eq_ofNat_of_zero_le hcount
    refine ⟨fun seed entropy hbad => ?_,
      fun seed entropy hseed => split_ids ids count hseed entropy,
      fun γ next g => splitFrom_ints next g ids count, fun chosen notChosen h => ⟨?_, ?_⟩⟩
    · exact split_badSeed ids count hbad entropy
    · rintro hnone
      rw [hnone] at h
      exact h.chosen_eq_nil
    · exact h.notChosen_eq_nil
  · rw [split_congr hsame]
    by_cases hseed : seed = .null
    · rw [hentropy hseed]
    · exact split_seeded hseed _ _ entropy other

/-- Two winners of four ids, one of which comes twice: with a seed, a division comes out, and the
same one for the ids in another order and with other entropy.  One winner less than none is
refused. -/
theorem ids_are_divided_repeated :
    let draw (ids : List Int) winners entropy :=
      split (ids.map .int) (.int winners) (.text "seed") entropy
    (∃ chosen notChosen : List Int,
      draw [7, 2, 2, 9, 4] 2 [] = .ok (chosen.map .int, notChosen.map .int) ∧
        Division [7, 2, 2, 9, 4] 2 chosen notChosen ∧
        draw [2, 4, 7, 9] 2 [1] = .ok (chosen.map .int, notChosen.map .int)) ∧
    draw [7, 2, 2, 9, 4] (-1) [] = .error (.negativeWinners (.int (-1))) := by
  intro draw
  obtain ⟨-, hmany, hsame⟩ := ids_are_divided [7, 2, 2, 9, 4] 2
  obtain ⟨chosen, notChosen, hsplit, hdivision⟩ :=
    (hmany (by decide)).2.1 (.text "seed") [] trivial
  have hother := hsame [2, 4, 7, 9] (fun i => by simp; omega) (.text "seed") [] [1] nofun
  exact ⟨⟨chosen, notChosen, hsplit, hdivision, hother.trans hsplit⟩,
    ((ids_are_divided [7, 2, 2, 9, 4] (-1)).1 (by decide) (.text "seed") []).1⟩

end Campaign.Draw
