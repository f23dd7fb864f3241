import Campaign.Draw.Split
import Mathlib.Data.List.Induction
import Mathlib.Data.List.Perm.Subperm
import Mathlib.Data.List.Sigma

/-!
# Samples are taken from distinct places

A sample has as many elements as asked for, and with what is left of the pool makes up the pool
again.  Nothing is needed of the source of random words: a number that is found is free, and one is
always found while there is room (`free_spec`).

* `takeOut_spec`: elements that are taken out of a pool are part of it, since a gap is filled from
  the end (`perm_fillFromEnd`).
* `places_spec`: places that are drawn are distinct and below the bound.
* `sample_spec`: **a sample is a part of its pool** of the size asked for.
* `perm_undrawn`: the drawn and the undrawn elements make up the pool.
-/

namespace Campaign.Draw

open List

variable {γ α : Type} {next : γ → UInt32 × γ}

/-! ### Numbers -/

/-- **A number that is found is below the bound and not taken**, if there is one. -/
theorem free_spec {n : Nat} {taken : List Nat} (hroom : ∃ i < n, i ∉ taken) :
    ∀ {tries : Nat} {g g' : γ} {j : Nat}, free next n taken tries g = (j, g') → j < n ∧ j ∉ taken
  | 0, g, g', j, h => by
    obtain ⟨i, hi, hnew⟩ := hroom
    have hsome : ((List.range n).find? fun j => !taken.contains j).isSome := by
      rw [List.find?_isSome]
      exact ⟨i, List.mem_range.mpr hi, by simpa using hnew⟩
    obtain ⟨k, hk⟩ := Option.isSome_iff_exists.mp hsome
    have hfree := List.find?_some hk
    rw [free, hk] at h
    obtain ⟨rfl, -⟩ := Prod.mk.inj h
    exact ⟨List.mem_range.mp (List.mem_of_find?_eq_some hk), by simpa using hfree⟩
  | tries + 1, g, g', j, h => by
    rw [free] at h
    dsimp only at h
    split at h
    · rename_i hj
      obtain ⟨rfl, -⟩ := Prod.mk.inj h
      simpa using hj
    · exact free_spec hroom h

/-- Below a bound there is room beside fewer numbers. -/
theorem exists_room {n : Nat} {taken : List Nat} (hfew : taken.length < n) :
    ∃ i < n, i ∉ taken := by
  by_contra hfull
  push Not at hfull
  have hsub : List.range n <+~ taken :=
    List.nodup_range.subperm fun i hi => hfull i (List.mem_range.mp hi)
  have hlength := hsub.length_le
  rw [List.length_range] at hlength
  omega

/-! ### Taking elements out -/

/-- **An element and a pool in which the last one fills its gap** are the pool. -/
theorem perm_fillFromEnd {pool : List α} {j : Nat} {x : α} (hx : pool[j]? = some x) :
    x :: fillFromEnd pool j ~ pool := by
  obtain ⟨first, rest, rfl, rfl⟩ : ∃ first rest, pool = first ++ x :: rest ∧ first.length = j := by
    obtain ⟨hj, rfl⟩ := List.getElem?_eq_some_iff.mp hx
    exact ⟨pool.take j, pool.drop (j + 1), by simp, by simp; omega⟩
  rcases List.eq_nil_or_concat' rest with rfl | ⟨rest, last, rfl⟩
  · have hfill : fillFromEnd (first ++ [x]) first.length = first := by simp [fillFromEnd]
    rw [hfill]
    exact (List.perm_append_singleton x first).symm
  · have hpool : first ++ x :: (rest ++ [last]) = (first ++ x :: rest) ++ [last] := by simp
    have hfill : fillFromEnd (first ++ x :: (rest ++ [last])) first.length =
        first ++ last :: rest := by
      have hset : (first ++ x :: (rest ++ [last])).set first.length last =
          (first ++ last :: rest) ++ [last] := by simp
      have hlast : (first ++ x :: (rest ++ [last])).getLast? = some last := by
        rw [hpool, List.getLast?_concat]
      simp only [fillFromEnd, hlast, hset, List.dropLast_concat]
    rw [hfill]
    calc x :: (first ++ last :: rest)
        ~ first ++ x :: last :: rest := List.perm_middle.symm
      _ ~ first ++ x :: (rest ++ [last]) :=
        ((List.perm_append_singleton last rest).symm.cons x).append_left first

/-- **What is taken out of a pool is a part of it**, of the size asked for. -/
theorem takeOut_spec : ∀ (count : Nat) (pool : List α) (g : γ), count ≤ pool.length →
    (takeOut next count pool g).length = count ∧ takeOut next count pool g <+~ pool
  | 0, pool, g, _ => ⟨rfl, List.nil_subperm⟩
  | count + 1, pool, g, hcount => by
    rcases hfree : free next pool.length [] tries g with ⟨j, g'⟩
    obtain ⟨hj, -⟩ := free_spec (exists_room (Nat.lt_of_lt_of_le (by simp) hcount)) hfree
    have hx : pool[j]? = some pool[j] := List.getElem?_eq_getElem hj
    have hfill := perm_fillFromEnd hx
    have hleft : count ≤ (fillFromEnd pool j).length := by
      have hlength := hfill.length_eq
      rw [List.length_cons] at hlength
      omega
    obtain ⟨hcounted, hpart⟩ := takeOut_spec count (fillFromEnd pool j) g' hleft
    rw [takeOut, hfree]
    simp only [hx]
    exact ⟨congrArg (· + 1) hcounted, ((List.subperm_cons _).mpr hpart).trans hfill.subperm⟩

/-! ### Drawing places -/

/-- **Places that are drawn are distinct**, below the bound and none of those taken before. -/
theorem places_spec {n : Nat} : ∀ (count : Nat) (taken : List Nat) (g : γ),
    taken.length + count ≤ n → (places next n count taken g).length = count ∧
      (places next n count taken g).Nodup ∧
      ∀ j ∈ places next n count taken g, j < n ∧ j ∉ taken
  | 0, taken, g, _ => ⟨rfl, List.nodup_nil, by simp [places]⟩
  | count + 1, taken, g, hcount => by
    rcases hfree : free next n taken tries g with ⟨j, g'⟩
    obtain ⟨hj, hnew⟩ := free_spec (exists_room (by omega)) hfree
    obtain ⟨hcounted, hnodup, hplaces⟩ :=
      places_spec (n := n) count (j :: taken) g' (by rw [List.length_cons]; omega)
    rw [places, hfree]
    refine ⟨congrArg (· + 1) hcounted, List.nodup_cons.mpr ⟨fun hold => ?_, hnodup⟩, ?_⟩
    · exact (hplaces j hold).2 List.mem_cons_self
    · intro i hi
      rcases List.mem_cons.mp hi with rfl | hi
      · exact ⟨hj, hnew⟩
      · exact ⟨(hplaces i hi).1, fun hold => (hplaces i hi).2 (List.mem_cons_of_mem _ hold)⟩

/-- All places of a list hold the list. -/
theorem filterMap_range (pool : List α) :
    (List.range pool.length).filterMap (fun j => pool[j]?) = pool := by
  induction pool using List.reverseRecOn with
  | nil => rfl
  | append_singleton pool x ih =>
    have hinside : ∀ j ∈ List.range pool.length, (pool ++ [x])[j]? = pool[j]? := fun j hj =>
      List.getElem?_append_left (List.mem_range.mp hj)
    rw [List.length_append, List.length_singleton, List.range_succ, List.filterMap_append,
      List.filterMap_congr hinside, ih]
    simp

/-- The elements at distinct places of a list are a part of it. -/
theorem filterMap_places_spec {pool : List α} {js : List Nat} (hnodup : js.Nodup)
    (hjs : ∀ j ∈ js, j < pool.length) :
    (js.filterMap fun j => pool[j]?).length = js.length ∧
      (js.filterMap fun j => pool[j]?) <+~ pool := by
  constructor
  · rw [List.length_filterMap_eq_countP, List.countP_eq_length]
    intro j hj
    simpa using hjs j hj
  · obtain ⟨part, hpart, hsub⟩ : js <+~ List.range pool.length :=
      hnodup.subperm fun j hj => List.mem_range.mpr (hjs j hj)
    refine ⟨part.filterMap fun j => pool[j]?, hpart.filterMap _, ?_⟩
    have hwhole := hsub.filterMap fun j => pool[j]?
    rwa [filterMap_range] at hwhole

/-! ### Samples -/

/-- **A sample is a part of its pool** of the size asked for, if the pool is large enough. -/
theorem sample_spec {count : Nat} {pool : List α} (g : γ) (hcount : count ≤ pool.length) :
    (sample next count pool g).length = count ∧ sample next count pool g <+~ pool := by
  rw [sample]
  split
  · exact takeOut_spec count pool g hcount
  · obtain ⟨hcounted, hnodup, hplaces⟩ :=
      @places_spec γ next pool.length count [] g (by simpa using hcount)
    obtain ⟨hlength, hpart⟩ := filterMap_places_spec hnodup fun j hj => (hplaces j hj).1
    exact ⟨hlength.trans hcounted, hpart⟩

/-- What is undrawn stays in the order of the pool. -/
theorem undrawn_sublist (drawn : List (α × Nat)) (pool : List α) : undrawn drawn pool <+ pool := by
  have hsub := (List.filter_sublist (l := pool.zipIdx)
    (p := fun e => !drawn.any fun d => d.2 = e.2)).map Prod.fst
  rwa [List.zipIdx_map_fst] at hsub

/-- **The drawn and the undrawn elements make up the pool.** -/
theorem perm_undrawn {pool : List α} {drawn : List (α × Nat)} (hdrawn : drawn <+~ pool.zipIdx) :
    drawn.map (·.1) ++ undrawn drawn pool ~ pool := by
  have hplaces : (pool.zipIdx.map Prod.snd).Nodup := List.nodup_zipIdx_map_snd pool
  -- in the pool with its places, what is drawn is what has the place of something drawn
  have hsame : pool.zipIdx.filter (fun e => drawn.any fun d => d.2 = e.2) ~ drawn := by
    obtain ⟨part, hpart, hsub⟩ := hdrawn
    have hnodup : drawn.Nodup := hpart.nodup (hplaces.of_map.sublist hsub)
    refine (List.perm_ext_iff_of_nodup (hplaces.of_map.filter _) hnodup).mpr fun e => ?_
    have hin : ∀ d ∈ drawn, d ∈ pool.zipIdx := fun d hd => hsub.mem (hpart.mem_iff.mpr hd)
    simp only [List.mem_filter, List.any_eq_true, decide_eq_true_eq]
    constructor
    · rintro ⟨he, d, hd, hplace⟩
      rwa [← List.inj_on_of_nodup_map hplaces (hin d hd) he hplace]
    · exact fun he => ⟨hin e he, e, he, rfl⟩
  have hall := (List.filter_append_perm (fun e => drawn.any fun d => d.2 = e.2) pool.zipIdx).map
    Prod.fst
  rw [List.map_append, List.zipIdx_map_fst] at hall
  exact ((hsame.symm.map Prod.fst).append_right _).trans hall

end Campaign.Draw
