import Campaign.Table
import Mathlib.Data.List.Induction
import Mathlib.Data.List.Nodup

/-!
# Tables put together

A table of entries has each of their keys once.  The first entry of a key gives it its place, and
the last one its value.

* `keys_ofList`: the keys of the table, each once.
* `get?_ofList`: what is found is what the last entry of the key says.
-/

namespace Campaign.Table

variable {κ α β : Type}

/-- One entry more is put last. -/
theorem ofList_concat [BEq κ] (es : List (κ × α)) (e : κ × α) :
    ofList (es ++ [e]) = (ofList es).put e.1 e.2 := by
  rw [ofList, List.foldl_append]
  rfl

theorem get?_map [BEq κ] (f : α → β) (t : Table κ α) (k : κ) :
    (t.map f).get? k = (t.get? k).map f := by
  obtain ⟨es⟩ := t
  simp only [map, get?]
  induction es with
  | nil => rfl
  | cons e es ih =>
    simp only [List.map_cons, find?, ih]
    split <;> rfl

variable [DecidableEq κ]

/-! ### What is found -/

theorem mem_of_find? {es : List (κ × α)} {k : κ} {v : α} (h : find? k es = some v) :
    (k, v) ∈ es := by
  induction es with
  | nil => cases h
  | cons e es ih =>
    rw [find?] at h
    split at h
    · rename_i hk
      rw [beq_iff_eq] at hk
      obtain rfl := Option.some.inj h
      exact hk ▸ List.mem_cons_self
    · exact List.mem_cons_of_mem _ (ih h)

theorem find?_of_mem {es : List (κ × α)} (hnodup : (es.map (·.1)).Nodup) {k : κ} {v : α}
    (h : (k, v) ∈ es) : find? k es = some v := by
  induction es with
  | nil => cases h
  | cons e es ih =>
    obtain ⟨hnew, hnodup⟩ := List.nodup_cons.mp hnodup
    rcases List.mem_cons.mp h with rfl | h
    · simp [find?]
    · have hne : e.1 ≠ k := fun hk => hnew (List.mem_map.mpr ⟨_, h, hk.symm⟩)
      simp [find?, hne, ih hnodup h]

theorem get?_isSome_iff (t : Table κ α) (k : κ) : (t.get? k).isSome ↔ k ∈ t.keys := by
  obtain ⟨es⟩ := t
  simp only [get?, keys]
  induction es with
  | nil => simp [find?]
  | cons e es ih =>
    by_cases hk : e.1 = k
    · simp [find?, hk]
    · simp [find?, hk, Ne.symm hk, ih]

theorem get?_eq_none_iff (t : Table κ α) (k : κ) : t.get? k = none ↔ k ∉ t.keys := by
  rw [← get?_isSome_iff, Option.not_isSome_iff_eq_none]

/-! ### One entry more -/

theorem mem_keys_put {t : Table κ α} {k j : κ} {v : α} :
    j ∈ (t.put k v).keys ↔ j = k ∨ j ∈ t.keys := by
  rw [keys_put]
  split
  · rename_i hk
    exact ⟨Or.inr, fun h => h.elim (fun hj => hj ▸ hk) id⟩
  · simp [or_comm]

theorem nodup_keys_put {t : Table κ α} (h : t.keys.Nodup) (k : κ) (v : α) :
    (t.put k v).keys.Nodup := by
  rw [keys_put]
  split
  · exact h
  · rename_i hk
    exact h.append (List.nodup_singleton k) (List.disjoint_singleton.mpr hk)

/-! ### All entries -/

/-- A table of entries has their keys, each once. -/
theorem keys_ofList (es : List (κ × α)) :
    (ofList es).keys.Nodup ∧ ∀ k, k ∈ (ofList es).keys ↔ k ∈ es.map (·.1) := by
  induction es using List.reverseRecOn with
  | nil => exact ⟨List.nodup_nil, fun _ => Iff.rfl⟩
  | append_singleton es e ih =>
    rw [ofList_concat]
    refine ⟨nodup_keys_put ih.1 _ _, fun k => ?_⟩
    rw [mem_keys_put, ih.2 k]
    simp [or_comm]

/-- **Of entries with one key the last counts.** -/
theorem get?_ofList (k : κ) (es : List (κ × α)) : (ofList es).get? k = find? k es.reverse := by
  induction es using List.reverseRecOn with
  | nil => rfl
  | append_singleton es e ih =>
    rw [ofList_concat, get?_put, ih, List.reverse_append]
    simp [find?]

theorem mem_of_get?_ofList {es : List (κ × α)} {k : κ} {v : α}
    (h : (ofList es).get? k = some v) : (k, v) ∈ es := by
  rw [get?_ofList] at h
  exact List.mem_reverse.mp (mem_of_find? h)

/-- Entries with keys of their own, put onto a table, hide what was there under these. -/
theorem get?_foldl_put (k : κ) : ∀ (es : List (κ × α)) (t : Table κ α), (es.map (·.1)).Nodup →
    (es.foldl (fun (t : Table κ α) e => t.put e.1 e.2) t).get? k = (find? k es).or (t.get? k)
  | [], _, _ => rfl
  | (j, v) :: es, t, hnodup => by
    obtain ⟨hnew, hnodup⟩ := List.nodup_cons.mp hnodup
    rw [List.foldl_cons, get?_foldl_put k es _ hnodup, get?_put, find?]
    by_cases hj : j = k
    · have hnone : find? k es = none := (get?_eq_none_iff ⟨es⟩ k).mpr (hj ▸ hnew)
      simp [hnone, hj]
    · simp [hj]

end Campaign.Table
