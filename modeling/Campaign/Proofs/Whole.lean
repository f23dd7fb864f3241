import Campaign.Inquiry
import Campaign.Proofs.Entries
import Campaign.Value.Order
import Mathlib.Data.Finset.Card

/-!
# Whole numbers as keys

Among values that are whole numbers, equality and order are those of the numbers.  So they are fit
to be keys; the keys of a table (`keys_ofList_ints`) and the members of a set (`keySet_ints`) are
the numbers that came, each once (`Once`); and `sort_ints` puts them in order as numbers.
-/

namespace Campaign

open List

/-! ### Each number once -/

/-- **Numbers without repetition that are the same ones as some others.** -/
structure Once (ks ns : List Int) : Prop where
  nodup : ks.Nodup
  mem_iff : ∀ i, i ∈ ks ↔ i ∈ ns

namespace Once

variable {ks ls ns : List Int}

theorem nil : Once [] [] := ⟨List.nodup_nil, fun _ => Iff.rfl⟩

theorem trans (h : Once ls ks) (hks : Once ks ns) : Once ls ns :=
  ⟨h.nodup, fun i => (h.mem_iff i).trans (hks.mem_iff i)⟩

theorem of_perm (h : Once ks ns) (hperm : ls ~ ks) : Once ls ns :=
  ⟨hperm.nodup_iff.mpr h.nodup, fun i => hperm.mem_iff.trans (h.mem_iff i)⟩

/-- There are as many as there are distinct numbers. -/
theorem length_eq (h : Once ks ns) : ks.length = ns.toFinset.card := by
  rw [← List.toFinset_card_of_nodup h.nodup]
  congr 1
  ext i
  simpa using h.mem_iff i

/-- One more number is added if it is new. -/
theorem add (h : Once ks ns) (n : Int) : Once (if n ∈ ks then ks else n :: ks) (ns ++ [n]) := by
  split
  · rename_i hold
    refine ⟨h.nodup, fun i => ?_⟩
    rw [List.mem_append, List.mem_singleton, ← h.mem_iff]
    exact ⟨Or.inl, fun hi => hi.elim id fun hi => hi ▸ hold⟩
  · rename_i hnew
    refine ⟨List.nodup_cons.mpr ⟨hnew, h.nodup⟩, fun i => ?_⟩
    rw [List.mem_append, List.mem_singleton, ← h.mem_iff, List.mem_cons, or_comm]

end Once

/-! ### Equality and order -/

theorem Number.int_lt (a b : Int) : (Number.int a).lt (.int b) = decide (a < b) := by
  simp [Number.lt, Number.compare?, compare_lt_iff_lt]

namespace Value

theorem int_beq (a b : Int) : (Value.int a == Value.int b) = decide (a = b) := by
  change Value.equal (.int a) (.int b) = _
  simp [Value.equal, number?, Number.equal, Number.compare?]

theorem int_before (a b : Int) : before (.int a) (.int b) = .ok (decide (a < b)) :=
  congrArg Except.ok (Number.int_lt a b)

theorem any_int_beq (ks : List Int) (n : Int) :
    (ks.map Value.int).any (· == .int n) = decide (n ∈ ks) := by
  rw [List.any_map, Bool.eq_iff_iff, List.any_eq_true, decide_eq_true_eq]
  simp [int_beq]

theorem unhashable_ints (ns : List Int) : (ns.map Value.int).findSome? unhashable? = none := by
  simp [List.findSome?_eq_none_iff, unhashable?]

/-! ### Sets -/

/-- The members of a set of whole numbers are the numbers, each once. -/
theorem distinct_ints (ns : List Int) :
    ∃ ks, Once ks ns ∧ distinct (ns.map .int) = ks.map .int := by
  -- the members that were kept, the last one first, are the numbers gone through, each once
  have hfold : ∀ (rest first ks : List Int), Once ks first → ∃ ls, Once ls (first ++ rest) ∧
      (rest.map Value.int).foldl (fun kept v => if kept.any (· == v) then kept else v :: kept)
        (ks.map .int) = ls.map .int := by
    intro rest
    induction rest with
    | nil => exact fun first ks hks => ⟨ks, by simpa using hks, rfl⟩
    | cons n rest ih =>
      intro first ks hks
      obtain ⟨ls, hls, hfold⟩ := ih (first ++ [n]) _ (hks.add n)
      refine ⟨ls, by simpa using hls, ?_⟩
      rw [← hfold, List.map_cons, List.foldl_cons, any_int_beq]
      by_cases hn : n ∈ ks <;> simp [hn]
  obtain ⟨ls, hls, hkept⟩ := hfold ns [] [] .nil
  refine ⟨ls.reverse, hls.of_perm (List.reverse_perm ls), ?_⟩
  rw [distinct, List.map_reverse, ← hkept]
  rfl

theorem keySet_ints (ns : List Int) :
    ∃ ks, Once ks ns ∧ keySet (ns.map .int) = .ok (ks.map .int) := by
  obtain ⟨ks, hks, hdistinct⟩ := distinct_ints ns
  refine ⟨ks, hks, ?_⟩
  rw [keySet, unhashable_ints, hdistinct]

/-- **Whole numbers are put in order as numbers.** -/
theorem sort_ints (ns : List Int) : sort (ns.map .int) = .ok ((ns.mergeSort).map .int) := by
  have hordered : ordered (ns.map .int) = true := by
    simp [ordered, isPlaced, number?, Number.equal, Number.compare?]
  have hatMost : ∀ a b : Int, atMost (.int a) (.int b) = decide (a ≤ b) := by
    intro a b
    rw [atMost, int_before]
    by_cases hab : b < a
    · simp [hab]
    · simp [hab, Int.not_lt.mp hab]
  rw [sort, if_pos hordered, List.map_mergeSort]
  exact fun a _ b _ => (hatMost a b).symm

end Value

/-! ### Tables -/

namespace Table

variable {α : Type}

theorem keys_insert_int (k : Int) (v : α) : ∀ (es : List (Value × α)) (ks : List Int),
    es.map Prod.fst = ks.map Value.int →
      (insert (.int k) v es).map Prod.fst = (if k ∈ ks then ks else ks ++ [k]).map Value.int
  | [], ks, hes => by
    obtain rfl : ks = [] := by simpa using hes.symm
    simp [insert]
  | (key, old) :: es, [], hes => by simp at hes
  | (key, old) :: es, n :: ks, hes => by
    obtain ⟨rfl, htail⟩ : key = .int n ∧ es.map Prod.fst = ks.map Value.int := by simpa using hes
    have hinsert := keys_insert_int k v es ks htail
    by_cases hn : n = k
    · simp [insert, Value.int_beq, hn, htail]
    · have hk : k ∈ n :: ks ↔ k ∈ ks := by simp [Ne.symm hn]
      by_cases hmem : k ∈ ks <;> simp_all [insert, Value.int_beq]

/-- **The keys of a table are the whole numbers that came, each once.** -/
theorem keys_ofList_ints {entries : List (Value × α)} {ns : List Int}
    (hentries : entries.map Prod.fst = ns.map .int) :
    ∃ ks, Once ks ns ∧ (ofList entries).keys = ks.map .int := by
  have hfold : ∀ (rest : List (Value × α)) (ms first ks : List Int) (t : Table Value α),
      rest.map Prod.fst = ms.map .int → Once ks first → t.keys = ks.map .int →
        ∃ ls, Once ls (first ++ ms) ∧
          (rest.foldl (fun (t : Table Value α) e => t.put e.1 e.2) t).keys = ls.map .int := by
    intro rest
    induction rest with
    | nil =>
      intro ms first ks t hms hks ht
      obtain rfl : ms = [] := by simpa using hms.symm
      exact ⟨ks, by simpa using hks, ht⟩
    | cons e rest ih =>
      intro ms first ks t hms hks ht
      cases ms with
      | nil => simp at hms
      | cons n ms =>
        obtain ⟨hkey, hrest⟩ := List.cons.inj hms
        have hadd : Once (if n ∈ ks then ks else ks ++ [n]) (first ++ [n]) := by
          refine (hks.add n).of_perm ?_
          split
          · rfl
          · exact List.perm_append_singleton n ks
        obtain ⟨ls, hls, hfold⟩ := ih ms (first ++ [n]) _ (t.put e.1 e.2) hrest hadd
          (by rw [hkey]; exact keys_insert_int n e.2 t.entries ks ht)
        exact ⟨ls, by simpa using hls, hfold⟩
  obtain ⟨ls, hls, hkeys⟩ := hfold entries ns [] [] empty hentries .nil rfl
  exact ⟨ls, by simpa using hls, hkeys⟩

theorem find?_insert_int (k j : Int) (v : α) : ∀ (es : List (Value × α)) (ks : List Int),
    es.map Prod.fst = ks.map Value.int →
      find? (.int j) (insert (.int k) v es) = if k = j then some v else find? (.int j) es
  | [], _, _ => by simp [insert, find?, Value.int_beq]
  | (key, old) :: es, [], hes => by simp at hes
  | (key, old) :: es, n :: ks, hes => by
    obtain ⟨rfl, htail⟩ : key = .int n ∧ es.map Prod.fst = ks.map Value.int := by simpa using hes
    have hrest := find?_insert_int k j v es ks htail
    by_cases hn : n = k
    · subst hn
      by_cases hj : n = j <;> simp [insert, find?, Value.int_beq, hj]
    · have hinsert : insert (.int k) v ((.int n, old) :: es) =
          (.int n, old) :: insert (.int k) v es := by simp [insert, Value.int_beq, hn]
      rw [hinsert, find?, find?, hrest]
      by_cases hj : n = j
      · simp [Value.int_beq, hj, Ne.symm (hj ▸ hn)]
      · simp [Value.int_beq, hj]

/-- Of entries with one id the last counts. -/
theorem get?_ofList_int (i : Int) {es : List (Value × α)} : ∀ {ns : List Int},
    es.map Prod.fst = ns.map .int → (ofList es).get? (.int i) = find? (.int i) es.reverse := by
  induction es using List.reverseRecOn with
  | nil => exact fun _ => rfl
  | append_singleton es e ih =>
    intro ns hes
    obtain ⟨ms, last, rfl, hms, hlast⟩ := List.map_eq_append_iff.mp
      ((List.map_append ▸ hes).symm : ns.map .int = es.map Prod.fst ++ [e].map Prod.fst)
    obtain ⟨n, rest, rfl, hn, hrest⟩ := List.map_eq_cons_iff.mp hlast
    obtain ⟨ks, -, hkeys⟩ := keys_ofList_ints hms.symm
    rw [ofList_concat, get?, put, ← hn, find?_insert_int n i e.2 _ ks hkeys, List.reverse_append]
    have hsame : find? (.int i) (ofList es).entries = find? (.int i) es.reverse := ih hms.symm
    by_cases hi : n = i <;> simp [find?, ← hn, Value.int_beq, hi, hsame]

theorem find?_ints (i : Int) (es : List (Int × α)) :
    find? (.int i) (es.map fun e => (Value.int e.1, e.2)) = find? i es := by
  induction es with
  | nil => rfl
  | cons e es ih => simp [find?, Value.int_beq, ih]

/-- Entries whose keys are whole numbers, with the numbers as keys. -/
theorem exists_int_entries {es : List (Value × α)} {ks : List Int}
    (h : es.map Prod.fst = ks.map .int) :
    ∃ fs : List (Int × α), es = fs.map (fun e => (.int e.1, e.2)) ∧ fs.map Prod.fst = ks := by
  induction es generalizing ks with
  | nil => exact ⟨[], rfl, by simpa using h⟩
  | cons e es ih =>
    cases ks with
    | nil => simp at h
    | cons k ks =>
      obtain ⟨hk, h⟩ := List.cons.inj h
      obtain ⟨fs, rfl, rfl⟩ := ih h
      exact ⟨(k, e.2) :: fs, by rw [List.map_cons, ← hk], rfl⟩

end Table

end Campaign
