import Campaign.Address
import Mathlib.Data.List.Induction
import Mathlib.Data.List.TakeWhile
import Mathlib.Order.Nat

/-!
# Base 58 gives bytes back

A row of bytes is a number to base 256, and its base58 text are the digits of the number to base 58.
That loses leading zeros, so they are written beside the number, each as a leading `1`.

* `Base58.digits_ofDigits`, `Base58.ofDigits_digits`: digits without a leading zero and numbers are
  the same thing, to any base.
* `Base58.decode_encode`: **what is encoded is decoded**, leading zeros and all.
* `Base58.mem_alphabet_of_decode`, `Base58.mem_alphabet_of_encode`: a text that is decoded, or has
  been encoded, has the 58 digits only.
-/

namespace Campaign.Base58

open List

/-! ### Digits to any base -/

section

variable {base : Nat}

theorem ofDigits_append (base : Nat) (ds : List Nat) (d : Nat) :
    ofDigits base (ds ++ [d]) = base * ofDigits base ds + d := by
  rw [ofDigits, List.foldl_append]
  rfl

theorem digits_zero (base : Nat) : digits base 0 = [] := by
  rw [digits, if_neg fun h => h.2 rfl]

theorem digits_of_ne_zero (hbase : 1 < base) {n : Nat} (hn : n ≠ 0) :
    digits base n = digits base (n / base) ++ [n % base] := by
  rw [digits, if_pos ⟨hbase, hn⟩]

/-- **A number is told by its digits.** -/
theorem ofDigits_digits (hbase : 1 < base) (n : Nat) : ofDigits base (digits base n) = n := by
  induction n using Nat.strongRecOn with
  | ind n ih =>
    rcases eq_or_ne n 0 with rfl | hn
    · rw [digits_zero]
      rfl
    · rw [digits_of_ne_zero hbase hn, ofDigits_append, ih _ (Nat.div_lt_self (by omega) hbase)]
      exact Nat.div_add_mod n base

theorem lt_of_mem_digits (hbase : 1 < base) (n : Nat) : ∀ d ∈ digits base n, d < base := by
  induction n using Nat.strongRecOn with
  | ind n ih =>
    rcases eq_or_ne n 0 with rfl | hn
    · rw [digits_zero]
      exact fun d hd => nomatch hd
    · rw [digits_of_ne_zero hbase hn]
      intro d hd
      rcases List.mem_append.mp hd with hd | hd
      · exact ih _ (Nat.div_lt_self (by omega) hbase) d hd
      · rw [List.mem_singleton.mp hd]
        exact Nat.mod_lt _ (by omega)

/-- There is no leading zero. -/
theorem head_digits (hbase : 1 < base) (n : Nat) : (digits base n).head? ≠ some 0 := by
  induction n using Nat.strongRecOn with
  | ind n ih =>
    rcases eq_or_ne n 0 with rfl | hn
    · rw [digits_zero]
      exact fun h => nomatch h
    · rw [digits_of_ne_zero hbase hn, List.head?_append]
      cases hhead : (digits base (n / base)).head? with
      | some d =>
        rw [Option.some_or, ← hhead]
        exact ih _ (Nat.div_lt_self (by omega) hbase)
      | none =>
        have hlast : n / base = 0 := by
          rw [← ofDigits_digits hbase (n / base), List.head?_eq_none_iff.mp hhead]
          rfl
        have hless : n < base := (Nat.div_eq_zero_iff_lt (by omega)).mp hlast
        simpa [Nat.mod_eq_of_lt hless] using hn

/-- **Digits without a leading zero are those of their number.** -/
theorem digits_ofDigits (hbase : 1 < base) {ds : List Nat} (hds : ∀ d ∈ ds, d < base)
    (hhead : ds.head? ≠ some 0) : digits base (ofDigits base ds) = ds := by
  -- From the last digit, which is the one that a division splits off.
  induction ds using List.reverseRecOn with
  | nil => exact digits_zero base
  | append_singleton ds d ih =>
    have hd : d < base := hds d (by simp)
    have hfirst : ∀ e ∈ ds, e < base := fun e he => hds e (by simp [he])
    have hdiv : (base * ofDigits base ds + d) / base = ofDigits base ds := by
      rw [Nat.mul_add_div (by omega), Nat.div_eq_of_lt hd, Nat.add_zero]
    have hmod : (base * ofDigits base ds + d) % base = d := by
      rw [Nat.mul_add_mod, Nat.mod_eq_of_lt hd]
    have hrest : digits base (ofDigits base ds) = ds := by
      refine ih hfirst fun hzero => hhead ?_
      rw [List.head?_append, hzero]
      rfl
    have hne : base * ofDigits base ds + d ≠ 0 := by
      intro hzero
      obtain ⟨hnumber, rfl⟩ := Nat.add_eq_zero_iff.mp hzero
      have hnone : ofDigits base ds = 0 := (Nat.mul_eq_zero.mp hnumber).resolve_left (by omega)
      rw [hnone, digits_zero] at hrest
      exact hhead (by rw [← hrest]; rfl)
    rw [ofDigits_append, digits_of_ne_zero hbase hne, hdiv, hmod, hrest]

/-- Leading zeros do not count. -/
theorem ofDigits_zeros (base k : Nat) (ds : List Nat) :
    ofDigits base (List.replicate k 0 ++ ds) = ofDigits base ds := by
  induction k with
  | zero => rfl
  | succ k ih =>
    rw [← ih, List.replicate_succ]
    simp [ofDigits]

end

/-! ### What comes first -/

section

variable {α : Type} [DecidableEq α]

/-- A list begins with some elements of a kind, and goes on with another or ends. -/
theorem exists_leading (x : α) : ∀ l : List α, ∃ k rest,
    l = List.replicate k x ++ rest ∧ rest.head? ≠ some x
  | [] => ⟨0, [], rfl, fun h => nomatch h⟩
  | y :: l => by
    by_cases hy : y = x
    · obtain ⟨k, rest, hl, hrest⟩ := exists_leading x l
      exact ⟨k + 1, rest, by rw [hy, hl, List.replicate_succ, List.cons_append], hrest⟩
    · exact ⟨0, y :: l, rfl, fun h => hy (Option.some.inj h)⟩

variable {x : α} {rest : List α}

theorem takeWhile_leading (hrest : rest.head? ≠ some x) (k : Nat) :
    (List.replicate k x ++ rest).takeWhile (fun y => decide (y = x)) = List.replicate k x := by
  rw [List.takeWhile_append_of_pos fun y hy => by simpa using List.eq_of_mem_replicate hy]
  cases rest with
  | nil => exact List.append_nil _
  | cons y rest =>
    have hy : y ≠ x := by simpa using hrest
    rw [List.takeWhile_cons_of_neg (by simpa using hy), List.append_nil]

theorem dropWhile_leading (hrest : rest.head? ≠ some x) (k : Nat) :
    (List.replicate k x ++ rest).dropWhile (fun y => decide (y = x)) = rest := by
  have hboth := List.takeWhile_append_dropWhile (p := fun y => decide (y = x))
    (l := List.replicate k x ++ rest)
  rw [takeWhile_leading hrest k] at hboth
  exact List.append_cancel_left hboth

end

/-! ### The 58 digits -/

theorem value?_digit {n : Nat} (hn : n < 58) : value? (digit n) = some n := by
  have hall : ∀ n : Fin 58, value? (digit n) = some n.val := by decide +kernel
  exact hall ⟨n, hn⟩

theorem value?_isSome {c : Char} : (value? c).isSome ↔ c ∈ alphabet := by
  simp [value?]

theorem values_map_digit : ∀ {ds : List Nat}, (∀ d ∈ ds, d < 58) →
    values (ds.map digit) = .ok ds
  | [], _ => rfl
  | d :: ds, h => by
    rw [List.forall_mem_cons] at h
    rw [List.map_cons, values, value?_digit h.1, values_map_digit h.2]
    rfl

theorem mem_alphabet_of_values : ∀ {cs : List Char} {ds : List Nat}, values cs = .ok ds →
    ∀ c ∈ cs, c ∈ alphabet
  | [], _, _ => fun c hc => nomatch hc
  | c :: cs, ds, h => by
    rw [values] at h
    cases hc : value? c with
    | none =>
      rw [hc] at h
      cases h
    | some d =>
      rw [hc] at h
      cases hrest : values cs with
      | error e =>
        rw [hrest] at h
        cases h
      | ok rest =>
        refine List.forall_mem_cons.mpr ⟨value?_isSome.mp ?_, mem_alphabet_of_values hrest⟩
        rw [hc]
        rfl

/-! ### Bytes -/

/-- **What is encoded is decoded.** -/
theorem decode_encode (data : List UInt8) : decode (encode data) = .ok data := by
  -- The number is that of the bytes after the leading zeros, so its digits are those bytes.
  obtain ⟨k, rest, rfl, hrest⟩ := exists_leading 0 data
  set number := ofDigits 256 (rest.map UInt8.toNat)
  have hbytes : digits 256 number = rest.map UInt8.toNat := by
    refine digits_ofDigits (by decide) (fun d hd => ?_) fun hzero => hrest ?_
    · obtain ⟨b, -, rfl⟩ := List.mem_map.mp hd
      exact b.toNat_lt
    · rw [List.head?_map, Option.map_eq_some_iff] at hzero
      obtain ⟨b, hb, hzero⟩ := hzero
      rw [hb, UInt8.toNat_inj.mp (hzero.trans UInt8.toNat_zero.symm)]
  have hdigits : ∀ d ∈ digits 58 number, d < 58 := lt_of_mem_digits (by decide) number
  have hencode : encode (List.replicate k 0 ++ rest) =
      List.replicate k '1' ++ (digits 58 number).map digit := by
    rw [encode, takeWhile_leading hrest k, List.map_append, List.map_replicate, List.map_replicate]
    exact congrArg (fun n => List.replicate k '1' ++ (digits 58 n).map digit)
      (ofDigits_zeros 256 k _)
  have hhead : ((digits 58 number).map digit).head? ≠ some '1' := by
    rw [List.head?_map]
    intro hone
    obtain ⟨d, hd, hone⟩ := Option.map_eq_some_iff.mp hone
    have hvalue : value? (digit d) = some d := value?_digit (hdigits d (List.mem_of_mem_head? hd))
    rw [hone] at hvalue
    refine head_digits (by decide) number (hd.trans ?_)
    rw [← hvalue]
    decide +kernel
  have hdecode : decode (encode (List.replicate k 0 ++ rest)) =
      .ok ((List.replicate k '1').map (fun _ => 0) ++
        (digits 256 (ofDigits 58 (digits 58 number))).map UInt8.ofNat) := by
    rw [hencode, decode, dropWhile_leading hhead k, takeWhile_leading hhead k,
      values_map_digit hdigits]
    rfl
  rw [hdecode, List.map_replicate, ofDigits_digits (by decide), hbytes, List.map_map]
  simp [Function.comp_def]

theorem decode_nil : decode [] = .ok [] := by
  show Except.ok ((digits 256 0).map UInt8.ofNat) = Except.ok []
  rw [digits_zero, List.map_nil]

theorem mem_alphabet_of_decode {cs : List Char} {data : List UInt8} (h : decode cs = .ok data) :
    ∀ c ∈ cs, c ∈ alphabet := by
  intro c hc
  rw [← List.takeWhile_append_dropWhile (p := (· = '1')) (l := cs)] at hc
  rcases List.mem_append.mp hc with hc | hc
  · have hone : c = '1' := by simpa using List.mem_takeWhile_imp hc
    rw [hone]
    decide
  · rw [decode] at h
    cases hvalues : values (cs.dropWhile (· = '1')) with
    | error e =>
      rw [hvalues] at h
      cases h
    | ok ds => exact mem_alphabet_of_values hvalues c hc

theorem mem_alphabet_of_encode (data : List UInt8) : ∀ c ∈ encode data, c ∈ alphabet :=
  mem_alphabet_of_decode (decode_encode data)

/-- The 58 digits are ASCII, and neither blank nor a zero. -/
theorem plain_of_mem_alphabet {c : Char} (hc : c ∈ alphabet) :
    c.toNat < 128 ∧ Text.isBlank c = false ∧ c ≠ '0' := by
  have hall : alphabet.all (fun c => c.toNat < 128 ∧ Text.isBlank c = false ∧ c ≠ '0') := by
    decide +kernel
  exact of_decide_eq_true (List.all_eq_true.mp hall c hc)

end Campaign.Base58
