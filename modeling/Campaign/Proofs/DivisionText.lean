import Campaign.Command.Drawing
import Mathlib.Data.List.Basic

/-!
# The text of a division can be read back

A drawing prints its division as JSON text: a dictionary of two lists, with an id a line
(`divisionText_ints`).  `sides?` reads such a text.  It skips blanks, looks for the names of the two
sides, and takes what stands between the brackets behind a name for whole numbers between commas.

`sides?_divisionText` says that it finds the ids that the text was made of.  So what is printed
tells both sides, with all ids in their order, and not just that there was a division.
-/

namespace Campaign

/-! ### Whole numbers in a text -/

namespace Value.Json

/-- A whole number is written with digits, behind a sign if it is negative. -/
theorem toList_toString (i : Int) : (toString i).toList =
    if 0 ≤ i then Nat.toDigits 10 i.toNat else '-' :: Nat.toDigits 10 (-i).toNat := by
  rw [Int.toString_eq_repr, Int.repr_eq_if]
  split
  · exact Nat.toList_repr
  · rw [String.toList_append, Nat.toList_repr]
    rfl

theorem isDigit_of_mem {n : Nat} {c : Char} (h : c ∈ Nat.toDigits 10 n) : c.isDigit = true :=
  Nat.isDigit_of_mem_toDigits (by decide) (by decide) h

theorem mem_toString {i : Int} {c : Char} (h : c ∈ (toString i).toList) :
    c = '-' ∨ c.isDigit = true := by
  rw [toList_toString] at h
  split at h
  · exact Or.inr (isDigit_of_mem h)
  · exact (List.mem_cons.mp h).imp id isDigit_of_mem

theorem toString_ne_nil (i : Int) : (toString i).toList ≠ [] := by
  rw [toList_toString]
  split
  · exact Nat.toDigits_ne_nil
  · exact List.cons_ne_nil _ _

/-- The whole number that some digits stand for, behind a sign or not. -/
def whole : List Char → Int
  | '-' :: digits => -(Nat.ofDigitChars 10 digits 0 : Int)
  | digits => Nat.ofDigitChars 10 digits 0

theorem whole_toString (i : Int) : whole (toString i).toList = i := by
  rw [toList_toString]
  split
  · rename_i hpos
    rw [whole, Nat.ofDigitChars_ten_toDigits, Int.toNat_of_nonneg hpos]
    -- digits do not begin with a sign
    intro digits hsign
    have hmem : '-' ∈ Nat.toDigits 10 i.toNat := by
      rw [hsign]
      exact List.mem_cons_self
    exact absurd (isDigit_of_mem hmem) (by decide)
  · rename_i hneg
    rw [whole, Nat.ofDigitChars_ten_toDigits, Int.toNat_of_nonneg (by omega), Int.neg_neg]

theorem block_cons (left right : String) (level : Nat) (part : String) (parts : List String) :
    block left right level (part :: parts) = left ++ newline (level + 1) ++
      ("," ++ newline (level + 1)).intercalate (part :: parts) ++ newline level ++ right :=
  rfl

theorem renderItems_ints (bytesText : List UInt8 → Except Fault String) (level : Nat)
    (ids : List Int) : renderItems bytesText level (ids.map .int) = .ok (ids.map toString) := by
  induction ids with
  | nil => rfl
  | cons i rest ih =>
    rw [List.map_cons, renderItems, ih]
    rfl

end Value.Json

namespace Command.Drawing

open Value.Json

/-! ### What the text looks like -/

/-- A side of a division as it is printed. -/
def sideText (ids : List Int) : String := block "[" "]" 1 (ids.map toString)

/-- Both sides of a division by name, as they are printed. -/
def sidesText (chosen notChosen : List Int) : String :=
  "\x7b\n  \"chosen\": " ++ sideText chosen ++ ",\n  \"not_chosen\": " ++ sideText notChosen ++
    "\n\x7d"

theorem divisionText_ints (chosen notChosen : List Int) :
    divisionText (.list (chosen.map .int)) (.list (notChosen.map .int)) =
      .ok (sidesText chosen notChosen) := by
  have hchosen : string "chosen" ++ ": " = "\"chosen\": " := by decide
  have hnotChosen : string "not_chosen" ++ ": " = "\"not_chosen\": " := by decide
  have hparts : renderEntries (fun data => .error (.notJson (Value.bytes data).typeName)) 1
      [(.text "chosen", .list (chosen.map .int)),
        (.text "not_chosen", .list (notChosen.map .int))] =
      .ok ["\"chosen\": " ++ sideText chosen, "\"not_chosen\": " ++ sideText notChosen] := by
    simp only [renderEntries, render, renderItems_ints, key]
    rw [← hchosen, ← hnotChosen]
    rfl
  have htext : block "\x7b" "\x7d" 0
      ["\"chosen\": " ++ sideText chosen, "\"not_chosen\": " ++ sideText notChosen] =
        sidesText chosen notChosen := by
    have hopen : "\x7b" ++ newline 1 ++ "\"chosen\": " = "\x7b\n  \"chosen\": " := by decide
    have hnext : "," ++ newline 1 ++ "\"not_chosen\": " = ",\n  \"not_chosen\": " := by decide
    have hclose : newline 0 ++ "\x7d" = "\n\x7d" := by decide
    rw [block_cons, String.intercalate_cons_cons, String.intercalate_singleton, sidesText,
      ← hopen, ← hnext, ← hclose]
    simp only [String.append_assoc]
  rw [← htext]
  exact congrArg (Except.map _) hparts

/-! ### Reading it -/

/-- The characters of a text but for blanks. -/
def bare (text : String) : List Char := text.toList.filter fun c => !Text.isBlank c

/-- What comes after a word that some characters begin with. -/
def after? (word : String) (cs : List Char) : Option (List Char) := word.toList.isPrefixOf? cs

/-- The whole numbers between commas. -/
def wholes (cs : List Char) : List Int := if cs.isEmpty then [] else (cs.splitOn ',').map whole

/-- The whole numbers up to a bracket, and what comes after it. -/
def ids? (cs : List Char) : Option (List Int × List Char) :=
  (after? "]" (cs.dropWhile (· ≠ ']'))).map fun rest => (wholes (cs.takeWhile (· ≠ ']')), rest)

/-- The two sides that a text shows, if it is the text of a division. -/
def sides? (text : String) : Option (List Int × List Int) := do
  let (chosen, rest) ← ids? (← after? "\x7b\"chosen\":[" (bare text))
  let (notChosen, rest) ← ids? (← after? ",\"not_chosen\":[" rest)
  if rest = ['\x7d'] then some (chosen, notChosen) else none

/-- Whole numbers between commas. -/
def listed (ids : List Int) : List Char := [','].intercalate (ids.map fun i => (toString i).toList)

@[simp] theorem bare_append (s t : String) : bare (s ++ t) = bare s ++ bare t := by
  simp [bare]

theorem bare_toString (i : Int) : bare (toString i) = (toString i).toList := by
  refine List.filter_eq_self.mpr fun c hc => ?_
  rcases mem_toString hc with rfl | hdigit
  · decide
  · obtain ⟨hlow, hhigh⟩ := Char.isDigit_iff_toNat.mp hdigit
    have hlow : 48 ≤ c.toNat := hlow
    have hhigh : c.toNat ≤ 57 := hhigh
    simp only [Text.isBlank, Bool.not_eq_true', Bool.or_eq_false_iff, Bool.and_eq_false_iff,
      decide_eq_false_iff_not]
    omega

/-- Without blanks, ids on lines of their own are ids between commas. -/
theorem bare_intercalate (ids : List Int) :
    bare (("," ++ newline 2).intercalate (ids.map toString)) = listed ids := by
  induction ids with
  | nil => rfl
  | cons i rest ih =>
    cases rest with
    | nil =>
      rw [List.map_singleton, String.intercalate_singleton, bare_toString, listed,
        List.map_singleton, List.intercalate_singleton]
    | cons j rest =>
      have hcomma : bare ("," ++ newline 2) = [','] := by decide
      rw [List.map_cons] at ih
      rw [List.map_cons, List.map_cons, String.intercalate_cons_cons, bare_append, bare_append,
        ih, bare_toString, hcomma]
      exact List.intercalate_cons_cons.symm

theorem bare_sideText (ids : List Int) : bare (sideText ids) = '[' :: listed ids ++ [']'] := by
  cases ids with
  | nil => decide
  | cons i rest =>
    have hopen : bare ("[" ++ newline 2) = ['['] := by decide
    have hline : bare (newline 1) = [] := by decide
    have hclose : bare "]" = [']'] := by decide
    have hitems := bare_intercalate (i :: rest)
    rw [List.map_cons] at hitems
    rw [sideText, List.map_cons, block_cons, bare_append, bare_append, bare_append, hopen, hitems,
      hline, hclose, List.append_nil]
    rfl

theorem after?_append (word : String) (cs : List Char) :
    after? word (word.toList ++ cs) = some cs :=
  List.isPrefixOf?_eq_some_iff_append_eq.mpr rfl

theorem mem_listed {c : Char} {ids : List Int} (h : c ∈ listed ids) :
    c = ',' ∨ c = '-' ∨ c.isDigit = true := by
  induction ids with
  | nil => cases h
  | cons i rest ih =>
    cases rest with
    | nil =>
      rw [listed, List.map_singleton, List.intercalate_singleton] at h
      exact Or.inr (mem_toString h)
    | cons j rest =>
      rw [listed, List.map_cons, List.map_cons, List.intercalate_cons_cons] at h
      rcases List.mem_append.mp h with hbefore | hrest
      · rcases List.mem_append.mp hbefore with hdigits | hcomma
        · exact Or.inr (mem_toString hdigits)
        · exact Or.inl (List.mem_singleton.mp hcomma)
      · exact ih hrest

theorem wholes_listed (ids : List Int) : wholes (listed ids) = ids := by
  cases ids with
  | nil => rfl
  | cons i rest =>
    have hsplit : (listed (i :: rest)).splitOn ',' =
        (i :: rest).map fun k => (toString k).toList := by
      refine List.splitOn_intercalate ',' (fun digits hdigits hcomma => ?_) (List.cons_ne_nil _ _)
      obtain ⟨k, -, rfl⟩ := List.mem_map.mp hdigits
      rcases mem_toString hcomma with hsign | hdigit
      · exact absurd hsign (by decide)
      · exact absurd hdigit (by decide)
    have hsome : (listed (i :: rest)).isEmpty = false := by
      refine List.isEmpty_eq_false_iff.mpr fun hnil => toString_ne_nil i ?_
      rw [hnil, List.splitOn_nil] at hsplit
      exact (List.cons.inj hsplit).1.symm
    rw [wholes, hsome, if_neg Bool.false_ne_true, hsplit, List.map_map]
    exact List.map_id'' whole_toString _

/-- A list is read up to its bracket. -/
theorem ids?_listed (ids : List Int) (rest : List Char) :
    ids? (listed ids ++ ']' :: rest) = some (ids, rest) := by
  have hplain : ∀ c ∈ listed ids, decide (c ≠ ']') = true := by
    intro c hc
    rcases mem_listed hc with rfl | rfl | hdigit
    · decide
    · decide
    · refine decide_eq_true ?_
      rintro rfl
      exact absurd hdigit (by decide)
  have hinside : (listed ids ++ ']' :: rest).takeWhile (· ≠ ']') = listed ids := by
    rw [List.takeWhile_append_of_pos hplain]
    simp
  have hafter : (listed ids ++ ']' :: rest).dropWhile (· ≠ ']') = ']' :: rest := by
    rw [List.dropWhile_append_of_pos hplain]
    simp
  have hrest : after? "]" (']' :: rest) = some rest := after?_append "]" rest
  rw [ids?, hinside, hafter, hrest, Option.map_some, wholes_listed]

theorem bare_sidesText (chosen notChosen : List Int) : bare (sidesText chosen notChosen) =
    "\x7b\"chosen\":[".toList ++ (listed chosen ++ ']' ::
      (",\"not_chosen\":[".toList ++ (listed notChosen ++ ']' :: ['\x7d']))) := by
  have hchosen : bare "\x7b\n  \"chosen\": " ++ ['['] = "\x7b\"chosen\":[".toList := by decide
  have hnotChosen : bare ",\n  \"not_chosen\": " ++ ['['] = ",\"not_chosen\":[".toList := by decide
  have hend : bare "\n\x7d" = ['\x7d'] := by decide
  rw [← hchosen, ← hnotChosen]
  simp [sidesText, bare_sideText, hend]

/-- **What is printed tells the division.** -/
theorem sides?_divisionText {chosen notChosen : List Int} {text : String}
    (h : divisionText (.list (chosen.map .int)) (.list (notChosen.map .int)) = .ok text) :
    sides? text = some (chosen, notChosen) := by
  rw [divisionText_ints] at h
  obtain rfl := Except.ok.inj h
  rw [sides?, bare_sidesText, after?_append]
  simp only [Option.bind_eq_bind, Option.bind_some, ids?_listed, after?_append]
  rfl

/-- A text that names no sides shows none. -/
example : sides? "\x7b\x7d" = none := by decide

end Command.Drawing

end Campaign
