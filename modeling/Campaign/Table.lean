/-!
# Tables

A table holds one value for each of its keys and remembers the order in which the keys came. A key
that is put again keeps its place and takes the new value: `get?_put` says what is then found, and
`keys_put` which keys there are.
-/

namespace Campaign

/-- Keys with their values, in order of first appearance. -/
structure Table (κ α : Type) where
  entries : List (κ × α) := []

namespace Table

variable {κ α : Type}

/-- The table without entries. -/
def empty : Table κ α := ⟨[]⟩

instance : Inhabited (Table κ α) := ⟨empty⟩

/-- The keys in order. -/
def keys (t : Table κ α) : List κ := t.entries.map (·.1)

/-- The table with each value put through a function. -/
def map {β : Type} (f : α → β) (t : Table κ α) : Table κ β :=
  ⟨t.entries.map fun e => (e.1, f e.2)⟩

section

variable [BEq κ]

/-- The value found under a key among some entries. -/
def find? (k : κ) : List (κ × α) → Option α
  | [] => none
  | (k', v) :: rest => if k' == k then some v else find? k rest

/-- The value of a key. -/
def get? (t : Table κ α) (k : κ) : Option α := find? k t.entries

/-- Whether a key has a value. -/
def has (t : Table κ α) (k : κ) : Bool := (t.get? k).isSome

/-- Entries with one more value: in the place of its key if that is there, else at the end. -/
def insert (k : κ) (v : α) : List (κ × α) → List (κ × α)
  | [] => [(k, v)]
  | (k', v') :: rest => if k' == k then (k', v) :: rest else (k', v') :: insert k v rest

/-- The table with a value for one key. -/
def put (t : Table κ α) (k : κ) (v : α) : Table κ α := ⟨insert k v t.entries⟩

/-- The table of some entries: of equal keys the first gives the place, the last the value. -/
def ofList (entries : List (κ × α)) : Table κ α :=
  entries.foldl (fun (t : Table κ α) (e : κ × α) => t.put e.1 e.2) empty

end

section

variable [BEq κ] [LawfulBEq κ]

theorem find?_insert_self (k : κ) (v : α) (es : List (κ × α)) :
    find? k (insert k v es) = some v := by
  induction es with
  | nil => simp [insert, find?]
  | cons e es ih =>
    obtain ⟨k', v'⟩ := e
    by_cases h : k' == k <;> simp [insert, find?, h, ih]

theorem find?_insert_ne {k j : κ} (v : α) (es : List (κ × α)) (h : k ≠ j) :
    find? j (insert k v es) = find? j es := by
  induction es with
  | nil => simp [insert, find?, h]
  | cons e es ih =>
    obtain ⟨k', v'⟩ := e
    by_cases hk : k' = k
    · subst hk
      simp [insert, find?, h]
    · have hk' : (k' == k) = false := by simpa using hk
      simp [insert, find?, hk', ih]

/-- The value put under a key is the one found there, and no other key notices. -/
theorem get?_put [DecidableEq κ] (t : Table κ α) (k j : κ) (v : α) :
    (t.put k v).get? j = if k = j then some v else t.get? j := by
  by_cases h : k = j
  · subst h
    simp [get?, put, find?_insert_self]
  · simp [get?, put, find?_insert_ne v t.entries h, h]

/-- A new key comes last; a known one adds none. -/
theorem keys_put [DecidableEq κ] (t : Table κ α) (k : κ) (v : α) :
    (t.put k v).keys = if k ∈ t.keys then t.keys else t.keys ++ [k] := by
  obtain ⟨es⟩ := t
  simp only [keys, put]
  induction es with
  | nil => simp [insert]
  | cons e es ih =>
    obtain ⟨k', v'⟩ := e
    by_cases hk : k' = k
    · simp [insert, hk]
    · have hk' : k ≠ k' := fun h => hk h.symm
      by_cases hm : k ∈ es.map (·.1) <;> simp_all [insert]

end

end Table

end Campaign
