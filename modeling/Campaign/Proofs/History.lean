import Campaign.Client

/-!
# What a journal tells

A journal is a history, the latest event first.  This file reads off it what the theorems on runs
speak about: for each address, the nonce from which it was last tracked (`base?`), the extrinsics
that the node has taken from it (`accepted`), and how many operations of the node there had been
when it was last tracked (`trackedAt?`).

`Each P h` says that every event of `h` is in the relation `P` to what came before it, and
`Unattempted a h` that nothing has been signed or handed in from `a`.
-/

namespace Campaign

variable {τ : Type}

/-- The events of a run, the latest first. -/
abbrev History (τ : Type) := List (Event τ)

namespace Event

/-- The extrinsic that an event signs or hands in. -/
def attempt? : Event τ → Option Extrinsic
  | .signed e _ => some e
  | .submitted e _ => some e
  | _ => none

/-- The extrinsic that the node has taken. -/
def accepted? : Event τ → Option Extrinsic
  | .submitted e (.ok _) => some e
  | _ => none

/-- The address that is tracked from here on, with the nonce it is tracked from. -/
def tracked? : Event τ → Option (String × Int)
  | .noticed (.nonceRead (.text a) v) => some (a, v)
  | _ => none

/-- The role under which an extrinsic is announced. -/
def sender? : Event τ → Option Value
  | .noticed (.sending role _ _) => some role
  | _ => none

/-- Whether an event is an operation of the node. -/
def isOperation : Event τ → Bool
  | .queried _ _ _ _ | .mapQueried _ _ _ _ | .composed _ _ _ _ => true
  | .signed _ _ | .submitted _ _ => true
  | _ => false

/-- Whether an event hands an extrinsic in. -/
def isHandIn : Event τ → Bool
  | .submitted _ _ => true
  | _ => false

/-- A look at the nonce of an address on chain. -/
def look (a : String) (answer : Except Fault (Option Value)) : Event τ :=
  .queried "System" "Account" (.list [.text a]) answer

theorem accepted?_of_attempt? {x : Event τ} (h : x.attempt? = none) : x.accepted? = none := by
  cases x <;> first | rfl | cases h

theorem tracked?_of_attempt? {x : Event τ} {e : Extrinsic} (h : x.attempt? = some e) :
    x.tracked? = none := by
  cases x <;> first | rfl | cases h

theorem attempt?_of_accepted? {x : Event τ} {e : Extrinsic} (h : x.accepted? = some e) :
    x.attempt? = some e := by
  cases x with
  | submitted f answer =>
    cases answer with
    | ok hash => exact h
    | error fault => cases h
  | _ => cases h

end Event

/-- A notice that neither announces an extrinsic nor tracks an account. -/
def Notice.IsPlain (n : Notice τ) : Prop :=
  (Event.noticed n).sender? = none ∧ (Event.noticed n).tracked? = none

namespace History

/-- The extrinsics taken from an address, in order. -/
def accepted (a : String) : History τ → List Extrinsic
  | [] => []
  | x :: earlier =>
    match x.accepted? with
    | some e => if e.address = a then accepted a earlier ++ [e] else accepted a earlier
    | none => accepted a earlier

/-- The nonce that an address was last tracked from. -/
def base? (a : String) : History τ → Option Int
  | [] => none
  | x :: earlier =>
    match x.tracked? with
    | some (b, v) => if b = a then some v else base? a earlier
    | none => base? a earlier

/-- How many operations of the node there have been. -/
def operations (h : History τ) : Nat := h.countP Event.isOperation

/-- How many operations of the node there had been when an address was last tracked. -/
def trackedAt? (a : String) : History τ → Option Nat
  | [] => none
  | x :: earlier =>
    match x.tracked? with
    | some (b, _) => if b = a then some (operations earlier) else trackedAt? a earlier
    | none => trackedAt? a earlier

/-- Nothing has been signed or handed in from an address. -/
def Unattempted (a : String) (h : History τ) : Prop :=
  ∀ x ∈ h, ∀ e, x.attempt? = some e → e.address ≠ a

/-- Every event stands in a relation to what came before it. -/
def Each (P : Event τ → History τ → Prop) (h : History τ) : Prop :=
  ∀ later x earlier, h = later ++ x :: earlier → P x earlier

/-! ### One event more -/

section

variable {a : String} {x : Event τ} {h : History τ}

theorem accepted_cons_of_none (hx : x.accepted? = none) : accepted a (x :: h) = accepted a h := by
  rw [accepted, hx]

theorem accepted_cons_of_some {e : Extrinsic} (hx : x.accepted? = some e) :
    accepted a (x :: h) = if e.address = a then accepted a h ++ [e] else accepted a h := by
  rw [accepted, hx]

theorem base?_cons_of_none (hx : x.tracked? = none) : base? a (x :: h) = base? a h := by
  rw [base?, hx]

theorem base?_cons_of_some {b : String} {v : Int} (hx : x.tracked? = some (b, v)) :
    base? a (x :: h) = if b = a then some v else base? a h := by
  rw [base?, hx]

theorem trackedAt?_cons_of_none (hx : x.tracked? = none) :
    trackedAt? a (x :: h) = trackedAt? a h := by
  rw [trackedAt?, hx]

theorem trackedAt?_cons_of_some {b : String} {v : Int} (hx : x.tracked? = some (b, v)) :
    trackedAt? a (x :: h) = if b = a then some (operations h) else trackedAt? a h := by
  rw [trackedAt?, hx]

theorem operations_cons : operations (x :: h) = operations h + if x.isOperation then 1 else 0 := by
  rw [operations, List.countP_cons, operations]

theorem unattempted_nil : Unattempted a ([] : History τ) := fun _ hx => absurd hx (by simp)

theorem unattempted_cons :
    Unattempted a (x :: h) ↔ (∀ e, x.attempt? = some e → e.address ≠ a) ∧ Unattempted a h := by
  simp only [Unattempted, List.mem_cons, forall_eq_or_imp]

theorem unattempted_cons_of_none (hx : x.attempt? = none) :
    Unattempted a (x :: h) ↔ Unattempted a h := by
  simp [unattempted_cons, hx]

theorem each_nil {P : Event τ → History τ → Prop} : Each P [] := by
  intro later x earlier h
  cases later <;> cases h

theorem each_cons {P : Event τ → History τ → Prop} : Each P (x :: h) ↔ P x h ∧ Each P h := by
  constructor
  · intro hall
    refine ⟨hall [] x h rfl, fun later y earlier heq => hall (x :: later) y earlier ?_⟩
    rw [heq]
    rfl
  · rintro ⟨hx, hall⟩ later y earlier heq
    cases later with
    | nil =>
      cases heq
      exact hx
    | cons z later =>
      obtain ⟨-, heq⟩ := List.cons.inj heq
      exact hall later y earlier heq

end

/-! ### Facts about whole histories -/

theorem base?_append {a : String} {new h : History τ} (hnew : ∀ x ∈ new, x.tracked? = none) :
    base? a (new ++ h) = base? a h := by
  induction new with
  | nil => rfl
  | cons x new ih =>
    rw [List.cons_append, base?_cons_of_none (hnew x (by simp)),
      ih fun y hy => hnew y (by simp [hy])]

theorem accepted_append {a : String} {new h : History τ} (hnew : ∀ x ∈ new, x.accepted? = none) :
    accepted a (new ++ h) = accepted a h := by
  induction new with
  | nil => rfl
  | cons x new ih =>
    rw [List.cons_append, accepted_cons_of_none (hnew x (by simp)),
      ih fun y hy => hnew y (by simp [hy])]

/-- Nothing is taken from an address that nothing was attempted from. -/
theorem accepted_of_unattempted {a : String} :
    ∀ {h : History τ}, Unattempted a h → accepted a h = [] := by
  intro h
  induction h with
  | nil => intro _; rfl
  | cons x h ih =>
    intro hu
    obtain ⟨hx, hu⟩ := unattempted_cons.mp hu
    cases hacc : x.accepted? with
    | none => rw [accepted_cons_of_none hacc, ih hu]
    | some e =>
      rw [accepted_cons_of_some hacc, if_neg (hx e (Event.attempt?_of_accepted? hacc)), ih hu]

end History

end Campaign
