import Campaign.Act
import Mathlib.Order.Defs.Unbundled

/-!
# What an action does, part by part

`Act.runOn` gives the outcome of an action together with the state it leaves.  The first part of
this file says what `runOn` is for each way of building actions, and takes a sequence apart:
`bind_cases` for any end, `ok_of_bind` for a good one.

The second part is about what holds of an action however it ends.  `Keeps R act` says that the state
before and the state after are always related by `R`.  For a preorder `R` this passes from the parts
of an action to the whole, so a frame condition or an invariant needs proof for the smallest actions
only.
-/

namespace Campaign.Act

variable {σ ρ α β : Type}

/-! ### Outcome and state -/

@[simp] theorem runOn_pure (a : α) (s : σ) : (pure a : Act σ α).runOn s = (.ok a, s) := rfl

@[simp] theorem runOn_throw (f : Fault) (s : σ) : (throw f : Act σ α).runOn s = (.error f, s) := rfl

@[simp] theorem runOn_get (s : σ) : (get : Act σ σ).runOn s = (.ok s, s) := rfl

@[simp] theorem runOn_modify (g : σ → σ) (s : σ) :
    (modify g : Act σ Unit).runOn s = (.ok (), g s) := rfl

@[simp] theorem runOn_ofExcept (r : Except Fault α) (s : σ) :
    (ofExcept r : Act σ α).runOn s = (r, s) := by
  cases r <;> rfl

theorem runOn_bind (act : Act σ α) (next : α → Act σ β) (s : σ) :
    (act >>= next).runOn s =
      match act.runOn s with
      | (.ok a, t) => (next a).runOn t
      | (.error f, t) => (.error f, t) := by
  simp only [runOn, bind, EStateM.bind]
  cases act s <;> rfl

theorem runOn_bind_ok {act : Act σ α} {next : α → Act σ β} {s t : σ} {a : α}
    (h : act.runOn s = (.ok a, t)) : (act >>= next).runOn s = (next a).runOn t := by
  rw [runOn_bind, h]

theorem runOn_bind_error {act : Act σ α} {next : α → Act σ β} {s t : σ} {f : Fault}
    (h : act.runOn s = (.error f, t)) : (act >>= next).runOn s = (.error f, t) := by
  rw [runOn_bind, h]

/-- A sequence ends as its second part does, or fails in its first. -/
theorem bind_cases {act : Act σ α} {next : α → Act σ β} {s t : σ} {out : Except Fault β}
    (h : (act >>= next).runOn s = (out, t)) :
    (∃ a m, act.runOn s = (.ok a, m) ∧ (next a).runOn m = (out, t)) ∨
      ∃ f, act.runOn s = (.error f, t) ∧ out = .error f := by
  rw [runOn_bind] at h
  rcases hact : act.runOn s with ⟨f | a, m⟩
  · rw [hact] at h
    exact Or.inr ⟨f, by rw [(Prod.mk.inj h).2], (Prod.mk.inj h).1.symm⟩
  · rw [hact] at h
    exact Or.inl ⟨a, m, rfl, h⟩

/-- A sequence that ends well has gone well through both its parts. -/
theorem ok_of_bind {act : Act σ α} {next : α → Act σ β} {s t : σ} {b : β}
    (h : (act >>= next).runOn s = (.ok b, t)) :
    ∃ a m, act.runOn s = (.ok a, m) ∧ (next a).runOn m = (.ok b, t) := by
  rcases bind_cases h with hok | ⟨f, -, hf⟩
  · exact hok
  · cases hf

/-! ### Outcomes in sequence -/

section

variable {ε ε' : Type} {r : Except ε α}

theorem outcome_bind_ok {next : α → Except ε β} {b : β} :
    r >>= next = .ok b ↔ ∃ a, r = .ok a ∧ next a = .ok b := by
  cases r <;> simp [bind, Except.bind]

theorem outcome_map_ok {g : α → β} {b : β} : r.map g = .ok b ↔ ∃ a, r = .ok a ∧ g a = b := by
  cases r <;> simp [Except.map]

theorem exists_of_any {p : α → Bool} (h : r.toOption.any p = true) :
    ∃ a, r = .ok a ∧ p a = true := by
  cases r with
  | error e => cases h
  | ok a => exact ⟨a, rfl, h⟩

@[simp] theorem mapError_ok (g : ε → ε') (a : α) : (.ok a : Except ε α).mapError g = .ok a := rfl

@[simp] theorem mapError_error (g : ε → ε') (e : ε) :
    (.error e : Except ε α).mapError g = .error (g e) := rfl

theorem outcome_mapError_ok {g : ε → ε'} {a : α} : r.mapError g = .ok a ↔ r = .ok a := by
  cases r <;> simp

end

/-! ### What holds however an action ends -/

/-- The states before and after an action are related, whatever the action ends with. -/
def Keeps (R : σ → σ → Prop) (act : Act σ α) : Prop := ∀ s, R s (act.runOn s).2

theorem Keeps.of_runOn {R : σ → σ → Prop} {act : Act σ α} (h : Keeps R act) {s t : σ}
    {out : Except Fault α} (hrun : act.runOn s = (out, t)) : R s t := by
  have := h s
  rwa [hrun] at this

theorem keeps_of {R : σ → σ → Prop} {act : Act σ α}
    (h : ∀ s t out, act.runOn s = (out, t) → R s t) : Keeps R act := fun s => h s _ _ rfl

theorem keeps_ite {R : σ → σ → Prop} {p : Prop} [Decidable p] {yes no : Act σ α}
    (hyes : Keeps R yes) (hno : Keeps R no) : Keeps R (if p then yes else no) := by
  split
  · exact hyes
  · exact hno

theorem keeps_attempt {R : σ → σ → Prop} {act : Act σ α} (h : Keeps R act) :
    Keeps R act.attempt := fun s => by
  rw [runOn_attempt]
  exact h s

section

variable {R : σ → σ → Prop} [IsPreorder σ R]

theorem keeps_pure (a : α) : Keeps R (pure a : Act σ α) := fun s => refl_of R s

theorem keeps_throw (f : Fault) : Keeps R (throw f : Act σ α) := fun s => refl_of R s

theorem keeps_get : Keeps R (get : Act σ σ) := fun s => refl_of R s

theorem keeps_ofExcept (r : Except Fault α) : Keeps R (ofExcept r : Act σ α) := fun s => by
  rw [runOn_ofExcept]
  exact refl_of R s

theorem keeps_bind {act : Act σ α} {next : α → Act σ β} (h : Keeps R act)
    (hnext : ∀ a, Keeps R (next a)) : Keeps R (act >>= next) := by
  intro s
  rcases hrun : (act >>= next).runOn s with ⟨out, t⟩
  rcases bind_cases hrun with ⟨a, m, ha, hn⟩ | ⟨f, hf, -⟩
  · exact trans_of R (h.of_runOn ha) ((hnext a).of_runOn hn)
  · exact h.of_runOn hf

end

/-- What an action on a part keeps of the part, it keeps of the whole. -/
theorem keeps_within {R : σ → σ → Prop} {get : σ → ρ} {put : ρ → σ → σ} {act : Act ρ α}
    (h : ∀ s, R s (put (act.runOn (get s)).2 s)) : Keeps R (within get put act) := fun s => by
  rw [runOn_within]
  exact h s

end Campaign.Act
