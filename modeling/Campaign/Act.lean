import Campaign.Fault

/-!
# Actions

An action works on a state and ends with a result or a fault; what it did to the state before a
fault stays done. `Act.within` lets an action on a part of a state work on the whole: it changes
that part alone.
-/

namespace Campaign

/-- An action on a state. -/
abbrev Act (σ α : Type) := EStateM Fault σ α

namespace Act

variable {σ ρ α : Type}

/-- An action that only has an outcome. -/
def ofExcept : Except Fault α → Act σ α
  | .ok a => pure a
  | .error f => throw f

/-- An action on a part of a state. -/
def within (get : σ → ρ) (put : ρ → σ → σ) (act : Act ρ α) : Act σ α := fun s =>
  match act (get s) with
  | .ok a r => .ok a (put r s)
  | .error f r => .error f (put r s)

/-- The outcome of an action, which itself never fails. -/
def attempt (act : Act σ α) : Act σ (Except Fault α) := fun s =>
  match act s with
  | .ok a s => .ok (.ok a) s
  | .error f s => .ok (.error f) s

/-- An action with its outcome and the state it leaves. -/
def runOn (act : Act σ α) (s : σ) : Except Fault α × σ :=
  match act s with
  | .ok a s => (.ok a, s)
  | .error f s => (.error f, s)

/-- What `within` does to the whole is what the action does to the part. -/
theorem runOn_within (get : σ → ρ) (put : ρ → σ → σ) (act : Act ρ α) (s : σ) :
    (within get put act).runOn s = ((act.runOn (get s)).1, put (act.runOn (get s)).2 s) := by
  simp only [runOn, within]
  cases act (get s) <;> rfl

theorem runOn_attempt (act : Act σ α) (s : σ) :
    act.attempt.runOn s = (.ok (act.runOn s).1, (act.runOn s).2) := by
  simp only [runOn, attempt]
  cases act s <;> rfl

end Act

end Campaign
