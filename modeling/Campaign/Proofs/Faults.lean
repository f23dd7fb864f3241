import Campaign.Command.Drawing
import Campaign.Command.Transact
import Campaign.Proofs.Action

/-!
# What a program works out fails with errors

What a program works out by itself can fail, but it neither interrupts nor exits: that comes from
outside, from a node, a keyring or the clock.  `FailsAs P r` says that a computation fails with
faults of a kind only.

`Sort.byRuns` calls a comparison in many places and has no faults of its own, so it fails as the
comparison does (`Sort.failsAs_byRuns`).  The rest is read off the computations: settings are loaded
(`Settings.errs_load`), roles are put in order (`Transact.errs_rolesFor`), ids are divided, shown
and made into a phase (`Draw.errs_split`, `Drawing.errs_divisionText`, `Plan.errs_drawing`).
-/

namespace Campaign

variable {α β ε : Type}

/-- A computation fails with faults of a kind only. -/
def FailsAs (P : ε → Prop) (r : Except ε α) : Prop := ∀ e, r = .error e → P e

section

variable {P : ε → Prop} {r : Except ε α}

theorem failsAs_ok (a : α) : FailsAs P (.ok a : Except ε α) := nofun

theorem failsAs_pure (a : α) : FailsAs P (pure a : Except ε α) := nofun

theorem failsAs_error {e : ε} (h : P e) : FailsAs P (.error e : Except ε α) :=
  fun _ he => Except.error.inj he ▸ h

theorem failsAs_bind {next : α → Except ε β} (h : FailsAs P r)
    (hnext : ∀ a, FailsAs P (next a)) : FailsAs P (r >>= next) := by
  intro e he
  cases r with
  | error e' => exact Except.error.inj he ▸ h e' rfl
  | ok a => exact hnext a e he

theorem failsAs_map (h : FailsAs P r) (g : α → β) : FailsAs P (r.map g) := by
  intro e he
  cases r with
  | error e' => exact Except.error.inj he ▸ h e' rfl
  | ok a => cases he

theorem failsAs_ite {p : Prop} [Decidable p] {yes no : Except ε α} (hyes : FailsAs P yes)
    (hno : FailsAs P no) : FailsAs P (if p then yes else no) := by
  split
  · exact hyes
  · exact hno

end

end Campaign

/-! ### Sorting by runs -/

namespace Campaign.Sort

variable {α ε : Type} {P : ε → Prop}

section

variable {goes : α → Except ε Bool} (hgoes : ∀ x, FailsAs P (goes x))
include hgoes

theorem failsAs_goesAt (xs : Array α) (i : Nat) : FailsAs P (goesAt goes xs i) := by
  rw [goesAt]
  split
  · exact hgoes _
  · exact failsAs_ok _

theorem failsAs_halve (xs : Array α) (low high : Nat) : FailsAs P (halve goes xs low high) := by
  have hmiddle := failsAs_goesAt hgoes xs (low + (high - low) / 2)
  fun_induction halve goes xs low high with
  | case1 low high hlt middle e he => exact failsAs_error (hmiddle e he)
  | case2 low high hlt middle hgo ih => exact ih (failsAs_goesAt hgoes xs _)
  | case3 low high hlt middle hgo ih => exact ih (failsAs_goesAt hgoes xs _)
  | case4 low high hlt => exact failsAs_ok _

omit hgoes in
theorem failsAs_leap {ahead : Nat → Except ε Bool} (hahead : ∀ i, FailsAs P (ahead i))
    (most : Nat) : ∀ fuel last next, FailsAs P (leap ahead most fuel last next)
  | 0, _, _ => failsAs_ok _
  | fuel + 1, last, next => by
    rw [leap]
    split
    · split
      · rename_i e he
        exact failsAs_error (hahead next e he)
      · exact failsAs_leap hahead most fuel _ _
      · exact failsAs_ok _
    · exact failsAs_ok _

theorem failsAs_count (xs : Array α) (start : Nat) : FailsAs P (count goes xs start) := by
  refine failsAs_bind (failsAs_goesAt hgoes xs start) fun goesOn => failsAs_ite ?_ ?_
  · refine failsAs_bind (failsAs_leap (fun _ => failsAs_goesAt hgoes xs _) _ _ _ _) ?_
    exact fun _ => failsAs_halve hgoes xs _ _
  · refine failsAs_bind (failsAs_leap
      (fun _ => failsAs_map (failsAs_goesAt hgoes xs _) _) _ _ _ _) ?_
    exact fun _ => failsAs_halve hgoes xs _ _

end

variable {before : α → α → Except ε Bool} (hbefore : ∀ a b, FailsAs P (before a b))
include hbefore

namespace Merging

theorem failsAs_firstAhead (side : Side) (m : Merging α) :
    FailsAs P (m.firstAhead before side) := by
  unfold firstAhead
  split
  · exact failsAs_pure _
  · refine failsAs_bind (failsAs_count (fun x => failsAs_map (hbefore _ x) _) _ _) fun k => ?_
    exact failsAs_pure _

theorem failsAs_secondAhead (side : Side) (m : Merging α) :
    FailsAs P (m.secondAhead before side) := by
  unfold secondAhead
  split
  · exact failsAs_pure _
  · exact failsAs_bind (failsAs_count (fun y => hbefore y _) _ _) fun k => failsAs_pure _

theorem failsAs_secondFirst (side : Side) (m : Merging α) :
    FailsAs P (m.secondFirst before side) := by
  unfold secondFirst
  split
  · exact hbefore _ _
  · exact failsAs_ok _

theorem failsAs_finish (side : Side) : ∀ fuel leaping won (m : Merging α),
    FailsAs P (m.finish before side fuel leaping won)
  | 0, _, _, _ => by
    rw [finish]
    exact failsAs_ok _
  | fuel + 1, false, won, m => by
    have ih := failsAs_finish side fuel
    rw [finish]
    refine failsAs_ite (failsAs_pure _) ?_
    refine failsAs_bind (failsAs_secondFirst hbefore side m) fun second => ?_
    exact failsAs_ite (failsAs_pure _) (failsAs_ite (ih _ _ _) (ih _ _ _))
  | fuel + 1, true, won, m => by
    have ih := failsAs_finish side fuel
    rw [finish]
    refine failsAs_ite (failsAs_pure _) ?_
    refine failsAs_bind (failsAs_firstAhead hbefore side _) fun k => ?_
    refine failsAs_ite (failsAs_pure _) (failsAs_ite (failsAs_pure _) ?_)
    refine failsAs_bind (failsAs_secondAhead hbefore side _) fun l => ?_
    refine failsAs_ite (failsAs_pure _) (failsAs_ite (failsAs_pure _) ?_)
    exact failsAs_ite (ih _ _ _) (ih _ _ _)

end Merging

theorem failsAs_merge (patience : Nat) (first second : Array α) :
    FailsAs P (merge before patience first second) := by
  unfold merge
  split
  · refine failsAs_bind (failsAs_count (fun x => failsAs_map (hbefore _ x) _) _ _) fun k => ?_
    refine failsAs_ite (failsAs_pure _) ?_
    refine failsAs_bind (failsAs_count (fun y => hbefore y _) _ _) fun l => ?_
    refine failsAs_ite (failsAs_pure _) ?_
    exact failsAs_bind (Merging.failsAs_finish hbefore _ _ _ _ _) fun m => failsAs_pure _
  · exact failsAs_pure _

theorem failsAs_sameWay (down : Bool) : ∀ (xs : List α) (last : α),
    FailsAs P (sameWay before down last xs)
  | [], _ => failsAs_ok _
  | x :: rest, last => by
    refine failsAs_bind (hbefore x last) fun b => failsAs_ite ?_ (failsAs_pure _)
    exact failsAs_bind (failsAs_sameWay down rest x) fun _ => failsAs_pure _

theorem failsAs_headRun : ∀ xs : List α, FailsAs P (headRun before xs)
  | [] => failsAs_ok _
  | [_] => failsAs_ok _
  | a :: b :: rest => failsAs_bind (hbefore b a) fun _ =>
      failsAs_bind (failsAs_sameWay hbefore _ rest b) fun _ => failsAs_pure _

theorem failsAs_insertAll : ∀ (xs : List α) (run : Array α), FailsAs P (insertAll before run xs)
  | [], _ => failsAs_ok _
  | x :: rest, run => by
    refine failsAs_bind ?_ fun _ => failsAs_insertAll rest _
    exact failsAs_halve (fun y => failsAs_map (hbefore x y) _) _ _ _

theorem failsAs_nextRun (least : Nat) (xs : List α) : FailsAs P (nextRun before least xs) :=
  failsAs_bind (failsAs_headRun hbefore xs) fun _ =>
    failsAs_bind (failsAs_insertAll hbefore _ _) fun _ => failsAs_pure _

namespace Pending

theorem failsAs_mergeLast (p : Pending α) : FailsAs P (mergeLast before p) := by
  unfold mergeLast
  split
  · exact failsAs_bind (failsAs_merge hbefore _ _ _) fun _ => failsAs_pure _
  · exact failsAs_ok _

theorem failsAs_mergeBelow (p : Pending α) : FailsAs P (mergeBelow before p) := by
  unfold mergeBelow
  split
  · exact failsAs_bind (failsAs_merge hbefore _ _ _) fun _ => failsAs_pure _
  · exact failsAs_ok _

theorem failsAs_close (d : Nat) : ∀ fuel (p : Pending α), FailsAs P (close before d fuel p)
  | 0, _ => failsAs_ok _
  | fuel + 1, p => by
    rw [close]
    split
    · refine failsAs_ite ?_ (failsAs_ok _)
      exact failsAs_bind (failsAs_mergeLast hbefore p) fun _ => failsAs_close d fuel _
    · exact failsAs_ok _

theorem failsAs_push (n : Nat) (run : Array α) (p : Pending α) :
    FailsAs P (push before n run p) := by
  unfold push
  split
  · exact failsAs_ok _
  · exact failsAs_bind (failsAs_close hbefore _ _ _) fun _ => failsAs_pure _

theorem failsAs_collapse : ∀ fuel (p : Pending α), FailsAs P (collapse before fuel p)
  | 0, _ => failsAs_ok _
  | fuel + 1, p => by
    rw [collapse]
    split
    · exact failsAs_ok _
    · exact failsAs_ok _
    · refine failsAs_ite ?_ ?_
      · exact failsAs_bind (failsAs_mergeBelow hbefore p) fun _ => failsAs_collapse fuel _
      · exact failsAs_bind (failsAs_mergeLast hbefore p) fun _ => failsAs_collapse fuel _
    · exact failsAs_bind (failsAs_mergeLast hbefore p) fun _ => failsAs_collapse fuel _

end Pending

theorem failsAs_allRuns (n least : Nat) : ∀ fuel (p : Pending α) (xs : List α),
    FailsAs P (allRuns before n least fuel p xs)
  | fuel, p, [] => by
    rw [allRuns]
    exact Pending.failsAs_collapse hbefore _ _
  | 0, p, x :: xs => by
    unfold allRuns
    exact Pending.failsAs_collapse hbefore _ _
  | fuel + 1, p, x :: xs => by
    rw [allRuns]
    refine failsAs_bind (failsAs_nextRun hbefore least _) fun _ => ?_
    exact failsAs_bind (Pending.failsAs_push hbefore n _ _) fun _ =>
      failsAs_allRuns n least fuel _ _

/-- **Sorting fails as its comparison does.** -/
theorem failsAs_byRuns (xs : List α) : FailsAs P (byRuns before xs) :=
  failsAs_map (failsAs_allRuns hbefore _ _ _ _ _) _

end Campaign.Sort

/-! ### What programs work out -/

namespace Campaign

/-- A computation fails with errors only. -/
abbrev Errs {α : Type} (r : Except Fault α) : Prop := FailsAs (fun f => f.isError = true) r

namespace Value

mutual

theorem errs_before (a b : Value) : Errs (before a b) := by
  unfold before
  split
  · exact failsAs_ok _
  · exact failsAs_ok _
  · exact errs_beforeItems _ _
  · exact errs_beforeItems _ _
  · split
    · exact failsAs_ok _
    · exact failsAs_error rfl

theorem errs_beforeItems (as bs : List Value) : Errs (beforeItems as bs) := by
  unfold beforeItems
  split
  · exact failsAs_ok _
  · exact failsAs_ok _
  · exact failsAs_ite (errs_beforeItems _ _) (errs_before _ _)

end

theorem errs_sort (vs : List Value) : Errs (sort vs) :=
  failsAs_ite (failsAs_ok _) (Sort.failsAs_byRuns errs_before vs)

theorem errs_keySet (vs : List Value) : Errs (keySet vs) := by
  rw [keySet]
  split
  · exact failsAs_error rfl
  · exact failsAs_ok _

theorem errs_items (v : Value) : Errs v.items := by
  cases v <;> first | exact failsAs_ok _ | exact failsAs_error rfl

namespace Json

theorem errs_key (v : Value) : Errs (key v) := by
  cases v <;> first | exact failsAs_ok _ | exact failsAs_error rfl

variable {bytesText : List UInt8 → Except Fault String}

mutual

theorem errs_render (hbytes : ∀ data, Errs (bytesText data)) (level : Nat) (v : Value) :
    Errs (render bytesText level v) := by
  cases v with
  | bytes data =>
    rw [render]
    exact hbytes data
  | list items | tuple items =>
    rw [render]
    exact failsAs_map (errs_renderItems hbytes _ items) _
  | dict entries =>
    rw [render]
    exact failsAs_map (errs_renderEntries hbytes _ entries) _
  | _ =>
    rw [render]
    exact failsAs_ok _

theorem errs_renderItems (hbytes : ∀ data, Errs (bytesText data)) (level : Nat)
    (vs : List Value) : Errs (renderItems bytesText level vs) := by
  cases vs with
  | nil =>
    rw [renderItems]
    exact failsAs_ok _
  | cons v rest =>
    rw [renderItems]
    exact failsAs_bind (errs_render hbytes _ v) fun _ =>
      failsAs_bind (errs_renderItems hbytes _ rest) fun _ => failsAs_pure _

theorem errs_renderEntries (hbytes : ∀ data, Errs (bytesText data)) (level : Nat)
    (es : List (Value × Value)) : Errs (renderEntries bytesText level es) := by
  cases es with
  | nil =>
    rw [renderEntries]
    exact failsAs_ok _
  | cons e rest =>
    rw [renderEntries]
    exact failsAs_bind (errs_key e.1) fun _ => failsAs_bind (errs_render hbytes _ e.2) fun _ =>
      failsAs_bind (errs_renderEntries hbytes _ rest) fun _ => failsAs_pure _

end

end Json

end Value

namespace Settings

theorem errs_addAll : ∀ (bs : List (String × Option String)) (env : Environment),
    ∀ f ∈ (env.addAll bs).2, f.isError = true
  | [], _ => by simp [Environment.addAll]
  | (_, none) :: rest, env => errs_addAll rest env
  | (name, some value) :: rest, env => by
    rw [Environment.addAll]
    split
    · exact errs_addAll rest env
    · split
      · rename_i f hf
        unfold Environment.refusal? at hf
        dsimp only at hf
        split at hf
        · cases hf
          simp [Fault.isError]
        · split at hf <;> cases hf
          simp [Fault.isError]
      · exact errs_addAll rest _

theorem errs_reading? (v : Value) : Errs (reading? v) := by
  unfold reading?
  split
  · exact failsAs_ok _
  · exact failsAs_ok _
  · split
    · exact failsAs_error rfl
    · split
      · exact failsAs_error rfl
      · exact failsAs_ok _

variable {τ : Type} [Seconds τ]

theorem errs_secondsOf (env : Table String Value) (name : String) (default : τ) :
    Errs (secondsOf env name default) := by
  unfold secondsOf
  split
  · exact failsAs_ok _
  · exact failsAs_ok _
  · refine failsAs_bind (errs_reading? _) fun r => ?_
    split
    · exact failsAs_pure _
    · exact failsAs_error rfl

theorem errs_upper (v : Value) : Errs (upper v) := by
  cases v <;> first | exact failsAs_ok _ | exact failsAs_error rfl

/-- **Settings that cannot be loaded are an error.** -/
theorem errs_load (env : Environment) (files : Files) (withFile : Bool) :
    Errs (load (τ := τ) env files withFile).2 := by
  have hread : ∀ env : Environment, Errs (ofEnvironment (τ := τ) env) := fun env =>
    failsAs_bind (errs_secondsOf _ _ _) fun _ => failsAs_bind (errs_secondsOf _ _ _) fun _ =>
      failsAs_bind (errs_upper _) fun _ => failsAs_pure _
  have hfile : ∀ f ∈ (env.load files).2, f.isError = true := by
    unfold Environment.load
    split
    · simp
    · split
      · simp
      · exact errs_addAll _ env
  unfold load
  cases withFile with
  | false => exact hread env
  | true =>
    dsimp only [if_true]
    split
    · rename_i f hf
      exact failsAs_error (hfile f hf)
    · exact hread _

end Settings

theorem Inquiry.errs_tableOf (entries : List (Value × Value)) : Errs (tableOf entries) := by
  rw [tableOf]
  split
  · exact failsAs_error rfl
  · exact failsAs_ok _

/-- **Ids that cannot be divided are an error.** -/
theorem Draw.errs_split (ids : List Value) (winners seed : Value) (entropy : List UInt32) :
    Errs (split ids winners seed entropy) := by
  have hseed : Errs (Seed.generator entropy seed) := by
    cases seed <;> first | exact failsAs_ok _ | exact failsAs_error rfl
  have hcount : ∀ n, Errs (winnerCount winners n) := by
    intro n
    unfold winnerCount
    split
    · exact failsAs_error rfl
    · refine failsAs_ite (failsAs_ok _) ?_
      split
      · exact failsAs_ok _
      · refine failsAs_error ?_
        split <;> rfl
  refine failsAs_bind (Value.errs_keySet ids) fun members => ?_
  refine failsAs_bind (Value.errs_sort members) fun pool => ?_
  refine failsAs_bind (Value.errs_before _ _) fun negative => failsAs_ite (failsAs_error rfl) ?_
  refine failsAs_bind hseed fun g => failsAs_bind (hcount _) fun count => ?_
  exact failsAs_bind (Value.errs_sort _) fun _ => failsAs_pure _

/-- **A phase that cannot be made is an error.** -/
theorem Plan.errs_drawing {τ : Type} (chosen notChosen : Value) (pallets : Pallets) :
    Errs (drawing (τ := τ) chosen notChosen pallets) := by
  refine failsAs_bind (Value.errs_items _) fun _ => failsAs_bind (Value.errs_keySet _) fun _ => ?_
  refine failsAs_bind (Value.errs_items _) fun _ => failsAs_bind (Value.errs_keySet _) fun _ => ?_
  refine failsAs_ite (failsAs_pure _) ?_
  exact failsAs_bind (Value.errs_sort _) fun _ => failsAs_error rfl

namespace Command

theorem Transact.errs_rolesFor (command : String) (role : Value) :
    Errs (rolesFor command role) :=
  failsAs_bind (Value.errs_keySet _) fun members => Value.errs_sort members

theorem Drawing.errs_divisionText (chosen notChosen : Value) :
    Errs (divisionText chosen notChosen) :=
  Value.Json.errs_render (fun _ => failsAs_error rfl) _ _

end Command

end Campaign
