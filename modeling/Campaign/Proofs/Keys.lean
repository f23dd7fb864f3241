import Campaign.Command.Basic
import Campaign.Proofs.Options

/-!
# Keys are loaded for all roles or for none

`loadAccount` looks up the secret of a role and derives its key.  `loadAccount_ok_iff` says when
there is one, and `blame_iff` what the fault is when there is none: a secret that is empty or bad
is blamed on the role, by name.

`loadAccounts` does this for roles in order.  It stops at the first that has no key
(`loadAccounts_error_iff`); else the roster has the roles that were asked for and no others, each
with its own key (`get?_loadAccounts`).  A single transaction asks for its signer and, if it needs
the overlord's signature, for the overlord (`Transact.rolesFor_text`).
-/

namespace Campaign.Command

open Act

variable {τ : Type} {ring : Keyring} {settings : Settings τ} {role : Value} {key : Key} {f : Fault}

/-! ### The key of one role -/

/-- A role has no key: its secret is empty, or no key can be derived from it. -/
def Lacks (ring : Keyring) (settings : Settings τ) (role : Value) : Prop :=
  ∃ secret, settings.secret role = .ok secret ∧
    (secret.truthy = false ∨ ∃ cause, ring.derive secret = .error cause)

/-- **Why a role has no key.**  It is fit to be no role at all, or its secret is empty, or a key
cannot be derived, which the secret is blamed for or not. -/
inductive Blame (ring : Keyring) (settings : Settings τ) (role : Value) : Fault → Prop
  | unhashable {type : String} (h : role.unhashable? = some type) :
      Blame ring settings role (.unhashable type)
  | empty {secret : Value} (hsecret : settings.secret role = .ok secret)
      (h : secret.truthy = false) : Blame ring settings role (.noKeyMaterial role.shown)
  | bad {secret : Value} {cause : Fault} (hsecret : settings.secret role = .ok secret)
      (h : secret.truthy = true) (hcause : ring.derive secret = .error cause)
      (hblames : Keyring.blamesSecret cause = true) :
      Blame ring settings role (.badKeyMaterial role.shown cause.message)
  | other {secret : Value} {cause : Fault} (hsecret : settings.secret role = .ok secret)
      (h : secret.truthy = true) (hcause : ring.derive secret = .error cause)
      (hblames : Keyring.blamesSecret cause = false) : Blame ring settings role cause

/-- What is no text has no secret. -/
theorem secret_of_not_text {secret : Value} (h : settings.secret role = .ok secret)
    (htext : role.text? = none) : secret = .null := by
  obtain ⟨_, -, h⟩ := outcome_bind_ok.mp h
  rw [htext] at h
  exact (Except.ok.inj h).symm

/-- **A role has a key** if it is a text, and one is derived from its own secret. -/
theorem loadAccount_ok_iff : loadAccount ring settings role = .ok key ↔
    ∃ r secret, role = .text r ∧ settings.secret role = .ok secret ∧ secret.truthy = true ∧
      ring.derive secret = .ok key := by
  constructor
  · intro h
    obtain ⟨secret, hsecret, h⟩ := outcome_bind_ok.mp h
    rw [Keyring.key] at h
    cases htruthy : secret.truthy with
    | false =>
      rw [htruthy] at h
      cases h
    | true =>
      rw [htruthy] at h
      cases htext : role.text? with
      | none =>
        rw [secret_of_not_text hsecret htext] at htruthy
        cases htruthy
      | some r =>
        cases hderive : ring.derive secret with
        | error cause => simp [hderive] at h
        | ok k =>
          obtain rfl : k = key := by simpa [hderive] using h
          cases role with
          | text r' => exact ⟨r', secret, rfl, hsecret, htruthy, hderive⟩
          | _ => cases htext
  · rintro ⟨r, secret, rfl, hsecret, htruthy, hderive⟩
    rw [loadAccount, outcome_bind_ok]
    exact ⟨secret, hsecret, by simp [Keyring.key, htruthy, hderive]⟩

/-- **The fault of a role without key**. -/
theorem blame_iff : loadAccount ring settings role = .error f ↔ Blame ring settings role f := by
  constructor
  · intro h
    cases hhash : role.unhashable? with
    | some type =>
      have hkeyable : settings.secret role = .error (.unhashable type) := by
        simp [Settings.secret, Value.keyable, hhash, bind, Except.bind]
      rw [loadAccount, hkeyable] at h
      obtain rfl := Except.error.inj h
      exact .unhashable hhash
    | none =>
      obtain ⟨secret, hsecret⟩ : ∃ secret, settings.secret role = .ok secret := by
        simp [Settings.secret, Value.keyable, hhash, bind, Except.bind, pure, Except.pure]
      rw [loadAccount, hsecret] at h
      change ring.key secret role = .error f at h
      rw [Keyring.key] at h
      cases htruthy : secret.truthy with
      | false =>
        rw [htruthy] at h
        obtain rfl := Except.error.inj h
        exact .empty hsecret htruthy
      | true =>
        rw [htruthy] at h
        cases hcause : ring.derive secret with
        | ok k => simp [hcause] at h
        | error cause =>
          cases hblames : Keyring.blamesSecret cause with
          | true =>
            obtain rfl : Fault.badKeyMaterial role.shown cause.message = f := by
              simpa [hcause, hblames] using h
            exact .bad hsecret htruthy hcause hblames
          | false =>
            obtain rfl : cause = f := by simpa [hcause, hblames] using h
            exact .other hsecret htruthy hcause hblames
  · intro h
    cases h with
    | unhashable h =>
      simp [loadAccount, Settings.secret, Value.keyable, h, bind, Except.bind]
    | empty hsecret h =>
      rw [loadAccount, hsecret]
      simp [Keyring.key, h, bind, Except.bind]
    | bad hsecret h hcause hblames =>
      rw [loadAccount, hsecret]
      simp [Keyring.key, h, hcause, hblames, bind, Except.bind]
    | other hsecret h hcause hblames =>
      rw [loadAccount, hsecret]
      simp [Keyring.key, h, hcause, hblames, bind, Except.bind]

theorem Lacks.not_ok (h : Lacks ring settings role) : loadAccount ring settings role ≠ .ok key := by
  intro hok
  obtain ⟨secret, hsecret, hlacks⟩ := h
  obtain ⟨r, secret', -, hsecret', htruthy, hderive⟩ := loadAccount_ok_iff.mp hok
  obtain rfl : secret = secret' := Except.ok.inj (hsecret.symm.trans hsecret')
  rcases hlacks with hempty | ⟨cause, hcause⟩
  · rw [hempty] at htruthy
    cases htruthy
  · rw [hcause] at hderive
    cases hderive

/-- The fault of a role without key is an error, unless the keyring says otherwise. -/
theorem Blame.isError_or (h : Blame ring settings role f) : f.isError = true ∨
    ∃ secret, settings.secret role = .ok secret ∧ secret.truthy = true ∧
      ring.derive secret = .error f := by
  cases h with
  | unhashable | empty | bad => exact Or.inl rfl
  | other hsecret h hcause => exact Or.inr ⟨_, hsecret, h, hcause⟩

/-! ### The keys of some roles -/

/-- Keys of some roles, put onto a roster. -/
def loadOnto (ring : Keyring) (settings : Settings τ) (loaded : Roster) (roles : List Value) :
    Except Fault Roster :=
  roles.foldlM (fun (loaded : Roster) role => do
    return loaded.put role.shown (← loadAccount ring settings role)) loaded

theorem loadAccounts_eq (roles : List Value) :
    loadAccounts ring settings roles = loadOnto ring settings .empty roles := rfl

theorem loadOnto_cons (loaded : Roster) (role : Value) (rest : List Value) :
    loadOnto ring settings loaded (role :: rest) =
      match loadAccount ring settings role with
      | .error f => .error f
      | .ok key => loadOnto ring settings (loaded.put role.shown key) rest := by
  rw [loadOnto, List.foldlM_cons]
  cases loadAccount ring settings role <;> rfl

theorem loadOnto_error_iff : ∀ {roles : List Value} {loaded : Roster},
    loadOnto ring settings loaded roles = .error f ↔ ∃ before role after,
      roles = before ++ role :: after ∧
        (∀ r ∈ before, ∃ key, loadAccount ring settings r = .ok key) ∧
          loadAccount ring settings role = .error f
  | [], loaded => by simp [loadOnto, pure, Except.pure]
  | role :: rest, loaded => by
    rw [loadOnto_cons]
    cases hrole : loadAccount ring settings role with
    | error g =>
      constructor
      · rintro ⟨rfl⟩
        exact ⟨[], role, rest, rfl, by simp, hrole⟩
      · rintro ⟨before, r, after, hroles, hbefore, hr⟩
        rcases List.cons_eq_append_iff.mp hroles with ⟨rfl, hrest⟩ | ⟨before', rfl, -⟩
        · obtain ⟨rfl, rfl⟩ := List.cons.inj hrest
          rw [Except.error.inj (hrole.symm.trans hr)]
        · obtain ⟨key, hkey⟩ := hbefore role List.mem_cons_self
          cases hrole.symm.trans hkey
    | ok key =>
      dsimp only
      rw [loadOnto_error_iff]
      constructor
      · rintro ⟨before, r, after, rfl, hbefore, hr⟩
        exact ⟨role :: before, r, after, rfl, List.forall_mem_cons.mpr ⟨⟨key, hrole⟩, hbefore⟩, hr⟩
      · rintro ⟨before, r, after, hroles, hbefore, hr⟩
        rcases List.cons_eq_append_iff.mp hroles with ⟨rfl, hrest⟩ | ⟨before', rfl, rfl⟩
        · obtain ⟨rfl, rfl⟩ := List.cons.inj hrest
          cases hrole.symm.trans hr
        · exact ⟨before', r, after, rfl, fun x hx => hbefore x (List.mem_cons_of_mem _ hx), hr⟩

theorem loadOnto_ok : ∀ {roles : List Value} {loaded accounts : Roster},
    loadOnto ring settings loaded roles = .ok accounts →
      (∀ role ∈ roles, ∃ key, loadAccount ring settings role = .ok key) ∧
      ∀ r key, accounts.get? r = some key ↔
        (.text r ∈ roles ∧ loadAccount ring settings (.text r) = .ok key) ∨
          (.text r ∉ roles ∧ loaded.get? r = some key)
  | [], loaded, accounts, h => by
    obtain rfl := Except.ok.inj h
    simp
  | role :: rest, loaded, accounts, h => by
    rw [loadOnto_cons] at h
    cases hrole : loadAccount ring settings role with
    | error f =>
      rw [hrole] at h
      cases h
    | ok key =>
      rw [hrole] at h
      obtain ⟨hall, hget⟩ := loadOnto_ok h
      refine ⟨List.forall_mem_cons.mpr ⟨⟨key, hrole⟩, hall⟩, fun r k => (hget r k).trans ?_⟩
      obtain ⟨r', -, rfl, -⟩ := loadAccount_ok_iff.mp hrole
      rw [Table.get?_put]
      by_cases hr : r' = r
      · subst hr
        by_cases hmem : .text r' ∈ rest <;> simp [hmem, hrole, Value.shown]
      · simp [Value.shown, hr, Ne.symm hr]

/-- **Loading fails with the first role that has no key**, in the order that was asked for. -/
theorem loadAccounts_error_iff {roles : List Value} : loadAccounts ring settings roles = .error f ↔
    ∃ before role after, roles = before ++ role :: after ∧
      (∀ r ∈ before, ∃ key, loadAccount ring settings r = .ok key) ∧
        Blame ring settings role f := by
  rw [loadAccounts_eq, loadOnto_error_iff]
  simp only [blame_iff]

variable {roles : List Value} {accounts : Roster}

/-- **A roster has the roles that were asked for**, each with the key of its own secret. -/
theorem get?_loadAccounts (h : loadAccounts ring settings roles = .ok accounts) (r : String)
    (key : Key) : accounts.get? r = some key ↔
      .text r ∈ roles ∧ loadAccount ring settings (.text r) = .ok key := by
  rw [(loadOnto_ok h).2 r key]
  simp [Table.get?, Table.empty, Table.find?]

theorem load_of_loadAccounts (h : loadAccounts ring settings roles = .ok accounts) :
    ∀ role ∈ roles, ∃ r key, role = .text r ∧ loadAccount ring settings role = .ok key := by
  intro role hrole
  obtain ⟨key, hkey⟩ := (loadOnto_ok h).1 role hrole
  obtain ⟨r, -, htext, -⟩ := loadAccount_ok_iff.mp hkey
  exact ⟨r, key, htext, hkey⟩

/-- Every role that was asked for has a key in the roster. -/
theorem key_of_loadAccounts (h : loadAccounts ring settings roles = .ok accounts) {r : String}
    (hr : .text r ∈ roles) : ∃ key, accounts.get? r = some key := by
  obtain ⟨r', key, htext, hkey⟩ := load_of_loadAccounts h _ hr
  exact ⟨key, (get?_loadAccounts h r key).mpr ⟨hr, hkey⟩⟩

/-- No roster is loaded for a role without key. -/
theorem not_ok_of_lacks (hrole : role ∈ roles) (hlacks : Lacks ring settings role) :
    loadAccounts ring settings roles ≠ .ok accounts := by
  intro h
  obtain ⟨r, key, -, hkey⟩ := load_of_loadAccounts h role hrole
  exact hlacks.not_ok hkey

/-! ### The roles of a transaction -/

theorem sort_texts (names : List String) : Value.sort (names.map .text) =
    .ok ((names.map Value.text).mergeSort Value.atMost) := by
  have hordered : Value.ordered (names.map .text) = true := by
    simp [Value.ordered, Value.text?]
  rw [Value.sort, if_pos hordered]

/-- **The roles of a transaction** are its signer and, where it needs the overlord's signature, the
overlord. -/
theorem Transact.rolesFor_text (command r : String) :
    ∃ needed, rolesFor command (.text r) = .ok needed ∧ ∀ v, v ∈ needed ↔
      v = .text r ∨ (Plan.Transaction.needsOverlord command = true ∧ v = .text "overlord") := by
  -- of the names, a second one counts if it is another one
  have hpair : Value.keySet [.text r, .text "overlord"] =
      .ok ((if r = "overlord" then [r] else [r, "overlord"]).map .text) := by
    have hequal : ∀ a b : String, (Value.text a == .text b) = decide (a = b) := fun _ _ => rfl
    have hdistinct : Value.keySet [.text r, .text "overlord"] =
      .ok (Value.distinct [.text r, .text "overlord"]) := rfl
    rw [hdistinct]
    by_cases hr : r = "overlord" <;> simp [Value.distinct, hequal, hr]
  rw [rolesFor]
  cases Plan.Transaction.needsOverlord command with
  | false => exact ⟨_, sort_texts [r], fun v => by simp⟩
  | true =>
    rw [if_pos rfl, hpair]
    refine ⟨_, sort_texts _, fun v => ?_⟩
    by_cases hr : r = "overlord" <;> simp [hr]

end Campaign.Command
