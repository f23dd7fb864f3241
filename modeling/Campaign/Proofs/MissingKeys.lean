import Campaign.Proofs.Connection
import Campaign.Proofs.Faults
import Campaign.Proofs.Keys

/-!
# A missing key stops a command before it sends anything

Six commands need keys: five submit, and one signs (`Keyed`).  If a role that a command needs has no
key, the command fails before anything is attempted.  It fails with an error, so the status is 1,
unless something from outside has ended it first (`Keyed.Outside`): the derivation of an earlier
key, and in a drawing, which loads its key late, the connection or the list of pending preorders.

`Act.Fails` says that an action fails from a state, with what it has done by then; it passes along a
sequence to the part that is sure to fail.  `Keyed.missing_key_stops` puts the commands together,
and adds what loading keys comes to in general (`Loads`).
-/

namespace Campaign

open Act

variable {ν τ σ α β : Type}

/-- An action, from a state, stays in `R` and fails, with a fault and a state as told. -/
def Act.Fails (R : σ → σ → Prop) (Q : Fault → σ → Prop) (act : Act σ α) (s : σ) : Prop :=
  ∀ t out, act.runOn s = (out, t) → R s t ∧ ∃ f, out = .error f ∧ Q f t

namespace Act

variable {R : σ → σ → Prop} [IsPreorder σ R] {Q : Fault → σ → Prop} {s : σ}

theorem fails_bind {act : Act σ β} {next : β → Act σ α} (h : Keeps R act)
    (hfails : ∀ f t, act.runOn s = (.error f, t) → Q f t)
    (hnext : ∀ b m, act.runOn s = (.ok b, m) → Fails R Q (next b) m) :
    Fails R Q (act >>= next) s := by
  intro t out hrun
  rcases bind_cases hrun with ⟨b, m, hb, hn⟩ | ⟨f, hf, rfl⟩
  · obtain ⟨hmt, hfault⟩ := hnext b m hb t out hn
    exact ⟨trans_of R (h.of_runOn hb) hmt, hfault⟩
  · exact ⟨h.of_runOn hf, f, rfl, hfails f t hf⟩

/-- What goes well is gone through. -/
theorem fails_then {act : Act σ β} {next : β → Act σ α} {b : β} {m : σ} (h : Keeps R act)
    (hok : act.runOn s = (.ok b, m)) (hnext : Fails R Q (next b) m) :
    Fails R Q (act >>= next) s := by
  refine fails_bind h (fun f t hf => ?_) fun c k hk => ?_
  · cases hok.symm.trans hf
  · obtain ⟨hb, rfl⟩ := Prod.mk.inj (hok.symm.trans hk)
    obtain rfl := Except.ok.inj hb
    exact hnext

theorem fails_ofExcept {r : Except Fault β} {next : β → Act σ α}
    (hfails : ∀ f, r = .error f → Q f s) (hnext : ∀ b, r = .ok b → Fails R Q (next b) s) :
    Fails R Q (ofExcept r >>= next) s := by
  refine fails_bind (keeps_ofExcept r) (fun f t hf => ?_) fun b m hb => ?_
  · rw [runOn_ofExcept] at hf
    obtain ⟨hr, rfl⟩ := Prod.mk.inj hf
    exact hfails f hr
  · rw [runOn_ofExcept] at hb
    obtain ⟨hr, rfl⟩ := Prod.mk.inj hb
    exact hnext b hr

end Act

theorem Event.Offline.attempt? {x : Event τ} (h : x.Offline) : x.attempt? = none := by
  cases x <;> first | rfl | exact h.elim

namespace Command

/-! ### Loading keys -/

/-- **What loading the keys of some roles comes to.**  Either the roster has exactly these roles,
each with the key that is derived from its own secret; or the first role without key, in their
order, has failed.  If no derivation fails but for its secret, the fault names that role. -/
structure Loads (ring : Keyring) (settings : Settings τ) (roles : List Value) : Prop where
  keys : ∀ accounts, loadAccounts ring settings roles = .ok accounts →
    (∀ role ∈ roles, ∃ r, role = .text r) ∧ (∀ r, r ∈ accounts.keys ↔ .text r ∈ roles) ∧
      ∀ r key, accounts.get? r = some key ↔ .text r ∈ roles ∧ ∃ secret,
        settings.secret (.text r) = .ok secret ∧ secret.truthy = true ∧
          ring.derive secret = .ok key
  fault : ∀ f, loadAccounts ring settings roles = .error f ↔
    ∃ before role after, roles = before ++ role :: after ∧
      (∀ r ∈ before, ∃ key, loadAccount ring settings r = .ok key) ∧ Blame ring settings role f
  named : ∀ f, loadAccounts ring settings roles = .error f → (∀ role ∈ roles, ∃ r, role = .text r) →
    (∀ role ∈ roles, ∀ secret cause, settings.secret role = .ok secret → secret.truthy = true →
      ring.derive secret = .error cause → Keyring.blamesSecret cause = true) →
    f.kind = "ConfigurationError" ∧ ∃ before role after, roles = before ++ role :: after ∧
      (∀ r ∈ before, ∃ key, loadAccount ring settings r = .ok key) ∧
        (f = .noKeyMaterial role.shown ∨ ∃ reason, f = .badKeyMaterial role.shown reason)

theorem loads_keys (ring : Keyring) (settings : Settings τ) (roles : List Value) :
    Loads ring settings roles where
  keys accounts h := by
    have hget : ∀ r key, accounts.get? r = some key ↔ .text r ∈ roles ∧ ∃ secret,
        settings.secret (.text r) = .ok secret ∧ secret.truthy = true ∧
          ring.derive secret = .ok key := by
      intro r key
      rw [get?_loadAccounts h, loadAccount_ok_iff]
      simp
    refine ⟨fun role hrole => ?_, fun r => ?_, hget⟩
    · obtain ⟨r, -, hr, -⟩ := load_of_loadAccounts h role hrole
      exact ⟨r, hr⟩
    · rw [← Table.get?_isSome_iff, Option.isSome_iff_exists]
      constructor
      · exact fun ⟨key, hkey⟩ => ((hget r key).mp hkey).1
      · exact key_of_loadAccounts h
  fault _ := loadAccounts_error_iff
  named f h htexts hblames := by
    obtain ⟨before, role, after, hroles, hbefore, hblame⟩ := loadAccounts_error_iff.mp h
    have hmem : role ∈ roles := by simp [hroles]
    suffices hnamed : f = .noKeyMaterial role.shown ∨
        ∃ reason, f = .badKeyMaterial role.shown reason by
      refine ⟨?_, before, role, after, hroles, hbefore, hnamed⟩
      rcases hnamed with rfl | ⟨reason, rfl⟩ <;> rfl
    cases hblame with
    | unhashable hhash =>
      obtain ⟨r, rfl⟩ := htexts role hmem
      cases hhash
    | empty => exact Or.inl rfl
    | bad => exact Or.inr ⟨_, rfl⟩
    | other hsecret htruthy hcause hnot =>
      rw [hblames role hmem _ _ hsecret htruthy hcause] at hnot
      cases hnot

/-! ### Commands that need keys -/

/-- The commands that need keys. -/
inductive Keyed where
  | submits (line : Line)
  | signs
  deriving DecidableEq

variable {host : Host ν τ} {args : Arguments}

/-- What can go wrong while ids are divided is an error, or the node does not list the pending
preorders. -/
theorem Drawing.error_of_division {pallets : Pallets} {s t : Session ν τ} {f : Fault}
    (h : (division host pallets args).runOn s = (.error f, t)) : f.isError = true ∨
      .mapQueried pallets.sale "Preorders" (.list []) (.error f) ∈ t.world.journal := by
  unfold division at h
  split at h
  · cases (Prod.mk.inj h).1
  · rcases hanswer : (host.node.queryMap s.world.clock.now pallets.sale "Preorders"
      (.list [])).runOn s.world.node with ⟨answer, n⟩
    rcases bind_cases h with ⟨pending, m, -, h⟩ | ⟨g, hpending, hg⟩
    · rcases bind_cases h with ⟨_, k, -, h⟩ | ⟨g, hsay, -⟩
      · rcases bind_cases h with ⟨sides, l, -, h⟩ | ⟨g, hsplit, hg⟩
        · cases (Prod.mk.inj h).1
        · rw [runOn_ofExcept] at hsplit
          obtain rfl := Except.error.inj hg
          exact Or.inl (Draw.errs_split _ _ _ _ f (Prod.mk.inj hsplit).1)
      · cases (Prod.mk.inj hsay).1
    · obtain rfl := Except.error.inj hg
      rw [Session.runOn_inWorld, Inquiry.runOn_pendingPreorders hanswer] at hpending
      obtain ⟨htable, rfl⟩ := Prod.mk.inj hpending
      cases answer with
      | ok entries => exact Or.inl (Inquiry.errs_tableOf entries f htable)
      | error g =>
        obtain rfl := Except.error.inj htable
        exact Or.inr List.mem_cons_self

variable [Seconds τ]

/-- What settings a command reads, or that it fails with an error. -/
theorem hostSettings_cases {w v : World ν τ} {out : Except Fault (Settings τ)}
    (h : (hostSettings host args).runOn w = (out, v)) :
    (∃ settings, out = .ok settings ∧ settingsOf host args = .ok settings) ∨
      ∃ f, out = .error f ∧ f.isError = true := by
  rcases bind_cases h with ⟨settings, m, hload, h⟩ | ⟨f, hload, rfl⟩
  · rw [runOn_ofExcept] at hload
    obtain ⟨hloaded, rfl⟩ := Prod.mk.inj hload
    rcases bind_cases h with ⟨_, k, -, h⟩ | ⟨f, hlog, rfl⟩
    · obtain ⟨rfl, rfl⟩ := Prod.mk.inj h
      exact Or.inl ⟨_, rfl, by rw [settingsOf, hloaded]; rfl⟩
    · refine Or.inr ⟨f, rfl, ?_⟩
      rcases bind_cases hlog with ⟨_, k, -, hlog⟩ | ⟨g, hrecord, -⟩
      · split at hlog
        · obtain rfl := Except.error.inj (Prod.mk.inj hlog).1
          rfl
        · cases (Prod.mk.inj hlog).1
      · cases (Prod.mk.inj hrecord).1
  · rw [runOn_ofExcept] at hload
    exact Or.inr ⟨f, rfl, Settings.errs_load _ _ _ f (Prod.mk.inj hload).1⟩

namespace Keyed

/-- The name of the program. -/
def name : Keyed → String
  | submits line => line.name
  | signs => "signer"

/-- What the words of the command line may be. -/
def grammar : Keyed → Grammar
  | submits line => line.grammar
  | signs => Sign.grammar

/-- What the command does. -/
def perform (host : Host ν τ) : Keyed → Act (World ν τ) Unit
  | submits line => line.perform host
  | signs => Sign.perform host

/-- **The roles that a command requires.**  A dry run requires none. -/
def required (args : Arguments) : Keyed → List Value
  | submits .prepare => ["root", "overlord"]
  | submits .populate | submits .incubate => roles.map .text
  | submits .draw => if (argument args "dry_run").truthy then [] else ["overlord"]
  | submits .transact => Plan.Transaction.roleOf args ::
      if Plan.Transaction.needsOverlord (argument args "cmd").shown then ["overlord"] else []
  | signs => ["overlord"]

/-- The roles whose keys a command loads, in order. -/
def needed (args : Arguments) : Keyed → Except Fault (List Value)
  | submits line => line.roles args
  | signs => .ok ["overlord"]

/-- The command is the program of its name. -/
theorem start?_name (k : Keyed) (w : World ν τ) :
    start? k.name host w = some (.ofOutcome ((run (k.perform host)).runOn w).1,
      ((run (k.perform host)).runOn w).2) := by
  cases k with
  | submits line => exact line.start?_name w
  | signs => rfl

theorem mem_needed {k : Keyed} {words : List String} {loaded : List Value}
    (hargs : k.grammar.parse words = .ok args) (hneeded : k.needed args = .ok loaded) :
    ∀ role ∈ k.required args, role ∈ loaded := by
  intro role hrole
  cases k with
  | signs =>
    obtain rfl := Except.ok.inj hneeded
    exact hrole
  | submits line =>
    cases line with
    | prepare | populate | incubate =>
      obtain rfl := Except.ok.inj hneeded
      exact hrole
    | draw =>
      obtain rfl := Except.ok.inj hneeded
      rw [required] at hrole
      split at hrole
      · cases hrole
      · exact hrole
    | transact =>
      rcases Transact.role_of_parse hargs with hempty | ⟨r, -, hr⟩
      · rw [needed, Line.roles, hempty] at hneeded
        cases hneeded
      · obtain ⟨found, hfound, hmem⟩ :=
          Transact.rolesFor_text (argument args "cmd").shown r
        rw [needed, Line.roles, hr] at hneeded
        obtain rfl := Except.ok.inj (hfound.symm.trans hneeded)
        rw [required, hr] at hrole
        refine (hmem role).mpr ?_
        split at hrole <;> simp_all

/-- **What may come in between from outside**: the derivation of a key, all those before it having
gone well; and in a drawing, what is in the way of connecting, and what the node answers when it is
asked for the pending preorders. -/
inductive Outside (k : Keyed) (host : Host ν τ) (args : Arguments) (h : History τ) : Fault → Prop
  | derivation {settings : Settings τ} {before after : List Value} {role secret : Value} {f : Fault}
      (hsettings : settingsOf host args = .ok settings)
      (hneeded : k.needed args = .ok (before ++ role :: after))
      (hbefore : ∀ r ∈ before, ∃ key, loadAccount host.keyring settings r = .ok key)
      (hsecret : settings.secret role = .ok secret) (htruthy : secret.truthy = true)
      (hcause : host.keyring.derive secret = .error f) : Outside k host args h f
  | connecting {f : Fault} (hdraw : k = submits .draw) (hobstacle : host.obstacle = some f) :
      Outside k host args h f
  | listing {pallets : Pallets} {f : Fault} (hdraw : k = submits .draw)
      (hanswer : .mapQueried pallets.sale "Preorders" (.list []) (.error f) ∈ h) :
      Outside k host args h f

/-- A command is stopped by an error, or from outside. -/
def Stops (k : Keyed) (host : Host ν τ) (args : Arguments) (f : Fault) (h : History τ) : Prop :=
  f.isError = true ∨ k.Outside host args h f

variable {k : Keyed} {settings : Settings τ} {loaded : List Value}

theorem Stops.mono {f : Fault} {h g : History τ} (hstops : k.Stops host args f h)
    (hhg : h <:+ g) : k.Stops host args f g := by
  refine hstops.imp_right fun houtside => ?_
  cases houtside with
  | derivation hsettings hneeded hbefore hsecret htruthy hcause =>
    exact .derivation hsettings hneeded hbefore hsecret htruthy hcause
  | connecting hdraw hobstacle => exact .connecting hdraw hobstacle
  | listing hdraw hanswer => exact .listing hdraw (hhg.mem hanswer)

theorem stops_of_blame {before after : List Value} {role : Value} {f : Fault} {h : History τ}
    (hsettings : settingsOf host args = .ok settings)
    (hneeded : k.needed args = .ok (before ++ role :: after))
    (hbefore : ∀ r ∈ before, ∃ key, loadAccount host.keyring settings r = .ok key)
    (hblame : Blame host.keyring settings role f) : k.Stops host args f h :=
  hblame.isError_or.imp_right fun ⟨_, hsecret, htruthy, hcause⟩ =>
    .derivation hsettings hneeded hbefore hsecret htruthy hcause

/-! ### Each command fails -/

/-- A drawing fails if there is something in the way of connecting, and else as its session does. -/
theorem fails_withSession {body : Act (Session ν τ) Unit} {w : World ν τ}
    (hbody : ∀ m, Fails Session.Prelude
      (fun f t => (submits .draw).Stops host args f t.world.journal) body { world := m }) :
    Fails (World.Adds Event.Idle) (fun f v => (submits .draw).Stops host args f v.journal)
      (withSession host settings body) w := by
  intro v out hrun
  have hsession : withSession host settings body =
      Client.withConnection host.node settings.endpoint host.obstacle (fromNew body) := rfl
  rw [hsession] at hrun
  cases hobstacle : host.obstacle with
  | some f =>
    rw [hobstacle, Client.runOn_withConnection_some] at hrun
    obtain ⟨rfl, rfl⟩ := Prod.mk.inj hrun
    exact ⟨History.grows_cons _ ⟨rfl, rfl⟩, f, rfl, Or.inr (.connecting rfl hobstacle)⟩
  | none =>
    rw [hobstacle, Client.runOn_withConnection_none, runOn_fromNew] at hrun
    rcases hend : body.runOn { world := w.opened host.node settings.endpoint } with ⟨r, t⟩
    rw [hend] at hrun
    obtain ⟨rfl, rfl⟩ := Prod.mk.inj hrun
    obtain ⟨⟨⟨new, hnew, hidle⟩, -⟩, f, hf, hstops⟩ := hbody _ t r hend
    refine ⟨?_, f, hf, hstops.mono (List.suffix_cons _ _)⟩
    refine ⟨.closed :: (new ++ [.noticed (.connected host.node.describe),
      .connected settings.endpoint, .noticed (.connecting settings.endpoint)]), ?_, ?_⟩
    · rw [World.hungUp, hnew]
      simp [World.opened]
    · refine List.forall_mem_cons.mpr ⟨⟨rfl, rfl⟩, List.forall_mem_append.mpr ⟨hidle, ?_⟩⟩
      simp [Event.Idle, Event.attempt?, Event.tracked?]

section

variable {R : World ν τ → World ν τ → Prop} [IsPreorder (World ν τ) R] {w : World ν τ}

/-- A command goes through its arguments and its settings, or fails with an error. -/
theorem fails_begin {grammar : Grammar} {next : Arguments → Settings τ → Act (World ν τ) Unit}
    (hkeeps : ∀ args, Keeps R (hostSettings host args))
    (hargs : grammar.parse host.arguments = .ok args)
    (hnext : ∀ settings m, settingsOf host args = .ok settings →
      Fails R (fun f v => k.Stops host args f v.journal) (next args settings) m) :
    Fails R (fun f v => k.Stops host args f v.journal) (do
      let args ← Act.ofExcept (grammar.parse host.arguments)
      let settings ← hostSettings host args
      next args settings) w := by
  rw [hargs]
  refine fails_ofExcept nofun fun args' hargs' => ?_
  obtain rfl := Except.ok.inj hargs'
  refine fails_bind (hkeeps _) (fun f t hf => ?_) fun settings m hm => ?_
  · rcases hostSettings_cases hf with ⟨_, hout, -⟩ | ⟨g, hout, herror⟩
    · cases hout
    · exact Or.inl (Except.error.inj hout ▸ herror)
  · rcases hostSettings_cases hm with ⟨settings', hout, hsettings⟩ | ⟨g, hout, -⟩
    · exact hnext settings m (Except.ok.inj hout ▸ hsettings)
    · cases hout

end

/-- **Keys are not loaded** if a role that is needed has none. -/
theorem fails_loadAccounts {R : σ → σ → Prop} [IsPreorder σ R] {s : σ}
    {next : Roster → Act σ Unit} (journal : σ → History τ)
    (hsettings : settingsOf host args = .ok settings) (hneeded : k.needed args = .ok loaded)
    (hlacks : ∃ role ∈ loaded, Lacks host.keyring settings role) :
    Fails R (fun f t => k.Stops host args f (journal t))
      (Act.ofExcept (loadAccounts host.keyring settings loaded) >>= next) s := by
  refine fails_ofExcept (fun f hf => ?_) fun accounts haccounts => ?_
  · obtain ⟨before, role, after, rfl, hbefore, hblame⟩ := loadAccounts_error_iff.mp hf
    exact stops_of_blame hsettings hneeded hbefore hblame
  · obtain ⟨role, hrole, hlack⟩ := hlacks
    exact absurd haccounts (not_ok_of_lacks hrole hlack)

/-- Some role that a command needs has no key, if there are settings. -/
def Keyless (k : Keyed) (host : Host ν τ) (args : Arguments) : Prop :=
  ∀ settings, settingsOf host args = .ok settings →
    ∃ role ∈ k.required args, Lacks host.keyring settings role

variable {w : World ν τ}

/-- A command that fails before it connects. -/
abbrev FailsOffline (k : Keyed) (host : Host ν τ) (args : Arguments) (w : World ν τ) : Prop :=
  Fails (World.Adds Event.Offline) (fun f v => k.Stops host args f v.journal) (k.perform host) w

/-- A command that loads its keys at once fails there. -/
theorem fails_atOnce {grammar : Grammar} {title : String}
    {next : Arguments → Settings τ → Roster → Act (World ν τ) Unit}
    (hargs : grammar.parse host.arguments = .ok args)
    (hneeded : k.needed args = .ok (k.required args)) (hlacks : k.Keyless host args) :
    Fails (World.Adds Event.Offline) (fun f v => k.Stops host args f v.journal) (do
      let args ← Act.ofExcept (grammar.parse host.arguments)
      let settings ← hostSettings host args
      banner title
      let accounts ← Act.ofExcept (loadAccounts host.keyring settings (k.required args))
      next args settings accounts) w := by
  refine fails_begin offline_hostSettings hargs fun settings m hsettings => ?_
  refine fails_then (offline_banner _) rfl ?_
  exact fails_loadAccounts World.journal hsettings hneeded (hlacks settings hsettings)

theorem fails_transact (hargs : Transact.grammar.parse host.arguments = .ok args)
    (hlacks : (submits .transact).Keyless host args) :
    (submits .transact).FailsOffline host args w := by
  refine fails_begin offline_hostSettings hargs fun settings m hsettings => ?_
  refine fails_then (offline_banner _) rfl ?_
  refine fails_ofExcept
    (fun f hf => Or.inl (Transact.errs_rolesFor _ _ f hf)) fun loaded hloaded => ?_
  obtain ⟨role, hrole, hlack⟩ := hlacks settings hsettings
  exact fails_loadAccounts (k := submits .transact) World.journal hsettings hloaded
    ⟨role, mem_needed (k := submits .transact) hargs hloaded role hrole, hlack⟩

theorem fails_sign (hargs : Sign.grammar.parse host.arguments = .ok args)
    (hlacks : signs.Keyless host args) : signs.FailsOffline host args w := by
  refine fails_begin offline_hostSettings hargs fun settings m hsettings => ?_
  refine fails_ofExcept (fun f hf => ?_) fun key hkey => ?_
  · have hneeded : signs.needed args = .ok ([] ++ .text "overlord" :: []) := rfl
    exact stops_of_blame hsettings hneeded (by simp) (blame_iff.mp hf)
  · obtain ⟨role, hrole, hlack⟩ := hlacks settings hsettings
    obtain rfl := List.mem_singleton.mp hrole
    exact absurd hkey hlack.not_ok

/-- **A drawing that is no dry run fails** once it comes to the overlord's key, if not before. -/
theorem fails_draw (hargs : Drawing.grammar.parse host.arguments = .ok args)
    (hlacks : (submits .draw).Keyless host args) :
    Fails (World.Adds Event.Idle) (fun f v => (submits .draw).Stops host args f v.journal)
      ((submits .draw).perform host) w := by
  have hidle : ∀ args, Keeps (World.Adds Event.Idle) (hostSettings host args) := fun args =>
    keeps_bind (keeps_ofExcept _) fun _ => keeps_bind (idle_setUpLog _) fun _ => keeps_pure _
  refine fails_begin hidle hargs fun settings m hsettings => ?_
  refine fails_then (idle_banner _) rfl ?_
  obtain ⟨role, hrole, hlack⟩ := hlacks settings hsettings
  rw [required] at hrole
  split at hrole
  · cases hrole
  · rename_i hwet
    refine fails_withSession fun s => ?_
    refine fails_bind (Session.prelude_of_shows (Drawing.shows_division _)) ?_ ?_
    · intro f t hdivision
      exact (Drawing.error_of_division hdivision).imp_right (.listing rfl)
    · rintro ⟨chosen, notChosen⟩ t -
      refine fails_ofExcept
        (fun f hf => Or.inl (Drawing.errs_divisionText _ _ f hf)) fun text _ => ?_
      refine fails_then (prelude_say _) rfl ?_
      refine fails_ofExcept (fun f hf => Or.inl (Plan.errs_drawing _ _ _ f hf)) fun phases _ => ?_
      rw [if_neg hwet]
      exact fails_loadAccounts (k := submits .draw) (fun t : Session ν τ => t.world.journal)
        hsettings rfl ⟨role, hrole, hlack⟩

/-! ### How it ends -/

/-- A keyless command fails before anything is attempted, and, if it is no drawing, offline. -/
theorem fails_of_keyless (hargs : k.grammar.parse host.arguments = .ok args)
    (hlacks : k.Keyless host args) :
    Fails (World.Adds fun x => x.attempt? = none ∧ (k ≠ submits .draw → x.Offline))
      (fun f v => k.Stops host args f v.journal) (k.perform host) w := by
  have hoffline : k.FailsOffline host args w → Fails
      (World.Adds fun x => x.attempt? = none ∧ (k ≠ submits .draw → x.Offline))
      (fun f v => k.Stops host args f v.journal) (k.perform host) w := by
    intro hfails t out hrun
    obtain ⟨hadds, hfault⟩ := hfails t out hrun
    exact ⟨hadds.mono fun x hx => ⟨hx.attempt?, fun _ => hx⟩, hfault⟩
  cases k with
  | signs => exact hoffline (fails_sign hargs hlacks)
  | submits line =>
    cases line with
    | prepare | populate | incubate => exact hoffline (fails_atOnce hargs rfl hlacks)
    | transact => exact hoffline (fails_transact hargs hlacks)
    | draw =>
      intro t out hrun
      obtain ⟨hadds, hfault⟩ := fails_draw hargs hlacks t out hrun
      exact ⟨hadds.mono fun x hx => ⟨hx.1, fun hdraw => absurd rfl hdraw⟩, hfault⟩

/-- **A missing key stops a command before it sends anything.**  If a role that a command requires
has an empty secret, or one that no key is derived from, then for any other keys, any node and any
clock the command fails.  Nothing is signed or handed in, and only a drawing opens a connection.
The status is 1, unless the command was ended from outside before it came to this key: then the
fault is not an error, and it is that of an earlier key's derivation, or in a drawing that of
connecting or of listing the pending preorders.  Loading keys gives all the roles that were asked
for, or fails with the first that has no key. -/
theorem missing_key_stops (hargs : k.grammar.parse host.arguments = .ok args)
    (hlacks : k.Keyless host args) (n : ν) (c : Clock τ) :
    let begun : World ν τ := { node := n, clock := c }
    let main := (k.perform host).runOn begun
    let ended := (run (k.perform host)).runOn begun
    start? k.name host begun = some (.ofOutcome ended.1, ended.2) ∧
      (∀ x ∈ ended.2.journal, x.attempt? = none) ∧
      (k ≠ submits .draw → ∀ x ∈ ended.2.journal, x.Offline) ∧
      (∃ f, main.1 = .error f ∧ Concludes main ended ∧
        ((f.isError = true ∧ ended.1 = .ok 1) ∨
          (f.isError = false ∧ k.Outside host args ended.2.journal f))) ∧
      ∀ (ring : Keyring) (settings : Settings τ) (roles : List Value),
        Loads ring settings roles := by
  intro begun main ended
  have hends : Concludes main ended := concludes_run (k.perform host) begun
  obtain ⟨⟨new, hnew, hall⟩, f, hf, hstops⟩ :=
    fails_of_keyless hargs hlacks main.2 main.1 (w := begun) rfl
  obtain ⟨last, hlast, hoffline⟩ := hends.grows
  have hjournal : ∀ x ∈ ended.2.journal, x.attempt? = none ∧ (k ≠ submits .draw → x.Offline) := by
    intro x hx
    rw [hlast, hnew, List.append_nil] at hx
    rcases List.mem_append.mp hx with hx | hx
    · exact ⟨(hoffline x hx).attempt?, fun _ => hoffline x hx⟩
    · exact hall x hx
  refine ⟨k.start?_name begun, fun x hx => (hjournal x hx).1,
    fun hdraw x hx => (hjournal x hx).2 hdraw, ⟨f, hf, hends, ?_⟩, loads_keys⟩
  cases herror : f.isError with
  | true => exact Or.inl ⟨rfl, hends.one_iff.mpr ⟨f, hf, herror⟩⟩
  | false =>
    rcases hstops.mono hends.grows.suffix with hyes | houtside
    · rw [herror] at hyes
      cases hyes
    · exact Or.inr ⟨rfl, houtside⟩

/-- A role lacks a key if the surroundings give it an empty secret. -/
theorem lacks_of_load {role : Value}
    (h : ((Settings.load (τ := τ) host.environment host.files true).2.toOption.any fun s =>
      (s.secret role).toOption.any fun secret => !secret.truthy) = true) :
    ∀ settings, settingsOf host args = .ok settings → Lacks host.keyring settings role := by
  intro settings hsettings
  obtain ⟨s, hs, hsecret⟩ := exists_of_any h
  obtain ⟨secret, hsecret, hempty⟩ := exists_of_any hsecret
  obtain ⟨s', hs', rfl⟩ := outcome_map_ok.mp hsettings
  obtain rfl : s = s' := Except.ok.inj (hs.symm.trans hs')
  refine ⟨secret, ?_, Or.inl (by simpa using hempty)⟩
  rw [← hsecret]
  split <;> rfl

/-- A host with a key for root only. -/
def rootOnly : Host Sequential.State Value :=
  { preparing with environment := ⟨[("ROOT_PRIVKEY", "//Alice")]⟩ }

set_option maxRecDepth 10000 in
/-- A preparation without the overlord's key: the status is 1, and nothing was attempted. -/
theorem missing_key_stops_overlord :
    let ended := (run (Initialize.perform rootOnly)).runOn
      { node := .ofNonces .empty, clock := { now := .int 0 } }
    (∃ args, Initialize.grammar.parse rootOnly.arguments = .ok args ∧
        (submits .prepare).Keyless rootOnly args) ∧
      (∀ x ∈ ended.2.journal, x.attempt? = none) ∧ (∀ x ∈ ended.2.journal, x.Offline) ∧
      (Ending.ofOutcome ended.1).status = 1 := by
  intro ended
  have hreads : (Initialize.grammar.parse rootOnly.arguments).isOk = true := by decide +kernel
  cases hargs : Initialize.grammar.parse rootOnly.arguments with
  | error f =>
    rw [hargs] at hreads
    cases hreads
  | ok args =>
    have hlacks : (submits .prepare).Keyless rootOnly args := fun settings hsettings =>
      ⟨"overlord", by simp [required], lacks_of_load (by decide +kernel) settings hsettings⟩
    obtain ⟨-, hnone, hoffline, -⟩ := missing_key_stops (k := submits .prepare) hargs hlacks
      (.ofNonces .empty) { now := .int 0 }
    exact ⟨⟨args, rfl, hlacks⟩, hnone, hoffline nofun, by decide +kernel⟩

/-- A drawing without keys, interrupted while it connects. -/
def cutOff : Host Sequential.State Value where
  arguments := ["--chosen", "1", "--not-chosen", "2"]
  environment := .empty
  files := {}
  keyring := {}
  node := Sequential.node {}
  obstacle := some (.interrupted "")

set_option maxRecDepth 10000 in
/-- **An interruption can come before a missing key**: this drawing is no dry run and has no
overlord's key, and its status is 130. -/
theorem keyless_drawing_interrupted :
    (∃ args, Drawing.grammar.parse cutOff.arguments = .ok args ∧
        (argument args "dry_run").truthy = false ∧ (submits .draw).Keyless cutOff args) ∧
      (start? "preorder_drawing" cutOff
        { node := .ofNonces .empty, clock := { now := .int 0 } }).map (·.1.status) = some 130 := by
  refine ⟨?_, by decide +kernel⟩
  have hreads : ((Drawing.grammar.parse cutOff.arguments).toOption.any
      fun args => !(argument args "dry_run").truthy) = true := by decide +kernel
  obtain ⟨args, hargs, hwet⟩ := exists_of_any hreads
  have hwet : (argument args "dry_run").truthy = false := by simpa using hwet
  refine ⟨args, hargs, hwet, fun settings hsettings => ?_⟩
  exact ⟨"overlord", by simp [required, hwet], lacks_of_load (by decide +kernel) settings hsettings⟩

end Keyed

end Command

end Campaign
