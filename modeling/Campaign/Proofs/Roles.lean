import Campaign.Proofs.Building
import Campaign.Proofs.Confirmation
import Campaign.Proofs.Course
import Campaign.Proofs.Regrouping

/-!
# No command looks up a role in vain

Three sets of roles are made in different places: those whose keys a command loads, those whose
accounts it starts, and those that its steps mention.  The plans mention loaded roles only
(`Line.served_phases`), and every account that a barrier waits for has been started
(`Line.started_of_barrier`).

An account that is tracked stays tracked (`Session.Remembers`).  Hence in every run, with any node,
each step finds what it looks up when it is taken (`Visit.Finds`): the addresses of roles in the
roster, the keys that a signature is worked out from, and the nonce that a barrier waits for.
`Line.finds_every_role` puts this together with what the builders come to.
-/

namespace Campaign

open Act

variable {ν τ : Type}

/-! ### What is tracked stays tracked -/

namespace Session

/-- An account is tracked. -/
def Tracks (s : Session ν τ) (a : String) : Prop := ∃ n, s.nonces.get? (.text a) = some n

/-- No tracked account is forgotten. -/
def Remembers (s t : Session ν τ) : Prop := ∀ a, s.Tracks a → t.Tracks a

instance : IsPreorder (Session ν τ) Remembers where
  refl _ _ := id
  trans _ _ _ h g a := g a ∘ h a

theorem Advances.remembers {s t : Session ν τ} (h : Advances s t) : Remembers s t :=
  fun a ⟨n, hn⟩ => (h a n hn).imp fun _ hk => hk.2

theorem remembers_startTracking {node : Node ν τ} {a : String} {s t : Session ν τ}
    {out : Except Fault Int} (h : (startTracking node (.text a)).runOn s = (out, t)) :
    Remembers s t ∧ ∀ v, out = .ok v → t.Tracks a := by
  obtain ⟨answer, n, -, ⟨v, -, -, rfl⟩ | ⟨f, -, rfl, rfl⟩⟩ := startTracking_cases h
  · refine ⟨?_, fun _ _ => ⟨v, ?_⟩⟩
    · rintro b ⟨k, hk⟩
      rw [Tracks, tracking, Tracker.get?_put_text]
      split
      · exact ⟨v, rfl⟩
      · exact ⟨k, hk⟩
    · rw [tracking, Tracker.get?_put_text, if_pos rfl]
  · refine ⟨fun _ => id, fun _ hf => ?_⟩
    cases hf

/-- Moves add to the record, and take nothing from it. -/
theorem Moves.sent {node : Node ν τ} {s t : Session ν τ} (h : Moves node s t) :
    s.sent <+: t.sent := by
  induction h with
  | refl => exact List.prefix_rfl
  | tail _ hmove ih =>
    refine ih.trans ?_
    cases hmove <;> first | exact List.prefix_rfl | exact List.prefix_append _ _

end Session

namespace Script

variable {script : Script ν τ}

open Session

/-- A role that is known has an address. -/
theorem address_of_knows {role : Value} (h : script.accounts.Knows role) :
    ∃ a, script.address role = .ok a := by
  obtain ⟨key, hkey⟩ := h
  refine ⟨key.address, ?_⟩
  rw [address, Script.key, hkey]
  rfl

theorem startRole_cases {role : Value} {s t : Session ν τ} {out : Except Fault Int}
    (h : (script.startRole role).runOn s = (out, t)) :
    Remembers s t ∧ ∀ v, out = .ok v → ∃ a, script.address role = .ok a ∧ t.Tracks a := by
  rcases bind_cases h with ⟨a, m, haddr, h⟩ | ⟨f, haddr, rfl⟩
  · rw [runOn_ofExcept] at haddr
    obtain ⟨hrole, rfl⟩ := Prod.mk.inj haddr
    rcases bind_cases h with ⟨v, m, hstart, h⟩ | ⟨f, hstart, rfl⟩
    · obtain ⟨hkept, htracks⟩ := remembers_startTracking hstart
      rw [runOn_bind_ok (runOn_inWorld _ _)] at h
      obtain ⟨-, rfl⟩ := Prod.mk.inj h
      exact ⟨hkept, fun _ _ => ⟨a, hrole, htracks v rfl⟩⟩
    · exact ⟨(remembers_startTracking hstart).1, nofun⟩
  · rw [runOn_ofExcept] at haddr
    obtain ⟨-, rfl⟩ := Prod.mk.inj haddr
    exact ⟨refl_of Remembers _, nofun⟩

theorem remembers_startRoles : ∀ (roles : List Value) (started : Table Value Int),
    Keeps Remembers (script.startRoles started roles)
  | [], _ => keeps_pure _
  | _ :: rest, _ => keeps_bind (keeps_of fun _ _ _ h => (startRole_cases h).1)
      fun _ => remembers_startRoles rest _

/-- **Roles that were started have addresses**, and these are tracked. -/
theorem tracks_of_startRoles : ∀ {roles : List Value} {started table : Table Value Int}
    {s t : Session ν τ}, (script.startRoles started roles).runOn s = (.ok table, t) →
    ∀ role ∈ roles, ∃ a, script.address role = .ok a ∧ t.Tracks a
  | [], _, _, _, _, _ => by simp
  | first :: rest, _, _, _, _, h => by
    obtain ⟨v, m, hfirst, hrest⟩ := ok_of_bind h
    obtain ⟨a, haddr, htracks⟩ := (startRole_cases hfirst).2 v rfl
    refine List.forall_mem_cons.mpr ⟨⟨a, haddr, ?_⟩, tracks_of_startRoles hrest⟩
    exact (remembers_startRoles rest _).of_runOn hrest a htracks

/-- The record of a submission that ends well is not empty. -/
theorem sent_of_submit {x : Submit} {s t : Session ν τ} {hash : Option String}
    (h : (script.submit x).runOn s = (.ok hash, t)) : t.sent ≠ [] := by
  rw [submit_eq] at h
  obtain ⟨e, m, hprep, hsend⟩ := ok_of_bind h
  rcases send_cases (prepare_ok hprep).2.1 hsend with ⟨_, _, -, hf, -⟩ | ⟨_, -, ⟨_, _, -, hf, -⟩ |
    ⟨_, _, -, -, rfl⟩⟩
  · cases hf
  · cases hf
  · simp [taking]

theorem remembers_execute [Seconds τ] (step : Step τ) : Keeps Remembers (script.execute step) :=
  fun s => (advances_execute step s).remembers

end Script

/-! ### What a step looks up -/

/-- **A step that was taken has found what it looks up**: the address of its account in the roster,
the keys for its parameters, and the nonce that it waits for in the tracker. -/
def Visit.Finds (script : Script ν τ) (v : Visit ν τ) : Prop :=
  match v.step with
  | .submit x => (∃ a, script.address x.account = .ok a) ∧ x.params.Resolves
  | .barrier b => ∃ a, script.address b.account = .ok a ∧ v.before.Tracks a
  | .pause _ => True
  | .other _ => False

namespace Command

variable {words : List String} {args : Arguments} {ring : Keyring} {settings : Settings τ}
  {needed : List Value} {accounts : Roster} {sides : Value × Value} {phases : List (Phase τ)}

/-- **A roster knows the roles that were loaded**, and no others. -/
theorem knows_iff (hkeys : loadAccounts ring settings needed = .ok accounts) (role : Value) :
    accounts.Knows role ↔ role ∈ needed := by
  refine ⟨fun hknows => ?_, knows_of_loadAccounts hkeys role⟩
  obtain ⟨r, key, rfl, hkey⟩ := hknows.name
  exact ((get?_loadAccounts hkeys r key).mp hkey).1

namespace Line

/-- The roles whose accounts a command starts: all that were loaded, or in a transaction the one
that submits. -/
def starts (accounts : Roster) (phases : List (Phase τ)) : Line → List Value
  | transact => (Script.submissions (phases.flatMap Phase.steps)).map Submit.account
  | _ => accounts.keys.map .text

theorem starts_of_ne {line : Line} (h : line ≠ transact) :
    line.starts accounts phases = accounts.keys.map .text := by
  cases line <;> first | rfl | exact absurd rfl h

/-- How the session of a command begins. -/
def start (script : Script ν τ) (phases : List (Phase τ)) :
    Line → Act (Session ν τ) (Table Value Int)
  | transact => script.startSome
      (.list ((Script.submissions (phases.flatMap Phase.steps)).map Submit.account))
  | _ => script.start

theorem start_eq (line : Line) (script : Script ν τ) (phases : List (Phase τ)) :
    line.start script phases = script.startRoles .empty (line.starts script.accounts phases) := by
  cases line <;> rfl

/-- **The plan of a command keeps to the loaded roles.** -/
theorem served_phases {line : Line} (hargs : line.grammar.parse words = .ok args)
    (hneeded : line.roles args = .ok needed)
    (hkeys : loadAccounts ring settings needed = .ok accounts)
    (h : line.phases args settings accounts sides = .ok phases) : Plan.Served accounts phases := by
  have hknows := knows_of_loadAccounts hkeys
  cases line with
  | prepare =>
    obtain rfl := Except.ok.inj hneeded
    exact Plan.served_preparation (hknows _ (by simp)) (hknows _ (by simp)) h
  | populate =>
    obtain rfl := Except.ok.inj hneeded
    obtain rfl := Except.ok.inj h
    exact Plan.served_population fun r hr => hknows _ (List.mem_map_of_mem hr)
  | incubate =>
    obtain rfl := Except.ok.inj hneeded
    obtain rfl := Except.ok.inj h
    exact Plan.served_incubation (fun r hr => hknows _ (List.mem_map_of_mem hr)) _
  | draw =>
    obtain rfl := Except.ok.inj hneeded
    exact Plan.served_drawing (hknows _ (by simp)) h
  | transact =>
    obtain ⟨x, hx, rfl⟩ := outcome_map_ok.mp h
    obtain ⟨name, transaction, hname, hasks⟩ := Transact.transaction_of_parse hargs
    have hcommand : (argument args "cmd").shown = name := by
      rw [argument_of_get? hname]
      rfl
    rw [Transact.stepOf_eq hname hasks] at hx
    rcases Transact.role_of_parse hargs with hempty | ⟨r, -, hr⟩
    · rw [Line.roles, hempty] at hneeded
      cases hneeded
    · obtain ⟨found, hfound, hmem⟩ := Transact.rolesFor_text name r
      rw [Line.roles, hcommand, hr] at hneeded
      obtain rfl := Except.ok.inj (hfound.symm.trans hneeded)
      have hrole : accounts.Knows (.text r) := hknows _ ((hmem _).mpr (Or.inl rfl))
      rw [hr] at hx
      refine Plan.served_single (Plan.served_of_step hrole (fun hmentions => ?_) hx) _
      rcases hasks.overlord hmentions with hneeds | hsame
      · exact hknows _ ((hmem _).mpr (Or.inr ⟨hneeds, rfl⟩))
      · rw [← hr, hsame] at hrole
        exact hrole

/-- **The account that a barrier waits for is one that was started.** -/
theorem started_of_barrier {line : Line} (h : line.phases args settings accounts sides = .ok phases)
    (hserved : Plan.Served accounts phases) {b : Barrier τ}
    (hb : .barrier b ∈ phases.flatMap Phase.steps) : b.account ∈ line.starts accounts phases := by
  by_cases htransact : line = transact
  · subst htransact
    obtain ⟨x, -, rfl⟩ := outcome_map_ok.mp h
    have hb : b = { account := x.account } := by simpa [Plan.single] using hb
    simp [starts, hb, Plan.single, Script.submissions, Step.submit?]
  · obtain ⟨r, key, hr, hkey⟩ := (hserved _ hb).name
    rw [starts_of_ne htransact, hr]
    exact List.mem_map_of_mem
      ((Table.get?_isSome_iff _ _).mp (Option.isSome_iff_exists.mpr ⟨key, hkey⟩))

/-- Accounts are started for loaded roles only. -/
theorem knows_of_starts {line : Line} (hserved : Plan.Served accounts phases) :
    ∀ role ∈ line.starts accounts phases, accounts.Knows role := by
  intro role hrole
  by_cases htransact : line = transact
  · subst htransact
    obtain ⟨x, hx, rfl⟩ := List.mem_map.mp hrole
    exact (hserved _ (Plan.mem_submissions.mp hx)).1
  · rw [starts_of_ne htransact] at hrole
    obtain ⟨r, hr, rfl⟩ := List.mem_map.mp hrole
    exact Roster.knows_text.mpr (Option.isSome_iff_exists.mp ((Table.get?_isSome_iff _ _).mpr hr))

/-- **What the builder of a command comes to**, its options filled: phases; in a drawing, when the
node lists whole numbers, phases or a refusal. -/
def Builds (ν : Type) (args : Arguments) (settings : Settings τ) (accounts : Roster)
    (line : Line) : Prop :=
  line.Filled args →
    (line ≠ draw → ∀ sides, ∃ phases, line.phases args settings accounts sides = .ok phases) ∧
    (line = draw → ∀ (host : Host ν τ) (s : Session ν τ),
      (argument args "winners" ≠ .null → Drawing.Lists host.node settings.pallets s.world) →
      Drawing.Comes τ args settings.pallets
        ((Drawing.division host settings.pallets args).runOn s).1)

theorem builds (line : Line) (hargs : line.grammar.parse words = .ok args)
    (hneeded : line.roles args = .ok needed)
    (hkeys : loadAccounts ring settings needed = .ok accounts) :
    line.Builds ν args settings accounts := by
  intro hfilled
  refine ⟨fun hdraw sides => ?_, fun hdraw host s hlists => ?_⟩
  · cases line with
    | prepare =>
      obtain rfl := Except.ok.inj hneeded
      exact builds_prepare hargs hfilled (knows_of_loadAccounts hkeys _ (by simp))
    | populate | incubate => exact ⟨_, rfl⟩
    | draw => exact absurd rfl hdraw
    | transact =>
      obtain ⟨name, transaction, hname, hasks⟩ := Transact.transaction_of_parse hargs
      obtain ⟨x, hx⟩ := hasks.step hfilled settings.pallets accounts (Plan.Transaction.roleOf args)
      exact ⟨_, outcome_map_ok.mpr ⟨x, (Transact.stepOf_eq hname hasks _ _).trans hx, rfl⟩⟩
  · subst hdraw
    exact Drawing.comes_of_division hargs hfilled hlists rfl

variable [Seconds τ]

/-- **What runs of a plan find.**  All roles to start have addresses.  Once they are started, each
step that a run takes finds what it looks up; and a transaction that ends well has a last entry to
report. -/
structure RunsFind (line : Line) (script : Script ν τ) (phases : List (Phase τ)) : Prop where
  started : ∀ role ∈ line.starts script.accounts phases, ∃ a, script.address role = .ok a
  visits : ∀ {s m t : Session ν τ} {table : Table Value Int} {out : Except Fault (List Sent)},
    (line.start script phases).runOn s = (.ok table, m) → (script.run phases).runOn m = (out, t) →
    ∃ stages, script.Course phases m stages (out.map fun _ => ()) t ∧
      ∀ stage ∈ stages, ∀ v ∈ stage.visits, v.Finds script
  last : line = transact → ∀ {m t : Session ν τ} {sent : List Sent},
    (script.run phases).runOn m = (.ok sent, t) → ∃ last, sent.getLast? = some last

/-- The run of a single submission that ends well has recorded it. -/
theorem last_of_single {script : Script ν τ} {name : Value} {x : Submit} {m t : Session ν τ}
    {sent : List Sent} (h : (script.run (Plan.single name x)).runOn m = (.ok sent, t)) :
    ∃ last, sent.getLast? = some last := by
  obtain ⟨k, r, u, -, hx, hrest⟩ := (Script.walk_run h).ok_cons rfl rfl
  obtain ⟨hash, hsubmit⟩ := Script.execute_submit_ok hx
  have hmoves : Session.Moves script.node u t :=
    hrest.keeps (fun n s hn => .single (.note n hn.plain.2)) fun step _ => Script.moves_execute step
  have hgrown : u.sent <+: t.sent := hmoves.sent
  have hsent : sent ≠ [] := by
    rw [Script.sent_of_run h]
    intro hnil
    rw [hnil] at hgrown
    exact Script.sent_of_submit hsubmit (List.prefix_nil.mp hgrown)
  exact ⟨sent.getLast hsent, List.getLast?_eq_some_getLast hsent⟩

theorem runsFind {line : Line} (h : line.phases args settings accounts sides = .ok phases)
    (hserved : Plan.Served accounts phases) {script : Script ν τ}
    (hscript : script.accounts = accounts) : line.RunsFind script phases where
  started role hrole := by
    rw [hscript] at hrole
    exact Script.address_of_knows (hscript ▸ knows_of_starts hserved role hrole)
  visits {s m t table out} hstart hrun := by
    obtain ⟨stages, hcourse⟩ := Script.course_run hrun
    refine ⟨stages, hcourse, fun stage hstage v hv => ?_⟩
    obtain ⟨hbefore, hstep⟩ := hcourse.reached (R := Session.Remembers)
      (fun _ s _ => refl_of Session.Remembers s) Script.remembers_execute stage hstage v hv
    have hmem : v.step ∈ phases.flatMap Phase.steps :=
      List.mem_flatMap.mpr ⟨stage.phase, hcourse.order.subset (List.mem_map_of_mem hstage), hstep⟩
    have hfits := hserved _ hmem
    rw [start_eq, hscript] at hstart
    unfold Visit.Finds
    split
    · rename_i x hx
      rw [hx] at hfits
      exact ⟨Script.address_of_knows (hscript ▸ hfits.1), hfits.2⟩
    · rename_i b hb
      obtain ⟨a, haddr, htracks⟩ := Script.tracks_of_startRoles hstart b.account
        (started_of_barrier h hserved (hb ▸ hmem))
      exact ⟨a, haddr, hbefore a htracks⟩
    · trivial
    · rename_i u hu
      rw [hu] at hfits
      exact hfits
  last htransact m t sent hrun := by
    subst htransact
    obtain ⟨x, -, rfl⟩ := outcome_map_ok.mp h
    exact last_of_single hrun

/-- **No command looks up a role in vain.**  Its command line may be any that is read, and the keys
may be any that are loaded; these are the keys of the roles it needs.  Then its builder returns
phases, unless it converts an option that was left with an empty list, or refuses a drawing.  The
phases mention loaded roles only, and in every run of them, from any session and with any node, each
step finds what it looks up. -/
theorem finds_every_role (line : Line) (hargs : line.grammar.parse words = .ok args)
    (hneeded : line.roles args = .ok needed)
    (hkeys : loadAccounts ring settings needed = .ok accounts) :
    (∀ role, accounts.Knows role ↔ role ∈ needed) ∧ line.Builds ν args settings accounts ∧
      ∀ sides phases, line.phases args settings accounts sides = .ok phases →
        Plan.Served accounts phases ∧
          ∀ script : Script ν τ, script.accounts = accounts → line.RunsFind script phases := by
  refine ⟨knows_iff hkeys, line.builds hargs hneeded hkeys, fun sides phases h => ?_⟩
  have hserved : Plan.Served accounts phases := served_phases hargs hneeded hkeys h
  exact ⟨hserved, fun script hscript => runsFind h hserved hscript⟩

/-- A host with keys for all roles, two of which share an account. -/
def populating : Host Sequential.State Value where
  arguments := []
  environment := ⟨[("ROOT_PRIVKEY", "//Alice"), ("OVERLORD_PRIVKEY", "//Bob"),
    ("USER_PRIVKEY", "//Charlie"), ("CHARLIE_PRIVKEY", "//Charlie"), ("DAVID_PRIVKEY", "//Dave"),
    ("EVE_PRIVKEY", "//Eve"), ("FERDIE_PRIVKEY", "//Ferdie")]⟩
  files := {}
  keyring := {}
  node := Sequential.node {}
  obstacle := none

/-- A run of phases whose roles are started, in a new session. -/
def ranFresh (line : Line) (script : Script Sequential.State Value) (phases : List (Phase Value)) :
    Except Fault (List Sent) × Session Sequential.State Value :=
  (line.start script phases >>= fun _ => script.run phases).runOn
    (.fresh (.ofNonces .empty) { now := .int 0 })

set_option maxRecDepth 100000 in
/-- A population that goes through: 29 extrinsics were sent, three of them with a signature that was
worked out on the way, and no step has missed what it looked up. -/
theorem finds_every_role_populating :
    ∃ args needed settings accounts phases,
      populate.grammar.parse populating.arguments = .ok args ∧ populate.roles args = .ok needed ∧
      loadAccounts populating.keyring settings needed = .ok accounts ∧
      populate.phases args settings accounts (.null, .null) = .ok phases ∧
      Plan.Served accounts phases ∧
      let script := scriptFor populating.node settings accounts
      populate.RunsFind script phases ∧
        ∃ sent t, ranFresh populate script phases = (.ok sent, t) ∧ sent.length = 29 := by
  have hall : ((populate.grammar.parse populating.arguments).toOption.any fun args =>
      (populate.roles args).toOption.any fun needed =>
        (settingsOf populating args).toOption.any fun settings =>
          (loadAccounts populating.keyring settings needed).toOption.any fun accounts =>
            (populate.phases args settings accounts (.null, .null)).toOption.any fun phases =>
              let script := scriptFor populating.node settings accounts
              (ranFresh populate script phases).1.toOption.any fun sent => sent.length = 29) =
        true := by decide +kernel
  obtain ⟨args, hargs, hall⟩ := exists_of_any hall
  obtain ⟨needed, hneeded, hall⟩ := exists_of_any hall
  obtain ⟨settings, -, hall⟩ := exists_of_any hall
  obtain ⟨accounts, hkeys, hall⟩ := exists_of_any hall
  obtain ⟨phases, hphases, hall⟩ := exists_of_any hall
  obtain ⟨sent, hsent, hlength⟩ := exists_of_any hall
  obtain ⟨-, -, hfinds⟩ := finds_every_role (ν := Sequential.State) populate hargs hneeded hkeys
  obtain ⟨hserved, hrun⟩ := hfinds _ _ hphases
  exact ⟨args, needed, settings, accounts, phases, hargs, hneeded, hkeys, hphases, hserved,
    hrun _ rfl, sent, _, Prod.ext hsent rfl, of_decide_eq_true hlength⟩

/-- A transaction of the overlord's whose status is left with an empty list. -/
def statusless : Host Sequential.State Value where
  arguments := ["set-status", "--status-type=--"]
  environment := ⟨[("OVERLORD_PRIVKEY", "//Bob")]⟩
  files := {}
  keyring := {}
  node := Sequential.node {}
  obstacle := none

set_option maxRecDepth 100000 in
/-- **An option that is left with an empty list stops its builder**, though the command line was
read and all keys were loaded. -/
theorem statusless_not_built :
    ∃ args settings needed accounts f,
      transact.grammar.parse statusless.arguments = .ok args ∧
      settingsOf statusless args = .ok settings ∧ transact.roles args = .ok needed ∧
      loadAccounts statusless.keyring settings needed = .ok accounts ∧
      transact.phases args settings accounts (.null, .null) = .error f ∧ f.kind = "ValueError" := by
  have hall : ((transact.grammar.parse statusless.arguments).toOption.any fun args =>
      (settingsOf statusless args).toOption.any fun settings =>
        (transact.roles args).toOption.any fun needed =>
          (loadAccounts statusless.keyring settings needed).toOption.any fun accounts =>
            match transact.phases args settings accounts (.null, .null) with
            | .ok _ => false
            | .error f => f.kind = "ValueError") = true := by decide +kernel
  obtain ⟨args, hargs, hall⟩ := exists_of_any hall
  obtain ⟨settings, hsettings, hall⟩ := exists_of_any hall
  obtain ⟨needed, hneeded, hall⟩ := exists_of_any hall
  obtain ⟨accounts, hkeys, hall⟩ := exists_of_any hall
  cases hphases : transact.phases args settings accounts (.null, .null) with
  | ok phases =>
    rw [hphases] at hall
    cases hall
  | error f =>
    rw [hphases] at hall
    exact ⟨args, settings, needed, accounts, f, hargs, hsettings, hneeded, hkeys, hphases,
      of_decide_eq_true hall⟩

end Line

end Command

end Campaign
