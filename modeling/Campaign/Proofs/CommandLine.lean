import Campaign.Command.Program
import Campaign.Proofs.Resolution

/-!
# Command lines carry out their plans

Five commands submit.  Each reads its command line and its settings, loads keys, connects, builds
phases and runs them, and closes the connection; what fails on the way ends it with a fault, and
`Command.run` makes a status of the end.  `Line.carries_plan` says for all of them what the node has
taken by then: a prefix of the plan of the phases that were built, and with status 0 all of it.

Everything but the run itself is idle: it attempts nothing and tracks nothing.  `Act.ComesTo` says
that an action does idle work and then fails or goes on from some state as told; `comesTo_bind`
passes it along a sequence, so that each command is gone through line by line.
-/

namespace Campaign

open Act History

variable {ν τ σ α β : Type}

/-! ### Idle work -/

/-- Nothing is signed or handed in, and no account is tracked. -/
def Event.Idle (x : Event τ) : Prop := x.attempt? = none ∧ x.tracked? = none

/-- The chain is left alone: nothing is signed or handed in, no call is composed, and no stored
value is read, so no nonce either. -/
def Event.Harmless : Event τ → Prop
  | .queried _ _ _ _ | .composed _ _ _ _ | .signed _ _ | .submitted _ _ => False
  | .noticed (.nonceRead _ _) => False
  | _ => True

theorem Event.Harmless.idle {x : Event τ} (h : x.Harmless) : x.Idle := by
  cases x with
  | noticed n => cases n <;> first | exact ⟨rfl, rfl⟩ | exact h.elim
  | _ => first | exact ⟨rfl, rfl⟩ | exact h.elim

/-- An action, from a state, stays in `R` and fails, or gets to a state from which it ends as `Q`
says. -/
def Act.ComesTo (R : σ → σ → Prop) (Q : σ → Except Fault α → σ → Prop) (act : Act σ α) (s : σ) :
    Prop :=
  ∀ t out, act.runOn s = (out, t) → (R s t ∧ ∃ f, out = .error f) ∨ ∃ m, R s m ∧ Q m out t

namespace Act

variable {R : σ → σ → Prop} {Q : σ → Except Fault α → σ → Prop} {s : σ}

theorem ComesTo.imp {Q' : σ → Except Fault α → σ → Prop} {act : Act σ α}
    (h : ComesTo R Q act s) (hQ : ∀ m out t, Q m out t → Q' m out t) : ComesTo R Q' act s :=
  fun t out hrun => (h t out hrun).imp_right fun ⟨m, hm, hend⟩ => ⟨m, hm, hQ m out t hend⟩

variable [IsPreorder σ R]

theorem comesTo_bind {act : Act σ β} {next : β → Act σ α} (h : Keeps R act)
    (hnext : ∀ b m, act.runOn s = (.ok b, m) → ComesTo R Q (next b) m) :
    ComesTo R Q (act >>= next) s := by
  intro t out hrun
  rcases bind_cases hrun with ⟨b, m, hb, hn⟩ | ⟨f, hf, rfl⟩
  · have hsm : R s m := h.of_runOn hb
    rcases hnext b m hb t out hn with ⟨hmt, hfails⟩ | ⟨k, hk, hQ⟩
    · exact Or.inl ⟨trans_of R hsm hmt, hfails⟩
    · exact Or.inr ⟨k, trans_of R hsm hk, hQ⟩
  · exact Or.inl ⟨h.of_runOn hf, f, rfl⟩

theorem comesTo_ofExcept {r : Except Fault β} {next : β → Act σ α}
    (hnext : ∀ b, r = .ok b → ComesTo R Q (next b) s) : ComesTo R Q (ofExcept r >>= next) s := by
  refine comesTo_bind (keeps_ofExcept r) fun b m hb => ?_
  rw [runOn_ofExcept] at hb
  obtain ⟨hr, rfl⟩ := Prod.mk.inj hb
  exact hnext b hr

theorem keeps_forM {act : β → Act σ Unit} (h : ∀ b, Keeps R (act b)) :
    ∀ bs : List β, Keeps R (bs.forM act) := by
  intro bs
  induction bs with
  | nil => exact keeps_pure ()
  | cons b bs ih => exact keeps_bind (h b) fun _ => ih

end Act

namespace Session

/-- Work that changes the world alone, and adds events of one kind to its history. -/
def Shows (P : Event τ → Prop) (s t : Session ν τ) : Prop :=
  Adds P s t ∧ t = { s with world := t.world }

instance {P : Event τ → Prop} : IsPreorder (Session ν τ) (Shows P) where
  refl s := ⟨refl_of (Adds P) s, rfl⟩
  trans s t u h g := by
    refine ⟨trans_of (Adds P) h.1 g.1, ?_⟩
    rw [g.2, h.2]

theorem shows_inWorld {P : Event τ → Prop} {act : Act (World ν τ) α}
    (h : Keeps (World.Adds P) act) : Keeps (Shows P) (inWorld act) :=
  keeps_within fun s => ⟨h s.world, rfl⟩

/-- Idle work that changes the world alone. -/
def Prelude (s t : Session ν τ) : Prop := Adds Event.Idle s t ∧ t = { s with world := t.world }

instance : IsPreorder (Session ν τ) Prelude :=
  inferInstanceAs (IsPreorder (Session ν τ) (Shows Event.Idle))

theorem prelude_of_shows {act : Act (Session ν τ) α} (h : Keeps (Shows Event.Harmless) act) :
    Keeps Prelude act := fun s => ⟨(h s).1.mono fun _ hx => hx.idle, (h s).2⟩

end Session

namespace Command

theorem adds_print {P : Event τ → Prop} (h : ∀ text, P (.printed text)) (line : String) :
    Keeps (World.Adds P) (World.print (ν := ν) line) := fun _ => History.grows_cons _ (h _)

theorem adds_banner {P : Event τ → Prop} (h : ∀ text, P (.printed text)) (title : Value) :
    Keeps (World.Adds P) (banner (ν := ν) title) :=
  keeps_bind (adds_print h _) fun _ => keeps_bind (adds_print h _) fun _ => adds_print h _

theorem adds_setUpLog {P : Event τ → Prop} (h : ∀ threshold, P (.logging threshold))
    (level : String) : Keeps (World.Adds P) (setUpLog (ν := ν) level) := by
  refine keeps_bind (fun _ => History.grows_cons _ (h _)) fun _ => ?_
  split
  · exact keeps_throw _
  · exact fun _ => History.grows_cons _ (h _)

theorem harmless_print (line : String) :
    Keeps (World.Adds Event.Harmless) (World.print (ν := ν) (τ := τ) line) :=
  adds_print (fun _ => trivial) line

theorem harmless_banner (title : Value) :
    Keeps (World.Adds Event.Harmless) (banner (ν := ν) (τ := τ) title) :=
  adds_banner (fun _ => trivial) title

theorem harmless_setUpLog (level : String) :
    Keeps (World.Adds Event.Harmless) (setUpLog (ν := ν) (τ := τ) level) :=
  adds_setUpLog (fun _ => trivial) level

theorem harmless_connect (node : Node ν τ) (url : Value) (obstacle : Option Fault) :
    Keeps (World.Adds Event.Harmless) (Client.connect node url obstacle) := by
  refine keeps_bind (adds_note trivial) fun _ => ?_
  cases obstacle with
  | some f => exact keeps_throw f
  | none =>
    exact keeps_bind (fun _ => History.grows_cons _ trivial) fun _ => adds_note trivial

theorem idle_of_harmless {act : Act (World ν τ) α} (h : Keeps (World.Adds Event.Harmless) act) :
    Keeps (World.Adds Event.Idle) act := fun w => (h w).mono fun _ hx => hx.idle

theorem idle_print (line : String) :
    Keeps (World.Adds Event.Idle) (World.print (ν := ν) (τ := τ) line) :=
  idle_of_harmless (harmless_print line)

theorem idle_banner (title : Value) :
    Keeps (World.Adds Event.Idle) (banner (ν := ν) (τ := τ) title) :=
  idle_of_harmless (harmless_banner title)

theorem idle_setUpLog (level : String) :
    Keeps (World.Adds Event.Idle) (setUpLog (ν := ν) (τ := τ) level) :=
  idle_of_harmless (harmless_setUpLog level)

theorem shows_say (line : String) :
    Keeps (Session.Shows Event.Harmless) (say (ν := ν) (τ := τ) line) :=
  Session.shows_inWorld (harmless_print line)

theorem prelude_say (line : String) : Keeps Session.Prelude (say (ν := ν) (τ := τ) line) :=
  Session.prelude_of_shows (shows_say line)

theorem prelude_announce (role : Value) (sent : Sent) :
    Keeps Session.Prelude (Transact.announce (ν := ν) (τ := τ) role sent) := by
  refine keeps_bind (prelude_say _) fun _ => ?_
  split
  · exact keeps_pure _
  · exact keeps_pure _
  · exact prelude_say _

theorem accounted_of_idle {h : History τ} (hidle : ∀ x ∈ h, x.Idle) : Accounted .empty h := by
  induction h with
  | nil => exact .nil
  | cons x h ih =>
    have hx := hidle x (by simp)
    exact (ih fun y hy => hidle y (by simp [hy])).cons_plain hx.1 hx.2

variable {host : Host ν τ} {args : Arguments} {script : Script ν τ}

/-! ### Sessions -/

/-- A body in a session that is new, as an action on the world. -/
def fromNew (body : Act (Session ν τ) α) : Act (World ν τ) α := fun w =>
  match body { world := w } with
  | .ok a s => .ok a s.world
  | .error f s => .error f s.world

theorem runOn_fromNew (body : Act (Session ν τ) α) (w : World ν τ) :
    (fromNew body).runOn w =
      ((body.runOn { world := w }).1, (body.runOn { world := w }).2.world) := by
  simp only [runOn, fromNew]
  cases body { world := w } <;> rfl

/-- A command with a session of its own connects, runs the body from a session that is new, and
closes the connection. -/
theorem comesTo_withSession {settings : Settings τ} {body : Act (Session ν τ) α} {w : World ν τ} :
    ComesTo (World.Adds Event.Idle)
      (fun m out v => ∃ s, body.runOn { world := m } = (out, s) ∧
        v.journal = .closed :: s.world.journal) (withSession host settings body) w := by
  have hsession : withSession host settings body =
      Client.withConnection host.node settings.endpoint host.obstacle (fromNew body) := rfl
  rw [hsession, Client.withConnection]
  refine comesTo_bind (idle_of_harmless (harmless_connect _ _ _)) fun _ m _ v out h =>
    Or.inr ⟨m, refl_of _ m, ?_⟩
  rcases hrun : body.runOn { world := m } with ⟨r, s⟩
  rw [runOn_bind_ok (runOn_attempt _ m), runOn_fromNew, hrun,
    runOn_bind_ok (t := { s.world with journal := .closed :: s.world.journal }) rfl,
    runOn_ofExcept] at h
  obtain ⟨rfl, rfl⟩ := Prod.mk.inj h
  exact ⟨s, rfl, rfl⟩

/-- Starting roles attempts nothing. -/
theorem unattempted_of_start {roles : List Value} {w : World ν τ} {t : Session ν τ}
    {out : Except Fault (Table Value Int)} (hidle : ∀ x ∈ w.journal, x.Idle)
    (h : (script.startRoles .empty roles).runOn { world := w } = (out, t)) :
    ∀ x ∈ t.world.journal, x.attempt? = none := by
  intro x hx
  obtain ⟨new, hnew, hquiet⟩ := (Script.adds_startRoles roles .empty).of_runOn h
  rw [hnew] at hx
  rcases List.mem_append.mp hx with hx | hx
  · exact (hquiet x hx).1
  · exact (hidle x hx).1

/-- How a session of a command ends: nothing was attempted, and it is not complete; or phases were
built and carried out. -/
def Ends (script : Script ν τ) (phases : Except Fault (List (Phase τ))) (complete : Prop)
    (h : History τ) : Prop :=
  (¬ complete ∧ ∀ x ∈ h, x.attempt? = none) ∨
    ∃ ps, phases = .ok ps ∧ script.Carries ps complete h

theorem Ends.mono {phases : Except Fault (List (Phase τ))} {complete less : Prop} {h g : History τ}
    (hends : Ends script phases complete h) (hless : less → complete)
    (hgrow : History.Grows (fun x => x.attempt? = none) h g) : Ends script phases less g := by
  rcases hends with ⟨hfails, hnone⟩ | ⟨ps, hps, hcarries⟩
  · refine Or.inl ⟨fun hl => hfails (hless hl), fun x hx => ?_⟩
    obtain ⟨new, rfl, hnew⟩ := hgrow
    exact (List.mem_append.mp hx).elim (hnew x) (hnone x)
  · exact Or.inr ⟨ps, hps, hcarries.mono hless hgrow⟩

/-- What a status says of the end of a command: 0 is given for a result only, and a program has it
only then, or when something outside has asked for help to be shown. -/
theorem run_cases {body : Act (World ν τ) α} {w v : World ν τ} {out : Except Fault Nat}
    (h : (run body).runOn w = (out, v)) :
    ∃ r m, body.runOn w = (r, m) ∧
      History.Grows (fun x => x.attempt? = none) m.journal v.journal ∧
      (out = .ok 0 → ∃ a, r = .ok a) ∧
      ((Ending.ofOutcome out).status = 0 → out = .ok 0 ∨ out = .error .helpShown) := by
  rcases hbody : body.runOn w with ⟨r, m⟩
  have hnoted : ∀ n : Notice τ, History.Grows (fun x => x.attempt? = none) m.journal
      (m.noted n).journal := fun n => History.grows_cons _ rfl
  rw [run, runOn_bind_ok (runOn_attempt _ w), hbody] at h
  refine ⟨r, m, rfl, ?_⟩
  dsimp only at h
  split at h
  · obtain ⟨rfl, rfl⟩ := Prod.mk.inj h
    exact ⟨refl_of _ _, fun _ => ⟨_, rfl⟩, fun _ => Or.inl rfl⟩
  · rw [runOn_bind_ok (World.runOn_note _ m)] at h
    obtain ⟨rfl, rfl⟩ := Prod.mk.inj h
    exact ⟨hnoted _, nofun, nofun⟩
  · rename_i f _
    split at h
    · rw [runOn_bind_ok (World.runOn_note _ m)] at h
      obtain ⟨rfl, rfl⟩ := Prod.mk.inj h
      exact ⟨hnoted _, nofun, nofun⟩
    · obtain ⟨rfl, rfl⟩ := Prod.mk.inj h
      refine ⟨refl_of _ _, nofun, fun hstatus => Or.inr ?_⟩
      cases f <;> first | rfl | cases hstatus

/-! ### Divisions -/

namespace Drawing

/-- How a drawing divides ids: as the arguments say, or as they are drawn from the pending preorders
that the node has answered with. -/
def Divides (host : Host ν τ) (args : Arguments) (pallets : Pallets) (h : History τ)
    (sides : Value × Value) : Prop :=
  match argument args "winners" with
  | .null => sides = (idsOf args "chosen" Plan.chosenPreorders,
      idsOf args "not_chosen" Plan.notChosenPreorders)
  | winners => ∃ entries pending chosen notChosen,
      .mapQueried pallets.sale "Preorders" (.list []) (.ok entries) ∈ h ∧
        Inquiry.tableOf entries = .ok pending ∧
        Draw.split pending.keys winners (argument args "seed") host.entropy =
          .ok (chosen, notChosen) ∧
        sides = (.list chosen, .list notChosen)

theorem Divides.mono {pallets : Pallets} {h g : History τ} {sides : Value × Value}
    (hdivides : Divides host args pallets h sides) (hhg : h <:+ g) :
    Divides host args pallets g sides := by
  unfold Divides at hdivides ⊢
  split at hdivides
  · exact hdivides
  · obtain ⟨entries, pending, chosen, notChosen, hmem, hrest⟩ := hdivides
    exact ⟨entries, pending, chosen, notChosen, hhg.mem hmem, hrest⟩

theorem shows_division (pallets : Pallets) :
    Keeps (Session.Shows Event.Harmless) (division host pallets args) := by
  unfold division
  split
  · exact keeps_pure _
  · refine keeps_bind (Session.shows_inWorld fun w => ?_) fun pending => ?_
    · rw [Inquiry.runOn_pendingPreorders rfl]
      exact History.grows_cons _ trivial
    · refine keeps_bind (shows_say _) fun _ => ?_
      exact keeps_bind (keeps_ofExcept _) fun _ => keeps_pure _

theorem divides_of_division {pallets : Pallets} {s t : Session ν τ} {sides : Value × Value}
    (h : (division host pallets args).runOn s = (.ok sides, t)) :
    Divides host args pallets t.world.journal sides := by
  unfold division at h
  split at h
  · rename_i hwinners
    obtain ⟨hsides, -⟩ := Prod.mk.inj h
    rw [Divides, hwinners]
    exact (Except.ok.inj hsides).symm
  · rename_i hwinners
    obtain ⟨pending, m, hpending, h⟩ := ok_of_bind h
    rcases hanswer : (host.node.queryMap s.world.clock.now pallets.sale "Preorders"
      (.list [])).runOn s.world.node with ⟨answer, n⟩
    rw [Session.runOn_inWorld, Inquiry.runOn_pendingPreorders hanswer] at hpending
    obtain ⟨htable, rfl⟩ := Prod.mk.inj hpending
    obtain ⟨_, k, hsay, h⟩ := ok_of_bind h
    obtain ⟨⟨chosen, notChosen⟩, k', hdrawn, h⟩ := ok_of_bind h
    rw [runOn_ofExcept] at hdrawn
    obtain ⟨hsplit, rfl⟩ := Prod.mk.inj hdrawn
    obtain ⟨hsides, rfl⟩ := Prod.mk.inj h
    obtain rfl := Except.ok.inj hsides
    cases answer with
    | error f => cases htable
    | ok entries =>
      unfold Divides
      split
      · rename_i hnull
        exact absurd hnull hwinners
      · refine ⟨entries, pending, chosen, notChosen, ?_, htable, hsplit, rfl⟩
        exact ((prelude_say _).of_runOn hsay).1.suffix.mem List.mem_cons_self

end Drawing

variable [Seconds τ]

/-- The settings that a command reads. -/
def settingsOf (host : Host ν τ) (args : Arguments) : Except Fault (Settings τ) :=
  (Settings.load host.environment host.files true).2.map fun s =>
    if (argument args "endpoint").truthy then { s with endpoint := argument args "endpoint" } else s

theorem comesTo_hostSettings {Q : World ν τ → Except Fault α → World ν τ → Prop}
    {next : Settings τ → Act (World ν τ) α} {w : World ν τ}
    (hnext : ∀ settings m, settingsOf host args = .ok settings →
      ComesTo (World.Adds Event.Idle) Q (next settings) m) :
    ComesTo (World.Adds Event.Idle) Q (hostSettings host args >>= next) w := by
  rw [hostSettings, settingsFor, bind_assoc]
  refine comesTo_ofExcept fun settings hsettings => ?_
  rw [bind_assoc]
  refine comesTo_bind (idle_setUpLog _) fun _ m _ => ?_
  rw [pure_bind]
  exact hnext _ m (by rw [settingsOf, hsettings]; rfl)

/-- A new session that has started some roles carries out the phases that it runs. -/
theorem carries_of_started {roles : List Value} {phases : List (Phase τ)} {w : World ν τ}
    {m t : Session ν τ} {started : Except Fault (Table Value Int)} {out : Except Fault (List Sent)}
    (hidle : ∀ x ∈ w.journal, x.Idle)
    (hstart : (script.startRoles .empty roles).runOn { world := w } = (started, m))
    (hrun : (script.run phases).runOn m = (out, t)) :
    script.Carries phases (∃ sent, out = .ok sent) t.world.journal := by
  have hnone := unattempted_of_start hidle hstart
  have hmoves : Session.Moves script.node { world := w } m := by
    refine Script.moves_startRoles roles .empty (fun _ _ a _ => ?_) hstart
    intro x hx e he
    rw [(hidle x hx).1] at he
    cases he
  exact Script.carries_of_run hrun ((accounted_of_idle hidle).moves hmoves) hnone

theorem ends_of_play {phases : Except Fault (List (Phase τ))} {w : World ν τ} {t : Session ν τ}
    {out : Except Fault Nat} (hidle : ∀ x ∈ w.journal, x.Idle)
    (h : (play script phases).runOn { world := w } = (out, t)) :
    Ends script phases (∃ n, out = .ok n) t.world.journal := by
  rcases Script.play_cases h with ⟨f, hs, rfl⟩ |
    ⟨started, m, hs, ⟨f, -, rfl, rfl⟩ | ⟨ps, sent, rfl, hrun, rfl⟩⟩
  · exact Or.inl ⟨nofun, unattempted_of_start hidle hs⟩
  · exact Or.inl ⟨nofun, unattempted_of_start hidle hs⟩
  · refine Or.inr ⟨ps, rfl, (carries_of_started hidle hs hrun).mono ?_ (refl_of _ _)⟩
    rintro ⟨n, hn⟩
    cases sent with
    | error f => cases hn
    | ok sent => exact ⟨sent, rfl⟩

/-- The line that is printed when all is done changes nothing. -/
theorem ends_of_play_say {phases : Except Fault (List (Phase τ))} {line : Nat → String}
    {w : World ν τ} {t : Session ν τ} {out : Except Fault Unit} (hidle : ∀ x ∈ w.journal, x.Idle)
    (h : (play script phases >>= fun count => say (line count)).runOn { world := w } = (out, t)) :
    Ends script phases (∃ u, out = .ok u) t.world.journal := by
  rcases bind_cases h with ⟨count, m, hplay, hsay⟩ | ⟨f, hplay, rfl⟩
  · refine (ends_of_play hidle hplay).mono (fun _ => ⟨count, rfl⟩) ?_
    exact History.Grows.mono ((prelude_say _).of_runOn hsay).1 fun _ hx => hx.1
  · exact (ends_of_play hidle hplay).mono nofun (refl_of _ _)

theorem suffix_play_say {phases : Except Fault (List (Phase τ))} {line : Nat → String}
    {s t : Session ν τ} {out : Except Fault Unit}
    (h : (play script phases >>= fun count => say (line count)).runOn s = (out, t)) :
    s.world.journal <:+ t.world.journal := by
  rcases bind_cases h with ⟨_, m, hplay, hsay⟩ | ⟨_, hplay, -⟩
  · exact (Script.suffix_play hplay).trans ((prelude_say _).of_runOn hsay).1.suffix
  · exact Script.suffix_play hplay

/-! ### The commands -/

/-- The command lines that submit. -/
inductive Line where
  | prepare
  | populate
  | incubate
  | draw
  | transact
  deriving DecidableEq

namespace Line

/-- The name of the program. -/
def name : Line → String
  | prepare => "init"
  | populate => "populate_dummy_data"
  | incubate => "incubation_process"
  | draw => "preorder_drawing"
  | transact => "transactions"

/-- What the words of the command line may be. -/
def grammar : Line → Grammar
  | prepare => Initialize.grammar
  | populate => Populate.grammar
  | incubate => Incubate.grammar
  | draw => Drawing.grammar
  | transact => Transact.grammar

/-- What the command does. -/
def perform (host : Host ν τ) : Line → Act (World ν τ) Unit
  | prepare => Initialize.perform host
  | populate => Populate.perform host
  | incubate => Incubate.perform host
  | draw => Drawing.perform host
  | transact => Transact.perform host

/-- The command is the program of its name. -/
theorem start?_name (line : Line) (w : World ν τ) :
    start? line.name host w = some (.ofOutcome ((run (line.perform host)).runOn w).1,
      ((run (line.perform host)).runOn w).2) := by
  cases line <;> rfl

/-- The roles whose keys the command loads. -/
def roles (args : Arguments) : Line → Except Fault (List Value)
  | prepare => .ok ["root", "overlord"]
  | populate | incubate => .ok (Campaign.roles.map .text)
  | draw => .ok ["overlord"]
  | transact => Transact.rolesFor (argument args "cmd").shown (Plan.Transaction.roleOf args)

/-- The phases that the command's builder returns, which in a drawing get the ids to mint and to
refund. -/
def phases (args : Arguments) (settings : Settings τ) (accounts : Roster)
    (division : Value × Value) : Line → Except Fault (List (Phase τ))
  | prepare => Initialize.phases settings accounts args
  | populate => .ok (Populate.phases settings accounts)
  | incubate => .ok (Incubate.phases settings args)
  | draw => Plan.drawing division.1 division.2 settings.pallets
  | transact => (Plan.Transaction.stepOf settings.pallets accounts args).map
      (Plan.single (argument args "cmd").shown)

/-- How a command ends whose arguments are read: nothing was attempted, and it is not complete; or
it has built phases, from its settings and keys, and carried them out. -/
def EndsWith (line : Line) (host : Host ν τ) (args : Arguments) (complete : Prop) (h : History τ) :
    Prop :=
  (¬ complete ∧ ∀ x ∈ h, x.attempt? = none) ∨
    ∃ settings needed accounts division phases, settingsOf host args = .ok settings ∧
      line.roles args = .ok needed ∧ loadAccounts host.keyring settings needed = .ok accounts ∧
      (line = draw → Drawing.Divides host args settings.pallets h division) ∧
      line.phases args settings accounts division = .ok phases ∧
      (scriptFor host.node settings accounts).Carries phases complete h

theorem EndsWith.mono {line : Line} {complete less : Prop} {h g : History τ}
    (hends : line.EndsWith host args complete h) (hless : less → complete)
    (hgrow : History.Grows (fun x => x.attempt? = none) h g) : line.EndsWith host args less g := by
  rcases hends with ⟨hfails, hnone⟩ | ⟨settings, needed, accounts, division, ps, hsettings, hneeded,
    haccounts, hdivides, hps, hcarries⟩
  · refine Or.inl ⟨fun hl => hfails (hless hl), fun x hx => ?_⟩
    obtain ⟨new, rfl, hnew⟩ := hgrow
    exact (List.mem_append.mp hx).elim (hnew x) (hnone x)
  · exact Or.inr ⟨settings, needed, accounts, division, ps, hsettings, hneeded, haccounts,
      fun hline => (hdivides hline).mono hgrow.suffix, hps, hcarries.mono hless hgrow⟩

/-- What a session has come to, the command has come to. -/
theorem endsWith_of_ends {line : Line} {settings : Settings τ} {needed : List Value}
    {accounts : Roster} {division : Value × Value} {complete : Prop} {h : History τ}
    (hsettings : settingsOf host args = .ok settings) (hneeded : line.roles args = .ok needed)
    (haccounts : loadAccounts host.keyring settings needed = .ok accounts)
    (hdivides : line = draw → Drawing.Divides host args settings.pallets h division)
    (hends : Ends (scriptFor host.node settings accounts)
      (line.phases args settings accounts division) complete h) :
    line.EndsWith host args complete h := by
  rcases hends with hnothing | ⟨ps, hps, hcarries⟩
  · exact Or.inl hnothing
  · exact Or.inr ⟨settings, needed, accounts, division, ps, hsettings, hneeded, haccounts,
      hdivides, hps, hcarries⟩

/-- What a command comes to, when the world it begins in has been idle. -/
abbrev Comes (line : Line) (host : Host ν τ) (args : Arguments) (act : Act (World ν τ) Unit)
    (w : World ν τ) : Prop :=
  ComesTo (World.Adds Event.Idle)
    (fun m out v => (∀ x ∈ m.journal, x.Idle) →
      line.EndsWith host args (∃ u, out = .ok u) v.journal) act w

variable {w : World ν τ} {settings : Settings τ} {needed : List Value} {accounts : Roster}

/-- A command that is no drawing comes to what its session comes to. -/
theorem comes_withSession {line : Line} {body : Act (Session ν τ) Unit} (hdraw : line ≠ draw)
    (hsettings : settingsOf host args = .ok settings) (hneeded : line.roles args = .ok needed)
    (haccounts : loadAccounts host.keyring settings needed = .ok accounts)
    (hbody : ∀ w out t, (∀ x ∈ w.journal, x.Idle) → body.runOn { world := w } = (out, t) →
      Ends (scriptFor host.node settings accounts)
        (line.phases args settings accounts (.null, .null)) (∃ u, out = .ok u) t.world.journal) :
    Comes line host args (withSession host settings body) w := by
  refine comesTo_withSession.imp fun m out v hends hidle => ?_
  obtain ⟨t, hrun, hv⟩ := hends
  have hends : line.EndsWith host args (∃ u, out = .ok u) t.world.journal :=
    endsWith_of_ends hsettings hneeded haccounts (fun hline => absurd hline hdraw)
      (hbody m out t hidle hrun)
  rw [hv]
  exact hends.mono id (History.grows_cons _ rfl)

theorem comes_prepare (hargs : Initialize.grammar.parse host.arguments = .ok args) :
    Comes prepare host args (Initialize.perform host) w := by
  refine comesTo_ofExcept fun args' hargs' => ?_
  obtain rfl : args = args' := Except.ok.inj (hargs.symm.trans hargs')
  refine comesTo_hostSettings fun settings _ hsettings => ?_
  refine comesTo_bind (idle_banner _) fun _ _ _ => ?_
  refine comesTo_ofExcept fun accounts haccounts => ?_
  refine comesTo_ofExcept fun _ _ => ?_
  refine comesTo_bind (idle_print _) fun _ _ _ => ?_
  refine comesTo_ofExcept fun _ _ => ?_
  refine comesTo_bind (idle_print _) fun _ _ _ => ?_
  exact comes_withSession nofun hsettings rfl haccounts fun _ _ _ => ends_of_play_say

theorem comes_populate (hargs : Populate.grammar.parse host.arguments = .ok args) :
    Comes populate host args (Populate.perform host) w := by
  refine comesTo_ofExcept fun args' hargs' => ?_
  obtain rfl : args = args' := Except.ok.inj (hargs.symm.trans hargs')
  refine comesTo_hostSettings fun settings _ hsettings => ?_
  refine comesTo_bind (idle_banner _) fun _ _ _ => ?_
  refine comesTo_ofExcept fun accounts haccounts => ?_
  refine comesTo_bind (keeps_forM (fun _ => idle_print _) _) fun _ _ _ => ?_
  exact comes_withSession nofun hsettings rfl haccounts fun _ _ _ => ends_of_play_say

theorem comes_incubate (hargs : Incubate.grammar.parse host.arguments = .ok args) :
    Comes incubate host args (Incubate.perform host) w := by
  refine comesTo_ofExcept fun args' hargs' => ?_
  obtain rfl : args = args' := Except.ok.inj (hargs.symm.trans hargs')
  refine comesTo_hostSettings fun settings _ hsettings => ?_
  refine comesTo_bind (idle_banner _) fun _ _ _ => ?_
  refine comesTo_ofExcept fun accounts haccounts => ?_
  exact comes_withSession nofun hsettings rfl haccounts fun _ _ _ => ends_of_play_say

theorem comes_transact (hargs : Transact.grammar.parse host.arguments = .ok args) :
    Comes transact host args (Transact.perform host) w := by
  refine comesTo_ofExcept fun args' hargs' => ?_
  obtain rfl : args = args' := Except.ok.inj (hargs.symm.trans hargs')
  refine comesTo_hostSettings fun settings _ hsettings => ?_
  refine comesTo_bind (idle_banner _) fun _ _ _ => ?_
  refine comesTo_ofExcept fun needed hneeded => ?_
  refine comesTo_ofExcept fun accounts haccounts => ?_
  refine comesTo_ofExcept fun step hstep => ?_
  refine comes_withSession nofun hsettings hneeded haccounts fun w out t hidle hrun => ?_
  have hphases : transact.phases args settings accounts (.null, .null) =
      .ok (Plan.single (argument args "cmd").shown step) := by
    rw [phases, hstep]
    rfl
  rw [hphases]
  have hsome : (scriptFor host.node settings accounts).startSome (.list [step.account]) =
      (scriptFor host.node settings accounts).startRoles .empty [step.account] := rfl
  rcases bind_cases hrun with ⟨started, m, hstart, hrun⟩ | ⟨f, hstart, rfl⟩
  · rw [hsome] at hstart
    rcases bind_cases hrun with ⟨sent, k, hsent, hrun⟩ | ⟨f, hsent, rfl⟩
    · refine Or.inr ⟨_, rfl, ?_⟩
      have hsaid : Session.Prelude k t := by
        split at hrun
        · exact (keeps_throw _).of_runOn hrun
        · exact (prelude_announce _ _).of_runOn hrun
      exact (carries_of_started hidle hstart hsent).mono (fun _ => ⟨sent, rfl⟩)
        (History.Grows.mono hsaid.1 fun _ hx => hx.1)
    · refine Or.inr ⟨_, rfl, ?_⟩
      exact (carries_of_started hidle hstart hsent).mono nofun (refl_of _ _)
  · rw [hsome] at hstart
    exact Or.inl ⟨nofun, unattempted_of_start hidle hstart⟩

/-- The part of a drawing that runs its phases, once ids are divided and keys are loaded. -/
def Draws (host : Host ν τ) (args : Arguments) (settings : Settings τ) (m : Session ν τ)
    (out : Except Fault Unit) (t : Session ν τ) : Prop :=
  ∃ division accounts ps, Drawing.Divides host args settings.pallets m.world.journal division ∧
    loadAccounts host.keyring settings ["overlord"] = .ok accounts ∧
    Plan.drawing division.1 division.2 settings.pallets = .ok ps ∧
    (play (scriptFor host.node settings accounts) (.ok ps) >>= fun _ =>
      say "✅ Preorders resolved").runOn m = (out, t)

/-- Once ids are divided, a drawing that is no dry run comes to its phases. -/
theorem comesTo_draws {rest : Value × Value → Act (Session ν τ) Unit}
    (hrest : ∀ chosen notChosen, rest (chosen, notChosen) = do
      say (← Act.ofExcept (Drawing.divisionText chosen notChosen))
      let phases ← Act.ofExcept (Plan.drawing chosen notChosen settings.pallets)
      if (argument args "dry_run").truthy then say "ℹ️  Dry run, nothing submitted"
      else do
        let accounts ← Act.ofExcept (loadAccounts host.keyring settings ["overlord"])
        let _ ← play (scriptFor host.node settings accounts) (.ok phases)
        say "✅ Preorders resolved")
    (hwet : (argument args "dry_run").truthy = false) (s : Session ν τ) :
    ComesTo Session.Prelude (Draws host args settings)
      (Drawing.division host settings.pallets args >>= rest) s := by
  refine comesTo_bind (Session.prelude_of_shows (Drawing.shows_division _))
    fun division k hdivision => ?_
  have hdivides := Drawing.divides_of_division hdivision
  obtain ⟨chosen, notChosen⟩ := division
  rw [hrest, hwet]
  refine comesTo_ofExcept fun _ _ => ?_
  refine comesTo_bind (prelude_say _) fun _ l hsay => ?_
  refine comesTo_ofExcept fun ps hps => ?_
  refine comesTo_ofExcept fun accounts haccounts => ?_
  intro t out hplay
  refine Or.inr ⟨l, refl_of _ l, (chosen, notChosen), accounts, ps, ?_, haccounts, hps, hplay⟩
  exact hdivides.mono ((prelude_say _).of_runOn hsay).1.suffix

theorem comes_draw (hargs : Drawing.grammar.parse host.arguments = .ok args)
    (hwet : (argument args "dry_run").truthy = false) :
    Comes draw host args (Drawing.perform host) w := by
  refine comesTo_ofExcept fun args' hargs' => ?_
  obtain rfl : args = args' := Except.ok.inj (hargs.symm.trans hargs')
  refine comesTo_hostSettings fun settings _ hsettings => ?_
  refine comesTo_bind (idle_banner _) fun _ _ _ => ?_
  refine comesTo_withSession.imp fun m out v hends hidle => ?_
  obtain ⟨t, hrun, hv⟩ := hends
  have hstill : ∀ k : Session ν τ, Session.Prelude { world := m } k →
      ∀ x ∈ k.world.journal, x.Idle := by
    intro k hk x hx
    obtain ⟨new, hnew, hall⟩ := hk.1
    rw [hnew] at hx
    exact (List.mem_append.mp hx).elim (hall x) (hidle x)
  suffices hends : draw.EndsWith host args (∃ u, out = .ok u) t.world.journal by
    rw [hv]
    exact hends.mono id (History.grows_cons _ rfl)
  rcases comesTo_draws (fun _ _ => rfl) hwet _ t out hrun with ⟨hprelude, f, rfl⟩ |
    ⟨k, hprelude, division, accounts, ps, hdivides, haccounts, hps, hplay⟩
  · exact Or.inl ⟨nofun, fun x hx => (hstill t hprelude x hx).1⟩
  · have hgrown : k.world.journal <:+ t.world.journal := suffix_play_say hplay
    have hidle' := hstill k hprelude
    have hnew : k = { world := k.world } := hprelude.2
    rw [hnew] at hplay
    refine endsWith_of_ends hsettings rfl haccounts (fun _ => hdivides.mono hgrown) ?_
    rw [phases, hps]
    exact ends_of_play_say hidle' hplay

/-- What a command comes to whose arguments are read; a drawing that is no dry run. -/
theorem comes (line : Line) (hargs : line.grammar.parse host.arguments = .ok args)
    (hwet : line = draw → (argument args "dry_run").truthy = false) :
    Comes line host args (line.perform host) w := by
  cases line with
  | prepare => exact comes_prepare hargs
  | populate => exact comes_populate hargs
  | incubate => exact comes_incubate hargs
  | draw => exact comes_draw hargs (hwet rfl)
  | transact => exact comes_transact hargs

end Line

/-- **A command that submits carries out its plan**, up to where it ends: the extrinsics that the
node has taken are those of the first submissions of the phases that were built, in order.  With
status 0 they are all of them, and every strict barrier has seen its target reached.  The node, the
keys, the settings and the clock may be any, and fail in any way. -/
theorem Line.carries_plan (line : Line)
    (hargs : line.grammar.parse host.arguments = .ok args)
    (hwet : line = .draw → (argument args "dry_run").truthy = false) {n : ν} {c : Clock τ}
    {out : Except Fault Nat} {v : World ν τ}
    (h : (run (line.perform host)).runOn { node := n, clock := c } = (out, v)) :
    start? line.name host { node := n, clock := c } = some (.ofOutcome out, v) ∧
      ((Ending.ofOutcome out).status = 0 → out = .ok 0 ∨ out = .error .helpShown) ∧
      line.EndsWith host args (out = .ok 0) v.journal := by
  obtain ⟨r, m, hperform, hgrow, hzero, hstatus⟩ := run_cases h
  refine ⟨?_, hstatus, ?_⟩
  · rw [line.start?_name, h]
  · rcases line.comes hargs hwet m r hperform with ⟨⟨new, hnew, hidle⟩, f, rfl⟩ |
      ⟨k, ⟨new, hnew, hidle⟩, hends⟩
    · have hfails : line.EndsWith host args False m.journal := by
        refine Or.inl ⟨id, fun x hx => ?_⟩
        rw [hnew, List.append_nil] at hx
        exact (hidle x hx).1
      exact hfails.mono (fun hok => nomatch hzero hok) hgrow
    · refine (hends fun x hx => ?_).mono hzero hgrow
      rw [hnew, List.append_nil] at hx
      exact hidle x hx

/-- A host with keys for root and the overlord, and a node that includes at once. -/
def preparing : Host Sequential.State Value where
  arguments := []
  environment := ⟨[("ROOT_PRIVKEY", "//Alice"), ("OVERLORD_PRIVKEY", "//Bob")]⟩
  files := {}
  keyring := {}
  node := Sequential.node {}
  obstacle := none

set_option maxRecDepth 10000 in
/-- A preparation with status 0: two extrinsics of root's, then seven of the overlord's. -/
theorem Line.carries_plan_preparing :
    let r := (run (Line.perform preparing .prepare)).runOn
      { node := .ofNonces .empty, clock := { now := .int 0 } }
    (∃ args, Line.prepare.grammar.parse preparing.arguments = .ok args ∧
        Line.prepare.EndsWith preparing args (r.1 = .ok 0) r.2.journal) ∧
      (Ending.ofOutcome r.1).status = 0 ∧
      (taken r.2.journal).map Extrinsic.nonce = [0, 1, 0, 1, 2, 3, 4, 5, 6] := by
  have hreads : (Line.prepare.grammar.parse preparing.arguments).isOk = true := by decide +kernel
  cases hargs : Line.prepare.grammar.parse preparing.arguments with
  | error f =>
    rw [hargs] at hreads
    cases hreads
  | ok args =>
    refine ⟨⟨args, rfl, (Line.carries_plan .prepare hargs nofun rfl).2.2⟩, ?_, ?_⟩
    · decide +kernel
    · decide +kernel

end Command

end Campaign
