import Campaign.Proofs.CommandLine
import Campaign.Proofs.Telling

/-!
# Connections are closed

A program opens a connection at most once, and what it asks of the node it asks in between: it
closes the connection however its work has ended, and asks nothing any more.  `History.Bracketed`
says that of a history, and `Act.Brackets` of an action, which may do things of its own before it
connects.  What is done while connected neither opens nor closes (`Event.Online`), and what is done
before does not call the node either (`Event.Offline`).

`Command.Concludes` says what status a program ends with and what it tells of its end.
-/

namespace Campaign

open Act

variable {ν τ α β : Type}

/-! ### Connections in a history -/

namespace Event

/-- The connection is neither opened nor closed. -/
def Online : Event τ → Prop
  | .connected _ | .closed => False
  | _ => True

/-- The connection is neither opened nor closed, and the node is not called. -/
def Offline : Event τ → Prop
  | .queried _ _ _ _ | .mapQueried _ _ _ _ | .composed _ _ _ _ | .signed _ _ | .submitted _ _
  | .connected _ | .closed => False
  | _ => True

theorem Offline.online {x : Event τ} (h : x.Offline) : x.Online := by
  cases x <;> first | exact trivial | exact h.elim

/-- A connection is opened. -/
def isOpening : Event τ → Bool
  | .connected _ => true
  | _ => false

/-- The connection is closed. -/
def isClosing : Event τ → Bool
  | .closed => true
  | _ => false

/-- While connected, nothing is opened or closed. -/
theorem countP_online {h : List (Event τ)} (honline : ∀ x ∈ h, x.Online) :
    h.countP isOpening = 0 ∧ h.countP isClosing = 0 := by
  have hnot : ∀ x : Event τ, x.Online → x.isOpening = false ∧ x.isClosing = false := by
    intro x hx
    cases x <;> first | exact ⟨rfl, rfl⟩ | exact hx.elim
  constructor
  · exact List.countP_eq_zero.mpr fun x hx => by simp [(hnot x (honline x hx)).1]
  · exact List.countP_eq_zero.mpr fun x hx => by simp [(hnot x (honline x hx)).2]

end Event

namespace History

/-- **A connection is opened at most once, and then closed once.**  All calls of the node come in
between.  It can only be opened if nothing is in the way. -/
inductive Bracketed (obstacle : Option Fault) : History τ → Prop
  | offline {h : History τ} (hoffline : ∀ x ∈ h, x.Offline) : Bracketed obstacle h
  | closed {before during after : History τ} (url : Value) (hclear : obstacle = none)
      (hbefore : ∀ x ∈ before, x.Offline) (hduring : ∀ x ∈ during, x.Online)
      (hafter : ∀ x ∈ after, x.Offline) :
      Bracketed obstacle (after ++ .closed :: (during ++ .connected url :: before))

variable {obstacle : Option Fault} {h new : History τ}

/-- A connection is opened at most once, and closed as often. -/
theorem Bracketed.counts (hh : Bracketed obstacle h) :
    h.countP Event.isClosing = h.countP Event.isOpening ∧ h.countP Event.isOpening ≤ 1 := by
  cases hh with
  | offline hoffline =>
    obtain ⟨hopening, hclosing⟩ := Event.countP_online fun x hx => (hoffline x hx).online
    simp [hopening, hclosing]
  | closed url _ hbefore hduring hafter =>
    obtain ⟨hopening, hclosing⟩ := Event.countP_online fun x hx => (hbefore x hx).online
    obtain ⟨hopening', hclosing'⟩ := Event.countP_online hduring
    obtain ⟨hopening'', hclosing''⟩ := Event.countP_online fun x hx => (hafter x hx).online
    simp [List.countP_cons, hopening, hclosing, hopening', hclosing', hopening'', hclosing'',
      Event.isOpening, Event.isClosing]

theorem Bracketed.append (hh : Bracketed obstacle h) {old : History τ}
    (hold : ∀ x ∈ old, x.Offline) : Bracketed obstacle (h ++ old) := by
  cases hh with
  | offline hoffline => exact .offline (List.forall_mem_append.mpr ⟨hoffline, hold⟩)
  | @closed before during after url hclear hbefore hduring hafter =>
    have hshape : after ++ .closed :: (during ++ .connected url :: before) ++ old =
        after ++ .closed :: (during ++ .connected url :: (before ++ old)) := by simp
    rw [hshape]
    exact .closed url hclear (List.forall_mem_append.mpr ⟨hbefore, hold⟩) hduring hafter

theorem Bracketed.grows {g : History τ} (hh : Bracketed obstacle h)
    (hgrow : Grows Event.Offline h g) : Bracketed obstacle g := by
  obtain ⟨new, rfl, hnew⟩ := hgrow
  cases hh with
  | offline hoffline => exact .offline (List.forall_mem_append.mpr ⟨hnew, hoffline⟩)
  | closed url hclear hbefore hduring hafter =>
    rw [← List.append_assoc]
    exact .closed url hclear hbefore hduring (List.forall_mem_append.mpr ⟨hnew, hafter⟩)

end History

/-- What an action adds to the history brackets its calls of the node. -/
def Act.Brackets (obstacle : Option Fault) (act : Act (World ν τ) α) : Prop :=
  ∀ w, ∃ new, (act.runOn w).2.journal = new ++ w.journal ∧ History.Bracketed obstacle new

namespace Act

variable {obstacle : Option Fault}

theorem brackets_of_offline {act : Act (World ν τ) α} (h : Keeps (World.Adds Event.Offline) act) :
    Brackets obstacle act := by
  intro w
  obtain ⟨new, hnew, hoffline⟩ := h w
  exact ⟨new, hnew, .offline hoffline⟩

theorem brackets_bind {act : Act (World ν τ) β} {next : β → Act (World ν τ) α}
    (h : Keeps (World.Adds Event.Offline) act) (hnext : ∀ b, Brackets obstacle (next b)) :
    Brackets obstacle (act >>= next) := by
  intro w
  rcases hact : act.runOn w with ⟨f | b, m⟩
  · rw [runOn_bind_error hact]
    obtain ⟨new, hnew, hoffline⟩ := h.of_runOn hact
    exact ⟨new, hnew, .offline hoffline⟩
  · rw [runOn_bind_ok hact]
    obtain ⟨old, hold, hoffline⟩ := h.of_runOn hact
    obtain ⟨new, hnew, hbracketed⟩ := hnext b m
    exact ⟨new ++ old, by rw [hnew, hold, List.append_assoc], hbracketed.append hoffline⟩

theorem brackets_ofExcept {r : Except Fault β} {next : β → Act (World ν τ) α}
    (hnext : ∀ b, Brackets obstacle (next b)) : Brackets obstacle (ofExcept r >>= next) :=
  brackets_bind (keeps_ofExcept r) hnext

end Act

/-! ### Requests to exit -/

namespace Fault

/-- A request to exit. -/
def IsExit : Fault → Prop
  | .usage _ | .helpShown | .exit _ | .unknownCommand _ => True
  | _ => False

variable {f : Fault}

theorem IsExit.isError (h : f.IsExit) : f.isError = false := by
  cases f <;> first | rfl | exact h.elim

theorem IsExit.kind (h : f.IsExit) : f.kind = "SystemExit" := by
  cases f <;> first | rfl | exact h.elim

/-- A fault is an error, an interruption or a request to exit. -/
theorem isError_or (f : Fault) : f.isError = true ∨ (∃ text, f = .interrupted text) ∨ f.IsExit := by
  cases f with
  | interrupted text => exact Or.inr (Or.inl ⟨text, rfl⟩)
  | usage _ | helpShown | exit _ | unknownCommand _ => exact Or.inr (Or.inr trivial)
  | _ => exact Or.inl rfl

end Fault

/-! ### Opening and closing -/

namespace World

/-- The world in which a connection was opened. -/
def opened (node : Node ν τ) (url : Value) (w : World ν τ) : World ν τ :=
  { w with journal :=
      .noticed (.connected node.describe) :: .connected url :: .noticed (.connecting url) ::
        w.journal }

/-- The world in which the connection was closed. -/
def hungUp (w : World ν τ) : World ν τ := { w with journal := .closed :: w.journal }

end World

namespace Client

variable {node : Node ν τ} {url : Value} {body : Act (World ν τ) α} {w : World ν τ}

/-- With an obstacle in the way, nothing is opened and the body is not begun. -/
theorem runOn_withConnection_some (f : Fault) :
    (withConnection node url (some f) body).runOn w = (.error f, w.noted (.connecting url)) := rfl

/-- **A connection is closed however the body ends**, which is how all ends. -/
theorem runOn_withConnection_none :
    (withConnection node url none body).runOn w =
      ((body.runOn (w.opened node url)).1, (body.runOn (w.opened node url)).2.hungUp) := by
  have hconnect : (connect node url none).runOn w = (.ok (), w.opened node url) := rfl
  have hclose : close.runOn (body.runOn (w.opened node url)).2 =
      (.ok (), (body.runOn (w.opened node url)).2.hungUp) := rfl
  rw [withConnection, runOn_bind_ok hconnect, runOn_bind_ok (runOn_attempt _ _),
    runOn_bind_ok hclose, runOn_ofExcept]

theorem brackets_withConnection {obstacle : Option Fault}
    (hbody : Keeps (World.Adds Event.Online) body) :
    Brackets obstacle (withConnection node url obstacle body) := by
  intro w
  cases obstacle with
  | some f =>
    rw [runOn_withConnection_some]
    exact ⟨[.noticed (.connecting url)], rfl, .offline (by simp [Event.Offline])⟩
  | none =>
    rw [runOn_withConnection_none]
    obtain ⟨new, hnew, honline⟩ := hbody (w.opened node url)
    have hshape : (body.runOn (w.opened node url)).2.hungUp.journal =
        ([] ++ .closed :: ((new ++ [.noticed (.connected node.describe)]) ++ .connected url ::
          [.noticed (.connecting url)])) ++ w.journal := by
      rw [World.hungUp, hnew]
      simp [World.opened]
    refine ⟨_, hshape, .closed url rfl (by simp [Event.Offline]) ?_ nofun⟩
    refine List.forall_mem_append.mpr ⟨honline, ?_⟩
    simp [Event.Online]

end Client

/-! ### Work while connected -/

section

variable {node : Node ν τ}

theorem online_call {act : τ → Act ν α} {event : Except Fault α → Event τ}
    (h : ∀ answer, (event answer).Online) :
    Keeps (World.Adds Event.Online) (World.call act event) := fun w => by
  rw [World.runOn_call]
  exact History.grows_cons _ (h _)

theorem online_query (pallet storage params : Value) :
    Keeps (World.Adds Event.Online) (Client.query node pallet storage params) :=
  keeps_bind (online_call fun _ => trivial) fun _ => keeps_pure _

theorem online_queryMap (pallet storage params : Value) :
    Keeps (World.Adds Event.Online) (Client.queryMap node pallet storage params) := fun w => by
  rw [Client.queryMap, World.runOn_call]
  exact History.grows_cons _ trivial

namespace Inquiry

theorem online_collectionId (pallets : Pallets) (storage label : Value) :
    Keeps (World.Adds Event.Online) (collectionId node pallets storage label) := by
  refine keeps_bind (online_query _ _ _) fun found => ?_
  split
  · exact keeps_throw _
  · exact keeps_pure _

theorem online_holdings (account collection : Value) :
    Keeps (World.Adds Event.Online) (holdings node account collection) :=
  keeps_bind (online_queryMap _ _ _) fun _ => keeps_pure _

theorem online_pendingPreorders (pallets : Pallets) :
    Keeps (World.Adds Event.Online) (pendingPreorders node pallets) :=
  keeps_bind (online_queryMap _ _ _) fun _ => keeps_ofExcept _

theorem online_inventories (pallets : Pallets) (types : List ShellType) :
    Keeps (World.Adds Event.Online) (inventories node pallets types) := by
  induction types with
  | nil => exact keeps_pure _
  | cons type rest ih =>
    refine keeps_bind (keeps_bind (online_queryMap _ _ _) fun _ => keeps_pure _) fun _ => ?_
    exact keeps_bind ih fun _ => keeps_pure _

theorem online_flag (pallet storage : Value) :
    Keeps (World.Adds Event.Online) (flag node pallet storage) :=
  keeps_bind (online_query _ _ _) fun _ => keeps_pure _

theorem online_flags (pallet : Value) (names : List (String × String)) :
    Keeps (World.Adds Event.Online) (flags node pallet names) := by
  induction names with
  | nil => exact keeps_pure _
  | cons _ rest ih =>
    exact keeps_bind (online_flag _ _) fun _ => keeps_bind ih fun _ => keeps_pure _

end Inquiry

theorem Report.online_ofChain (pallets : Pallets) (account : Value) :
    Keeps (World.Adds Event.Online) (ofChain node pallets account) := by
  have hquery : ∀ pallet storage,
      Keeps (World.Adds Event.Online) (Client.query node pallet storage .null) :=
    fun _ _ => online_query _ _ _
  have hholdings : ∀ storage label, Keeps (World.Adds Event.Online)
      (Inquiry.collectionId node pallets storage label >>= Inquiry.holdings node account) :=
    fun _ _ => keeps_bind (Inquiry.online_collectionId _ _ _) fun _ => Inquiry.online_holdings _ _
  refine keeps_bind (hquery _ _) fun _ => ?_
  refine keeps_bind (hholdings _ _) fun _ => ?_
  refine keeps_bind (hholdings _ _) fun _ => ?_
  refine keeps_bind (keeps_bind (hquery _ _) fun _ => keeps_pure _) fun _ => ?_
  refine keeps_bind (Inquiry.online_pendingPreorders _) fun _ => ?_
  refine keeps_bind (keeps_ofExcept _) fun _ => ?_
  refine keeps_bind (keeps_bind (online_queryMap _ _ _) fun _ => keeps_ofExcept _) fun _ => ?_
  refine keeps_bind (hquery _ _) fun _ => ?_
  refine keeps_bind (hquery _ _) fun _ => ?_
  refine keeps_bind (Inquiry.online_inventories _ _) fun _ => ?_
  refine keeps_bind (Inquiry.online_flags _ _) fun _ => ?_
  refine keeps_bind (keeps_bind (Inquiry.online_flag _ _) fun _ => ?_) fun _ => keeps_pure _
  exact keeps_bind (hquery _ _) fun _ => keeps_bind (hquery _ _) fun _ => keeps_pure _

theorem Session.Move.online {s t : Session ν τ} (h : Session.Move node s t) :
    Session.Adds Event.Online s t := by
  cases h with
  | pass c => exact refl_of (World.Adds _) _
  | note n _ => exact History.grows_cons _ trivial
  | look _ | compose _ | sign _ _ | refuse _ _ => exact History.grows_cons _ trivial
  | accept _ _ _ _ | track _ _ _ =>
    exact trans_of (History.Grows _) (History.grows_cons _ trivial) (History.grows_cons _ trivial)

theorem Session.online_of_moves {s t : Session ν τ} (h : Session.Moves node s t) :
    Session.Adds Event.Online s t := by
  induction h with
  | refl => exact refl_of (Session.Adds _) s
  | tail _ hmove ih => exact trans_of (Session.Adds _) ih hmove.online

end

namespace Script

variable {script : Script ν τ}

theorem online_startRoles (roles : List Value) (started : Table Value Int) :
    Keeps (Session.Adds Event.Online) (script.startRoles started roles) := by
  induction roles generalizing started with
  | nil => exact keeps_pure _
  | cons role rest ih =>
    refine keeps_bind ?_ fun _ => ih _
    refine keeps_bind (keeps_ofExcept _) fun a => ?_
    refine keeps_bind (keeps_bind (adds_inWorld ?_) fun _ => ?_) fun _ => ?_
    · exact keeps_bind (online_call fun _ => trivial) fun _ => keeps_ofExcept _
    · refine keeps_bind (keeps_bind (keeps_ofExcept _) fun _ => ?_) fun _ => ?_
      · exact fun s => refl_of (World.Adds _) s.world
      · exact keeps_bind (adds_inWorld (adds_note trivial)) fun _ => keeps_pure _
    · exact keeps_bind (adds_inWorld (adds_note trivial)) fun _ => keeps_pure _

theorem online_run [Seconds τ] (phases : List (Phase τ)) :
    Keeps (Session.Adds Event.Online) (script.run phases) :=
  fun s => Session.online_of_moves (moves_run phases s)

end Script

/-! ### The programs -/

namespace Command

section

variable {host : Host ν τ}

theorem online_say (line : String) :
    Keeps (Session.Adds Event.Online) (say (ν := ν) (τ := τ) line) :=
  adds_inWorld (adds_print (fun _ => trivial) line)

theorem online_announce (role : Value) (sent : Sent) :
    Keeps (Session.Adds Event.Online) (Transact.announce (ν := ν) (τ := τ) role sent) := by
  refine keeps_bind (online_say _) fun _ => ?_
  split
  · exact keeps_pure _
  · exact keeps_pure _
  · exact online_say _

theorem online_division (pallets : Pallets) (args : Arguments) :
    Keeps (Session.Adds Event.Online) (Drawing.division host pallets args) := by
  unfold Drawing.division
  split
  · exact keeps_pure _
  · refine keeps_bind (adds_inWorld (Inquiry.online_pendingPreorders _)) fun _ => ?_
    exact keeps_bind (online_say _) fun _ => keeps_bind (keeps_ofExcept _) fun _ => keeps_pure _

theorem online_save (path text : String) :
    Keeps (World.Adds Event.Online) (Query.save (ν := ν) (τ := τ) host.files path text) := by
  refine keeps_bind (keeps_ofExcept _) fun place => ?_
  split
  · exact fun _ => History.grows_cons _ trivial
  · exact keeps_pure _

theorem offline_print (line : String) :
    Keeps (World.Adds Event.Offline) (World.print (ν := ν) (τ := τ) line) :=
  adds_print (fun _ => trivial) line

theorem offline_banner (title : Value) :
    Keeps (World.Adds Event.Offline) (banner (ν := ν) (τ := τ) title) :=
  adds_banner (fun _ => trivial) title

theorem brackets_withSession {settings : Settings τ} {body : Act (Session ν τ) α}
    (hbody : Keeps (Session.Adds Event.Online) body) :
    Brackets host.obstacle (withSession host settings body) := by
  have hnew : Keeps (World.Adds Event.Online) (fromNew body) := fun w => by
    rw [runOn_fromNew]
    exact hbody { world := w }
  exact Client.brackets_withConnection hnew

variable [Seconds τ]

theorem offline_hostSettings (args : Arguments) :
    Keeps (World.Adds Event.Offline) (hostSettings host args) :=
  keeps_bind (keeps_ofExcept _) fun _ =>
    keeps_bind (adds_setUpLog (fun _ => trivial) _) fun _ => keeps_pure _

theorem online_play (script : Script ν τ) (phases : Except Fault (List (Phase τ))) :
    Keeps (Session.Adds Event.Online) (play script phases) := by
  refine keeps_bind (Script.online_startRoles _ _) fun _ => ?_
  refine keeps_bind (keeps_ofExcept _) fun ps => ?_
  exact keeps_bind (Script.online_run ps) fun _ => keeps_pure _

/-- What the programs do first: they read their arguments and their settings. -/
theorem brackets_begin {grammar : Grammar} {next : Arguments → Settings τ → Act (World ν τ) Unit}
    (hnext : ∀ args settings, Brackets host.obstacle (next args settings)) :
    Brackets host.obstacle (do
      let args ← Act.ofExcept (grammar.parse host.arguments)
      let settings ← hostSettings host args
      next args settings) :=
  brackets_ofExcept fun _ => brackets_bind (offline_hostSettings _) (hnext _)

theorem brackets_prepare : Brackets host.obstacle (Initialize.perform host) := by
  refine brackets_begin fun args settings => ?_
  refine brackets_bind (offline_banner _) fun _ => brackets_ofExcept fun accounts => ?_
  refine brackets_ofExcept fun _ => brackets_bind (offline_print _) fun _ => ?_
  refine brackets_ofExcept fun _ => brackets_bind (offline_print _) fun _ => ?_
  exact brackets_withSession (keeps_bind (online_play _ _) fun _ => online_say _)

theorem brackets_populate : Brackets host.obstacle (Populate.perform host) := by
  refine brackets_begin fun args settings => ?_
  refine brackets_bind (offline_banner _) fun _ => brackets_ofExcept fun accounts => ?_
  refine brackets_bind (keeps_forM (fun _ => offline_print _) _) fun _ => ?_
  exact brackets_withSession (keeps_bind (online_play _ _) fun _ => online_say _)

theorem brackets_incubate : Brackets host.obstacle (Incubate.perform host) := by
  refine brackets_begin fun args settings => ?_
  refine brackets_bind (offline_banner _) fun _ => brackets_ofExcept fun accounts => ?_
  exact brackets_withSession (keeps_bind (online_play _ _) fun _ => online_say _)

theorem brackets_draw : Brackets host.obstacle (Drawing.perform host) := by
  refine brackets_begin fun args settings => brackets_bind (offline_banner _) fun _ => ?_
  refine brackets_withSession ?_
  refine keeps_bind (online_division _ _) fun _ => keeps_bind (keeps_ofExcept _) fun _ => ?_
  refine keeps_bind (online_say _) fun _ => keeps_bind (keeps_ofExcept _) fun _ => ?_
  refine keeps_ite (online_say _) (keeps_bind (keeps_ofExcept _) fun _ => ?_)
  exact keeps_bind (online_play _ _) fun _ => online_say _

theorem brackets_query : Brackets host.obstacle (Query.perform host) := by
  refine brackets_begin fun args settings => brackets_bind (offline_banner _) fun _ => ?_
  refine brackets_ofExcept fun address => brackets_bind (offline_print _) fun _ => ?_
  refine Client.brackets_withConnection ?_
  refine keeps_bind (Report.online_ofChain _ _) fun _ => keeps_bind (keeps_ofExcept _) fun _ => ?_
  refine keeps_bind (adds_print (fun _ => trivial) _) fun _ => ?_
  split
  · exact keeps_pure _
  · exact keeps_bind (online_save _ _) fun _ => adds_print (fun _ => trivial) _

theorem brackets_sign : Brackets host.obstacle (Sign.perform host) := by
  refine brackets_begin fun args settings => brackets_of_offline ?_
  refine keeps_bind (keeps_ofExcept _) fun _ => keeps_bind (offline_print _) fun _ => ?_
  refine keeps_bind (keeps_ofExcept _) fun _ => keeps_bind (offline_print _) fun _ => ?_
  refine keeps_bind (offline_print _) fun _ => ?_
  split
  · exact keeps_pure _
  · refine keeps_bind (offline_print _) fun _ => keeps_bind (keeps_ofExcept _) fun _ => ?_
    exact offline_print _

theorem brackets_transact : Brackets host.obstacle (Transact.perform host) := by
  refine brackets_begin fun args settings => brackets_bind (offline_banner _) fun _ => ?_
  refine brackets_ofExcept fun _ => brackets_ofExcept fun _ => brackets_ofExcept fun _ => ?_
  refine brackets_withSession ?_
  refine keeps_bind (keeps_bind (keeps_ofExcept _) fun _ => Script.online_startRoles _ _)
    fun _ => ?_
  refine keeps_bind (Script.online_run _) fun sent => ?_
  split
  · exact keeps_throw _
  · exact online_announce _ _

/-- Every program brackets its calls of the node. -/
theorem brackets_programs {program : String × (Host ν τ → Act (World ν τ) Unit)}
    (hprogram : program ∈ programs) : Brackets host.obstacle (program.2 host) := by
  simp only [programs, List.mem_cons, List.not_mem_nil, or_false] at hprogram
  rcases hprogram with rfl | rfl | rfl | rfl | rfl | rfl | rfl
  · exact brackets_prepare
  · exact brackets_populate
  · exact brackets_incubate
  · exact brackets_draw
  · exact brackets_query
  · exact brackets_sign
  · exact brackets_transact

end

/-! ### How a program ends -/

/-- **How a program ends when its work has ended.**  Its status says whether there was a result, an
interruption or an error; a request to exit passes through.  An error and an interruption are told
in a notice each. -/
inductive Concludes : Except Fault α × World ν τ → Except Fault Nat × World ν τ → Prop
  | result (a : α) (m : World ν τ) : Concludes (.ok a, m) (.ok 0, m)
  | interruption (text : String) (m : World ν τ) :
      Concludes (.error (.interrupted text), m) (.ok 130, m.noted .interrupted)
  | error {f : Fault} (m : World ν τ) (herror : f.isError = true) :
      Concludes (.error f, m) (.ok 1, m.noted (.failed f.kind f.message))
  | exit {f : Fault} (m : World ν τ) (hexit : f.IsExit) : Concludes (.error f, m) (.error f, m)

namespace Concludes

variable {main : Except Fault α × World ν τ} {ended : Except Fault Nat × World ν τ}

theorem zero_iff (h : Concludes main ended) : ended.1 = .ok 0 ↔ ∃ a, main.1 = .ok a := by
  cases h <;> simp

theorem interrupted_iff (h : Concludes main ended) :
    ended.1 = .ok 130 ↔ ∃ text, main.1 = .error (.interrupted text) := by
  cases h with
  | result a m => simp
  | interruption text m => simp
  | error m herror =>
    refine ⟨nofun, fun ⟨text, htext⟩ => ?_⟩
    rw [Except.error.inj htext] at herror
    cases herror
  | exit m hexit =>
    refine ⟨nofun, fun ⟨text, htext⟩ => ?_⟩
    rw [Except.error.inj htext] at hexit
    exact hexit.elim

theorem one_iff (h : Concludes main ended) :
    ended.1 = .ok 1 ↔ ∃ f, main.1 = .error f ∧ f.isError = true := by
  cases h with
  | result a m => simp
  | interruption text m => simp [Fault.isError]
  | error m herror => simpa using herror
  | exit m hexit => simp [hexit.isError]

theorem error_iff (h : Concludes main ended) (f : Fault) :
    ended.1 = .error f ↔ main.1 = .error f ∧ f.IsExit := by
  cases h with
  | result a m => simp
  | interruption text m =>
    refine ⟨nofun, fun ⟨htext, hexit⟩ => ?_⟩
    rw [← Except.error.inj htext] at hexit
    exact hexit.elim
  | error m herror =>
    refine ⟨nofun, fun ⟨hf, hexit⟩ => ?_⟩
    rw [Except.error.inj hf, hexit.isError] at herror
    cases herror
  | exit m hexit =>
    exact ⟨fun hf => Except.error.inj hf ▸ ⟨rfl, hexit⟩, fun hf => Except.error.inj hf.1 ▸ rfl⟩

/-- After its work, a program tells of its end at most, and does not connect again. -/
theorem grows (h : Concludes main ended) :
    History.Grows Event.Offline main.2.journal ended.2.journal := by
  cases h with
  | result a m => exact refl_of _ _
  | interruption text m => exact History.grows_cons _ trivial
  | error m _ => exact History.grows_cons _ trivial
  | exit m _ => exact refl_of _ _

end Concludes

theorem concludes_run (act : Act (World ν τ) α) (w : World ν τ) :
    Concludes (act.runOn w) ((run act).runOn w) := by
  rw [run, runOn_bind_ok (runOn_attempt act w)]
  rcases act.runOn w with ⟨f | a, m⟩
  · rcases f.isError_or with herror | ⟨text, rfl⟩ | hexit
    · have hend := Concludes.error (α := α) m herror
      cases f <;> first | exact hend | cases herror
    · exact .interruption text m
    · have hend := Concludes.exit (α := α) m hexit
      cases f <;> first | exact hend | exact hexit.elim
  · exact .result a m

variable [Seconds τ]

namespace Concludes

variable {main : Except Fault α × World ν τ} {ended : Except Fault Nat × World ν τ}

/-- An error is told in one line, which is the last. -/
theorem line_of_error (h : Concludes main ended) {f : Fault} (hf : main.1 = .error f)
    (herror : f.isError = true) :
    ∃ n, ended.2 = main.2.noted n ∧ n.line = (.error, s!"❌ {f.kind}: {f.message}") := by
  cases h with
  | result a m => cases hf
  | interruption text m =>
    rw [← Except.error.inj hf] at herror
    cases herror
  | error m _ =>
    obtain rfl := Except.error.inj hf
    exact ⟨_, rfl, rfl⟩
  | exit m hexit =>
    rw [← Except.error.inj hf, hexit.isError] at herror
    cases herror

end Concludes

/-- **Every connection is closed once, and the status tells the outcome.**  This holds for every
program, with any arguments and settings, any keys, any node, and a clock that may interrupt any
sleep.  If a connection was opened, which can only be if nothing is in the way, it was closed once,
and after that the node was not called any more; else nothing was closed.  What a body comes to
between opening and closing is what comes of all, whether it is a result or a fault.  The status is
0 for a result, 130 for an interruption and 1 for an error, and for nothing else; a request to exit
passes through. -/
theorem closes_once {program : String × (Host ν τ → Act (World ν τ) Unit)}
    (hprogram : program ∈ programs) (host : Host ν τ) (n : ν) (c : Clock τ) :
    let begun : World ν τ := { node := n, clock := c }
    let main := (program.2 host).runOn begun
    let ended := (run (program.2 host)).runOn begun
    start? program.1 host begun = some (.ofOutcome ended.1, ended.2) ∧
      History.Bracketed host.obstacle ended.2.journal ∧
      ended.2.journal.countP Event.isClosing = ended.2.journal.countP Event.isOpening ∧
      ended.2.journal.countP Event.isOpening ≤ 1 ∧
      (∀ (α : Type) (body : Act (World ν τ) α) (url : Value) (w : World ν τ),
        (∀ f, (Client.withConnection host.node url (some f) body).runOn w =
          (.error f, w.noted (.connecting url))) ∧
        (Client.withConnection host.node url none body).runOn w =
          ((body.runOn (w.opened host.node url)).1,
            (body.runOn (w.opened host.node url)).2.hungUp)) ∧
      Concludes main ended ∧
      (ended.1 = .ok 0 ↔ ∃ u, main.1 = .ok u) ∧
      (ended.1 = .ok 130 ↔ ∃ text, main.1 = .error (.interrupted text)) ∧
      (ended.1 = .ok 1 ↔ ∃ f, main.1 = .error f ∧ f.isError = true) ∧
      (∀ f, ended.1 = .error f ↔ main.1 = .error f ∧ f.IsExit) ∧
      (∀ f, ended.1 = .error f → f.kind = "SystemExit") ∧
      (∀ f, main.1 = .error f → f.isError = true →
        ∃ notice, ended.2 = main.2.noted notice ∧
          notice.line = (.error, s!"❌ {f.kind}: {f.message}")) := by
  intro begun main ended
  have hends : Concludes main ended := concludes_run (program.2 host) begun
  have hbrackets : Brackets host.obstacle (program.2 host) := brackets_programs hprogram
  obtain ⟨new, hnew, hbracketed⟩ := hbrackets begun
  rw [List.append_nil] at hnew
  have hall : History.Bracketed host.obstacle ended.2.journal :=
    (hnew ▸ hbracketed).grows hends.grows
  refine ⟨?_, hall, hall.counts.1, hall.counts.2, fun α body url w => ⟨fun f => rfl, ?_⟩, hends,
    hends.zero_iff, hends.interrupted_iff, hends.one_iff, hends.error_iff,
    fun f hf => ((hends.error_iff f).mp hf).2.kind,
    fun f hf herror => hends.line_of_error hf herror⟩
  · simp only [programs, List.mem_cons, List.not_mem_nil, or_false] at hprogram
    rcases hprogram with rfl | rfl | rfl | rfl | rfl | rfl | rfl <;> rfl
  · exact Client.runOn_withConnection_none

/-- A host whose node includes late, so that barriers have to sleep. -/
def lingering : Host Sequential.State Value :=
  { preparing with node := Sequential.node { includeAfter := 3 } }

set_option maxRecDepth 10000 in
/-- A preparation that is interrupted at its second sleep, while it is connected. -/
theorem closes_once_interrupted :
    let begun : World Sequential.State Value :=
      { node := .ofNonces .empty, clock := { now := .int 0, interruptAt := some 2 } }
    let ended := (run (Initialize.perform lingering)).runOn begun
    ("init", Initialize.perform) ∈ programs (ν := Sequential.State) (τ := Value) ∧
      History.Bracketed none ended.2.journal ∧ ended.2.journal.countP Event.isClosing = 1 ∧
      (∃ text, ((Initialize.perform lingering).runOn begun).1 = .error (.interrupted text)) ∧
      (Ending.ofOutcome ended.1).status = 130 := by
  intro begun ended
  have hmem : ("init", Initialize.perform) ∈ programs (ν := Sequential.State) (τ := Value) :=
    List.mem_cons_self
  obtain ⟨-, hbracketed, hcount, -, -, -, -, hinterrupted, -⟩ :=
    closes_once hmem lingering begun.node begun.clock
  have hopened : ended.2.journal.countP Event.isOpening = 1 := by decide +kernel
  have hstatus : ended.1.toOption = some 130 := by decide +kernel
  have hended : ended.1 = .ok 130 := by
    cases hout : ended.1 with
    | error f => simp [hout, Except.toOption] at hstatus
    | ok status => simpa [hout, Except.toOption] using hstatus
  refine ⟨hmem, hbracketed, hcount.trans hopened, hinterrupted.mp hended, ?_⟩
  rw [hended]
  rfl

end Command

end Campaign
