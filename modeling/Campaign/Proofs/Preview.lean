import Campaign.Proofs.CommandLine
import Campaign.Proofs.DivisionText
import Campaign.Proofs.Parsing

/-!
# What a drawing shows before it submits

A drawing goes through the same steps whether it is dry or not: it sets up the log and connects
(`lead`), divides ids, prints the division and builds the phase (`preview`).  Only then does a dry
run end, and any other load keys and submit (`conclude`).  `Request.perform_eq` puts a drawing
together from these parts.

A `Request` is a command line for a drawing that can be read, in surroundings that give settings.
Requests that are `Alike` may differ in their keys and in whether they are dry.  Their parts before
the conclusion are the same actions, so they come to the same division.
-/

namespace Campaign

open Act History

variable {ν τ : Type}

/-- The settings without the secrets. -/
def Settings.keyless (s : Settings τ) : Settings τ := { s with secrets := .empty }

namespace Command.Drawing

variable {host : Host ν τ} {args : Arguments} {pallets : Pallets}

/-! ### Ids that are whole numbers -/

/-- If the node lists the preorders of the sale, their ids are whole numbers. -/
def ListsInts (node : Node ν τ) (pallets : Pallets) (n : ν) (now : τ) : Prop :=
  ∀ entries m, (node.queryMap now pallets.sale "Preorders" (.list [])).runOn n = (.ok entries, m) →
    ∃ ids : List Int, entries.map Prod.fst = ids.map .int

/-- What a drawing comes to with pending preorders, or without: it says how many there are, and
divides them. -/
def drawn (host : Host ν τ) (args : Arguments) (pending : Except Fault (Table Value Value))
    (s : Session ν τ) : Except Fault (Value × Value) × Session ν τ :=
  match pending with
  | .error f => (.error f, s)
  | .ok pending =>
    let count := pending.keys.length
    ((Draw.split pending.keys (argument args "winners") (argument args "seed") host.entropy).map
      fun sides => (.list sides.1, .list sides.2),
      ((say s!"📋 {count} pending preorders").runOn s).2)

/-- **Winners are drawn** among what the node has listed. -/
theorem division_of_query (hwinners : argument args "winners" ≠ .null) {s : Session ν τ}
    {answer : Except Fault (List (Value × Value))} {n : ν}
    (hquery : (host.node.queryMap s.world.clock.now pallets.sale "Preorders" (.list [])).runOn
      s.world.node = (answer, n)) :
    (division host pallets args).runOn s = drawn host args (answer.bind Inquiry.tableOf)
      (s.after n (.mapQueried pallets.sale "Preorders" (.list []) answer)) := by
  have hpending : (Session.inWorld (Inquiry.pendingPreorders host.node pallets)).runOn s =
      (answer.bind Inquiry.tableOf,
        s.after n (.mapQueried pallets.sale "Preorders" (.list []) answer)) := by
    rw [Session.runOn_inWorld, Inquiry.runOn_pendingPreorders hquery]
    rfl
  unfold division
  split
  · rename_i hnull
    exact absurd hnull hwinners
  · cases htable : answer.bind Inquiry.tableOf with
    | error f =>
      rw [htable] at hpending
      rw [runOn_bind_error hpending, drawn]
    | ok pending =>
      rw [htable] at hpending
      rw [runOn_bind_ok hpending, drawn]
      cases hsplit : Draw.split pending.keys (argument args "winners") (argument args "seed")
        host.entropy with
      | error f => rfl
      | ok sides => rfl

/-- **What is divided is whole numbers**, whether they are given or drawn. -/
theorem ints_of_division {words : List String} (hargs : grammar.parse words = .ok args)
    {s t : Session ν τ} (hids : ListsInts host.node pallets s.world.node s.world.clock.now)
    {sides : Value × Value} (h : (division host pallets args).runOn s = (.ok sides, t)) :
    ∃ chosen notChosen : List Int,
      sides = (.list (chosen.map .int), .list (notChosen.map .int)) := by
  by_cases hwinners : argument args "winners" = .null
  · obtain ⟨chosen, hchosen⟩ := ids_of_parse hargs (Or.inl rfl) Plan.chosenPreorders
    obtain ⟨notChosen, hnotChosen⟩ := ids_of_parse hargs (Or.inr rfl) Plan.notChosenPreorders
    rw [division, hwinners, hchosen, hnotChosen] at h
    obtain ⟨hsides, -⟩ := Prod.mk.inj h
    exact ⟨chosen, notChosen, (Except.ok.inj hsides).symm⟩
  · rcases hquery : (host.node.queryMap s.world.clock.now pallets.sale "Preorders"
      (.list [])).runOn s.world.node with ⟨f | entries, n⟩
    · rw [division_of_query hwinners hquery] at h
      cases (Prod.mk.inj h).1
    · obtain ⟨ids, hentries⟩ := hids entries n hquery
      obtain ⟨pending, ks, htable, hks, hkeys⟩ := Inquiry.tableOf_ints hentries
      rw [division_of_query hwinners hquery, Except.bind, htable] at h
      obtain ⟨⟨chosen, notChosen⟩, hsplit, rfl⟩ := outcome_map_ok.mp (Prod.mk.inj h).1
      rw [hkeys] at hsplit
      rcases winners_of_parse hargs with hnull | ⟨w, hw⟩ | ⟨ws, hws⟩
      · exact absurd hnull hwinners
      · rw [hw] at hsplit
        obtain ⟨cs, ns, rfl, rfl, -⟩ := Draw.split_ok_ints hks hsplit
        exact ⟨cs, ns, rfl⟩
      · rw [hws] at hsplit
        cases (Draw.ok_of_split hsplit).1

/-! ### The parts of a drawing -/

/-- Nothing but the journal of a world has changed. -/
def Writes (w v : World ν τ) : Prop := v = { w with journal := v.journal }

instance : IsPreorder (World ν τ) Writes where
  refl _ := rfl
  trans w v u h g := by
    rw [Writes, g, h]

theorem run_ok {body : Act (World ν τ) Unit} {w v : World ν τ}
    (h : (run body).runOn w = (.ok 0, v)) : body.runOn w = (.ok (), v) := by
  rcases hbody : body.runOn w with ⟨r, m⟩
  rw [run, runOn_bind_ok (runOn_attempt _ w), hbody] at h
  dsimp only at h
  split at h
  · obtain ⟨-, rfl⟩ := Prod.mk.inj h
    rfl
  · cases h
  · split at h <;> cases h

/-- What comes before a division: the log is set up, a title is printed, and the node is connected
to. -/
def lead (host : Host ν τ) (settings : Settings τ) : Act (World ν τ) Unit := do
  setUpLog settings.logLevel.shown
  banner "PHALA WORLD - Preorder Drawing"
  Client.connect host.node settings.endpoint host.obstacle

/-- What comes before anything is submitted: ids are divided, the division is printed, and the phase
is built. -/
def preview (host : Host ν τ) (pallets : Pallets) (args : Arguments) :
    Act (Session ν τ) (List (Phase τ)) := do
  let (chosen, notChosen) ← division host pallets args
  say (← Act.ofExcept (divisionText chosen notChosen))
  Act.ofExcept (Plan.drawing chosen notChosen pallets)

/-- A dry run ends here; any other loads its key and runs the phase. -/
def conclude [Seconds τ] (host : Host ν τ) (settings : Settings τ) (args : Arguments)
    (phases : List (Phase τ)) : Act (Session ν τ) Unit :=
  if (argument args "dry_run").truthy then say "ℹ️  Dry run, nothing submitted"
  else do
    let accounts ← Act.ofExcept (loadAccounts host.keyring settings ["overlord"])
    let _ ← play (scriptFor host.node settings accounts) (.ok phases)
    say "✅ Preorders resolved"

/-- A body in a new session, after which the connection is closed. -/
def closing (body : Act (Session ν τ) Unit) : Act (World ν τ) Unit := do
  let outcome ← Act.attempt (fromNew body)
  Client.close
  Act.ofExcept outcome

theorem runOn_closing (body : Act (Session ν τ) Unit) (w : World ν τ) :
    (closing body).runOn w = ((body.runOn { world := w }).1,
      { (body.runOn { world := w }).2.world with
        journal := .closed :: (body.runOn { world := w }).2.world.journal }) := by
  rw [closing, runOn_bind_ok (runOn_attempt _ w), runOn_fromNew,
    runOn_bind_ok (t := { (body.runOn { world := w }).2.world with
      journal := .closed :: (body.runOn { world := w }).2.world.journal }) rfl, runOn_ofExcept]

/-! ### Nothing is touched -/

theorem harmless_lead (settings : Settings τ) :
    Keeps (World.Adds Event.Harmless) (lead host settings) :=
  keeps_bind (harmless_setUpLog _) fun _ =>
    keeps_bind (harmless_banner _) fun _ => harmless_connect _ _ _

theorem writes_lead (settings : Settings τ) : Keeps Writes (lead host settings) := by
  refine keeps_bind (keeps_bind (fun _ => rfl) fun _ => ?_) fun _ => ?_
  · split
    · exact keeps_throw _
    · exact fun _ => rfl
  · refine keeps_bind (keeps_bind (fun _ => rfl) fun _ => ?_) fun _ => ?_
    · exact keeps_bind (fun _ => rfl) fun _ => fun _ => rfl
    · refine keeps_bind (fun _ => rfl) fun _ => ?_
      cases host.obstacle with
      | some f => exact keeps_throw f
      | none => exact keeps_bind (fun _ => rfl) fun _ => fun _ => rfl

theorem shows_preview :
    Keeps (Session.Shows Event.Harmless) (Drawing.preview host pallets args) := by
  refine keeps_bind (shows_division _) fun sides => ?_
  refine keeps_bind (keeps_ofExcept _) fun _ => ?_
  exact keeps_bind (shows_say _) fun _ => keeps_ofExcept _

theorem harmless_closing {body : Act (Session ν τ) Unit}
    (h : Keeps (Session.Shows Event.Harmless) body) :
    Keeps (World.Adds Event.Harmless) (closing body) := by
  intro w
  rw [runOn_closing]
  have hbody : History.Grows Event.Harmless w.journal
      (body.runOn { world := w }).2.world.journal := (h { world := w }).1
  exact trans_of (History.Grows Event.Harmless) hbody (History.grows_cons .closed trivial)

/-! ### Requests -/

section

variable [Seconds τ]

/-- A command line for a drawing that is read, in surroundings that give settings. -/
structure Request (host : Host ν τ) where
  args : Arguments
  settings : Settings τ
  parses : grammar.parse host.arguments = .ok args
  loads : settingsOf host args = .ok settings

/-- What a request shows before anything is submitted. -/
def Request.preview (r : Request host) : Act (Session ν τ) (List (Phase τ)) :=
  Drawing.preview host r.settings.pallets r.args

/-- **A drawing is put together from its parts.** -/
theorem Request.perform_eq (r : Request host) : perform host =
    (lead host r.settings >>= fun _ =>
      closing (r.preview >>= conclude host r.settings r.args)) := by
  obtain ⟨args, settings, hargs, hsettings⟩ := r
  have hsettle : hostSettings host args =
      (setUpLog settings.logLevel.shown >>= fun _ => pure settings : Act (World ν τ) _) := by
    obtain ⟨loaded, hloaded, rfl⟩ := outcome_map_ok.mp hsettings
    rw [hostSettings, settingsFor, hloaded]
    rfl
  have hread : perform host = (hostSettings host args >>= fun settings =>
      banner "PHALA WORLD - Preorder Drawing" >>= fun _ => withSession host settings
        (Drawing.preview host settings.pallets args >>= conclude host settings args)) := by
    have hpure : Act.ofExcept (.ok args) = (pure args : Act (World ν τ) Arguments) := rfl
    rw [perform, hargs, hpure, pure_bind]
    refine bind_congr fun settings => bind_congr fun _ => congrArg (withSession host settings) ?_
    rw [Drawing.preview, bind_assoc]
    refine bind_congr fun sides => ?_
    simp only [bind_assoc]
    rfl
  rw [hread, hsettle]
  simp only [lead, bind_assoc, pure_bind]
  rfl

/-- A drawing whose preview goes well comes to what its conclusion comes to. -/
theorem Request.runOn_perform (r : Request host) {w m : World ν τ} {phases : List (Phase τ)}
    {k : Session ν τ} (hlead : (lead host r.settings).runOn w = (.ok (), m))
    (hshown : r.preview.runOn { world := m } = (.ok phases, k)) :
    (perform host).runOn w = (((conclude host r.settings r.args phases).runOn k).1,
      { ((conclude host r.settings r.args phases).runOn k).2.world with
        journal := .closed ::
          ((conclude host r.settings r.args phases).runOn k).2.world.journal }) := by
  rw [r.perform_eq, runOn_bind_ok hlead, runOn_closing, runOn_bind_ok hshown]

/-- A drawing that ends well has gone through its preview. -/
theorem Request.shown_of_ok (r : Request host) {w v : World ν τ}
    (h : (perform host).runOn w = (.ok (), v)) :
    ∃ m phases k, (lead host r.settings).runOn w = (.ok (), m) ∧
      r.preview.runOn { world := m } = (.ok phases, k) := by
  rw [r.perform_eq] at h
  obtain ⟨_, m, hlead, h⟩ := ok_of_bind h
  rw [runOn_closing] at h
  rcases hshown : r.preview.runOn { world := m } with ⟨f | phases, k⟩
  · rw [runOn_bind_error hshown] at h
    cases (Prod.mk.inj h).1
  · exact ⟨m, phases, k, hlead, hshown⟩

/-- **A dry run leaves the chain alone**, however it ends. -/
theorem Request.harmless_of_dry (r : Request host)
    (hdry : (argument r.args "dry_run").truthy = true) :
    Keeps (World.Adds Event.Harmless) (run (perform host)) := by
  have hperform : Keeps (World.Adds Event.Harmless) (perform host) := by
    rw [r.perform_eq]
    refine keeps_bind (harmless_lead _) fun _ => harmless_closing ?_
    refine keeps_bind shows_preview fun _ => ?_
    rw [conclude, if_pos hdry]
    exact shows_say _
  refine keeps_bind (keeps_attempt hperform) fun out => ?_
  split
  · exact keeps_pure _
  · exact keeps_bind (adds_note trivial) fun _ => keeps_pure _
  · split
    · exact keeps_bind (adds_note trivial) fun _ => keeps_pure _
    · exact keeps_throw _

/-! ### Requests that are alike -/

namespace Request

variable {other : Host ν τ}

/-- **Requests that ask for the same division** on the same node: they differ at most in their keys
and in whether they are dry.  Winners are drawn with a seed, since without one nothing is
promised. -/
structure Alike (r : Request host) (q : Request other) : Prop where
  node : other.node = host.node
  obstacle : other.obstacle = host.obstacle
  args : ∀ key, key ≠ "dry_run" → argument q.args key = argument r.args key
  settings : q.settings.keyless = r.settings.keyless
  seeded : argument r.args "winners" ≠ .null → argument r.args "seed" ≠ .null

variable {r : Request host} {q : Request other}

/-- **Every command line has a dry one**, in any surroundings that differ in keys at most. -/
theorem exists_dry (r : Request host)
    (hseeded : argument r.args "winners" ≠ .null → argument r.args "seed" ≠ .null)
    (hwords : other.arguments = "--dry-run" :: host.arguments) (hnode : other.node = host.node)
    (hobstacle : other.obstacle = host.obstacle)
    (hload : (Settings.load (τ := τ) other.environment other.files true).2.map Settings.keyless =
      (Settings.load host.environment host.files true).2.map Settings.keyless) :
    ∃ d : Request other, r.Alike d ∧ (argument d.args "dry_run").truthy = true := by
  obtain ⟨args, hargs, hdry, hothers⟩ := parse_dryRun r.parses
  obtain ⟨loaded, hloaded, hsettings⟩ := outcome_map_ok.mp r.loads
  rw [hloaded] at hload
  obtain ⟨found, hfound, hsame⟩ := outcome_map_ok.mp hload
  have hendpoint : argument args "endpoint" = argument r.args "endpoint" :=
    hothers "endpoint" (by decide)
  let settings : Settings τ :=
    if (argument args "endpoint").truthy then { found with endpoint := argument args "endpoint" }
    else found
  have hloads : settingsOf other args = .ok settings := by
    rw [settingsOf, hfound]
    rfl
  refine ⟨⟨args, settings, hwords ▸ hargs, hloads⟩, ⟨hnode, hobstacle, hothers, ?_, hseeded⟩, ?_⟩
  · simp only [settings, hendpoint, ← hsettings]
    split
    · exact congrArg (fun s => { s with endpoint := argument r.args "endpoint" }) hsame
    · exact hsame
  · rw [hdry]
    rfl

theorem Alike.lead_eq (h : r.Alike q) : lead other q.settings = lead host r.settings := by
  have hlevel : q.settings.logLevel = r.settings.logLevel :=
    (congrArg Settings.logLevel h.settings :)
  have hendpoint : q.settings.endpoint = r.settings.endpoint :=
    (congrArg Settings.endpoint h.settings :)
  rw [lead, lead, hlevel, hendpoint, h.node, h.obstacle]

theorem Alike.pallets_eq (h : r.Alike q) : q.settings.pallets = r.settings.pallets :=
  (congrArg Settings.pallets h.settings :)

theorem Alike.preview_eq (h : r.Alike q) : q.preview = r.preview := by
  have hdivision : division other r.settings.pallets q.args =
      division host r.settings.pallets r.args := by
    simp only [division, idsOf, h.node, h.args "winners" (by decide), h.args "seed" (by decide),
      h.args "chosen" (by decide), h.args "not_chosen" (by decide)]
    -- Only a draw without a seed would depend on the entropy, and there is none of those.
    split
    · rfl
    · rename_i hwinners
      simp only [Draw.split_seeded (h.seeded hwinners) _ _ host.entropy other.entropy]
  rw [preview, preview, Drawing.preview, Drawing.preview, h.pallets_eq, hdivision]

/-- **Dry runs need no keys**: whatever the keys, they do the same. -/
theorem Alike.perform_eq {third : Host ν τ} {o : Request third} (h : r.Alike q) (g : r.Alike o)
    (hq : (argument q.args "dry_run").truthy = true)
    (ho : (argument o.args "dry_run").truthy = true) : perform third = perform other := by
  have hends : conclude third o.settings o.args = conclude other q.settings q.args := by
    funext phases
    rw [conclude, conclude, if_pos hq, if_pos ho]
  rw [q.perform_eq, o.perform_eq, h.lead_eq, g.lead_eq, h.preview_eq, g.preview_eq, hends]

end Request

/-! ### What a preview shows -/

/-- **A preview that goes well** has printed a division of whole numbers last, and builds the phase
that submits its sides. -/
theorem Request.preview_ok (r : Request host) {s t : Session ν τ} {phases : List (Phase τ)}
    (hids : ListsInts host.node r.settings.pallets s.world.node s.world.clock.now)
    (h : r.preview.runOn s = (.ok phases, t)) :
    ∃ (chosen notChosen : List Int) (line : String) (seen : History τ),
      divisionText (.list (chosen.map .int)) (.list (notChosen.map .int)) = .ok line ∧
      t.world.journal = .printed (line ++ "\n") :: seen ∧
      Script.submissions (phases.flatMap Phase.steps) =
        (Plan.sides chosen notChosen).map (Plan.resolution r.settings.pallets) := by
  obtain ⟨sides, m, hdivision, h⟩ := ok_of_bind h
  obtain ⟨chosen, notChosen, rfl⟩ := ints_of_division r.parses hids hdivision
  obtain ⟨line, k, htext, h⟩ := ok_of_bind h
  rw [runOn_ofExcept] at htext
  obtain ⟨hline, rfl⟩ := Prod.mk.inj htext
  obtain ⟨_, l, hsay, h⟩ := ok_of_bind h
  obtain ⟨-, rfl⟩ := Prod.mk.inj hsay
  rw [runOn_ofExcept] at h
  obtain ⟨hphases, rfl⟩ := Prod.mk.inj h
  exact ⟨chosen, notChosen, line, _, hline, rfl, Plan.submissions_of_drawing hphases⟩

/-! ### What is submitted afterwards -/

/-- A conclusion that is no dry run carries out the phases. -/
theorem ends_of_conclude {settings : Settings τ} {accounts : Roster}
    (hwet : (argument args "dry_run").truthy = false)
    (hkeys : loadAccounts host.keyring settings ["overlord"] = .ok accounts)
    {phases : List (Phase τ)} {w : World ν τ} (hidle : ∀ x ∈ w.journal, x.Idle)
    {out : Except Fault Unit} {t : Session ν τ}
    (h : (conclude host settings args phases).runOn { world := w } = (out, t)) :
    Ends (scriptFor host.node settings accounts) (.ok phases) (∃ u, out = .ok u) t.world.journal ∧
      w.journal <:+ t.world.journal := by
  have hfree : ¬ (argument args "dry_run").truthy = true := by simp [hwet]
  rw [conclude, if_neg hfree, hkeys] at h
  have hplay : (play (scriptFor host.node settings accounts) (.ok phases) >>= fun _ =>
      say "✅ Preorders resolved").runOn { world := w } = (out, t) := h
  exact ⟨ends_of_play_say hidle hplay, suffix_play_say hplay⟩

/-- **A run that is not dry carries out the phases of its preview**, after what it has shown. -/
theorem Request.follows (r : Request host) (hwet : (argument r.args "dry_run").truthy = false)
    {accounts : Roster} (hkeys : loadAccounts host.keyring r.settings ["overlord"] = .ok accounts)
    {n : ν} {c : Clock τ} {m : World ν τ} {phases : List (Phase τ)} {k : Session ν τ}
    (hlead : (lead host r.settings).runOn { node := n, clock := c } = (.ok (), m))
    (hshown : r.preview.runOn { world := m } = (.ok phases, k)) {out : Except Fault Nat}
    {v : World ν τ} (h : (run (perform host)).runOn { node := n, clock := c } = (out, v)) :
    ∃ later done, v.journal = later ++ k.world.journal ∧
      (scriptFor host.node r.settings accounts).Follows
        (Script.submissions (phases.flatMap Phase.steps)) done v.journal later ∧
      (out = .ok 0 → done = Script.submissions (phases.flatMap Phase.steps)) := by
  obtain ⟨hshows, hnew⟩ : Session.Shows Event.Harmless { world := m } k :=
    shows_preview.of_runOn hshown
  obtain ⟨new, hjournal, hharmless⟩ : History.Grows Event.Harmless [] k.world.journal :=
    trans_of (History.Grows Event.Harmless) ((harmless_lead _).of_runOn hlead) hshows
  rw [List.append_nil] at hjournal
  have hidle : ∀ x ∈ k.world.journal, x.Idle := fun x hx => (hharmless x (hjournal ▸ hx)).idle
  obtain ⟨x, w, hperform, hgrow, hzero, -⟩ := run_cases h
  rcases hrun : (conclude host r.settings r.args phases).runOn k with ⟨o, t⟩
  rw [r.runOn_perform hlead hshown, hrun] at hperform
  obtain ⟨rfl, rfl⟩ := Prod.mk.inj hperform
  rw [hnew] at hrun
  obtain ⟨hends, hsuffix⟩ := ends_of_conclude hwet hkeys hidle hrun
  have hclosed : History.Grows (fun x => x.attempt? = none) t.world.journal v.journal :=
    trans_of (History.Grows fun x => x.attempt? = none) (History.grows_cons .closed rfl) hgrow
  obtain ⟨later, hlater⟩ := hsuffix.trans hclosed.suffix
  have hquiet : ∀ {plan done : List Submit},
      (scriptFor host.node r.settings accounts).Follows plan done v.journal v.journal →
        (scriptFor host.node r.settings accounts).Follows plan done v.journal later := by
    intro plan done hfollows
    rw [← hlater] at hfollows ⊢
    exact hfollows.without_quiet fun x hx => (hidle x hx).1
  rcases hends.mono hzero hclosed with ⟨hfails, hnone⟩ | ⟨ps, hps, done, hfollows, hcomplete⟩
  · exact ⟨later, [], hlater.symm, hquiet (.nothing hnone), fun hc => absurd hc hfails⟩
  · obtain rfl := Except.ok.inj hps
    exact ⟨later, done, hlater.symm, hquiet hfollows, fun hc => (hcomplete hc).1⟩

/-- **What one run has told of another.**  The first has ended without submitting, after a line that
it has printed last, in which a division can be read.  The other has printed the same up to there.
What it has had taken after that are the sides of this division that are not empty, in order, each
with the ids of that side; and all of them if it is `complete`. -/
def Foretells (script : Script ν τ) (pallets : Pallets) (told : History τ) (complete : Prop)
    (h : History τ) : Prop :=
  ∃ (chosen notChosen : List Int) (line : String) (seen later : History τ) (done : List Submit),
    divisionText (.list (chosen.map .int)) (.list (notChosen.map .int)) = .ok line ∧
    sides? line = some (chosen, notChosen) ∧
    told = .closed :: .printed "ℹ️  Dry run, nothing submitted\n" ::
      .printed (line ++ "\n") :: seen ∧
    h = later ++ .printed (line ++ "\n") :: seen ∧
    script.Follows ((Plan.sides chosen notChosen).map (Plan.resolution pallets)) done h later ∧
    (complete → done = (Plan.sides chosen notChosen).map (Plan.resolution pallets))

/-- **A dry run that ends well tells what a run that is alike will print and submit.** -/
theorem Request.foretells {dry wet : Host ν τ} {d : Request dry} {r : Request wet}
    (halike : r.Alike d) (hdry : (argument d.args "dry_run").truthy = true)
    (hwet : (argument r.args "dry_run").truthy = false) {accounts : Roster}
    (hkeys : loadAccounts wet.keyring r.settings ["overlord"] = .ok accounts) {n : ν} {c : Clock τ}
    (hids : ListsInts wet.node r.settings.pallets n c.now) {v v' : World ν τ}
    {out : Except Fault Nat}
    (hd : (run (perform dry)).runOn { node := n, clock := c } = (.ok 0, v))
    (hr : (run (perform wet)).runOn { node := n, clock := c } = (out, v')) :
    Foretells (scriptFor wet.node r.settings accounts) r.settings.pallets v.journal (out = .ok 0)
      v'.journal := by
  have hfirst := run_ok hd
  have hsame : d.preview = r.preview := halike.preview_eq
  obtain ⟨m, phases, k, hlead, hshown⟩ := d.shown_of_ok hfirst
  rw [d.runOn_perform hlead hshown, conclude, if_pos hdry] at hfirst
  obtain ⟨-, rfl⟩ := Prod.mk.inj hfirst
  rw [halike.lead_eq] at hlead
  rw [hsame] at hshown
  have hstart : m = { node := n, clock := c, journal := m.journal } :=
    (writes_lead _).of_runOn hlead
  obtain ⟨chosen, notChosen, line, seen, hline, hseen, hplan⟩ :=
    r.preview_ok (by rw [hstart]; exact hids) hshown
  obtain ⟨later, done, hlater, hfollows, hcomplete⟩ := r.follows hwet hkeys hlead hshown hr
  rw [hplan] at hfollows hcomplete
  rw [hseen] at hlater
  exact ⟨chosen, notChosen, line, seen, later, done, hline, sides?_divisionText hline,
    by rw [← hseen]; rfl, hlater, hfollows, hcomplete⟩

end

end Command.Drawing

end Campaign
