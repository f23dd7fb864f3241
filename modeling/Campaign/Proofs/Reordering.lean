import Campaign.Proofs.Preview
import Campaign.Proofs.Regrouping

/-!
# Dry runs, and chains that list in another order

A node may list its maps in any order.  `Node.relist` is a node with another way of listing, and
`Session.Akin` is to be the same but for what was listed.  Runs of phases list nothing
(`Script.run_relist`), and a division only looks at the set of ids that are listed
(`division_relist`), so a drawing does the same on both nodes (`Request.agree_relist`).

With what dry runs have shown (`Request.foretells`) this gives `dry_run_previews`.
-/

namespace Campaign

open Act History

variable {ν τ σ α β : Type}

/-- Two ends of actions that agree: the outcomes are the same, and the states are related. -/
def Act.Agree (E : σ → σ → Prop) (x y : Except Fault α × σ) : Prop := y.1 = x.1 ∧ E x.2 y.2

/-- Sequences whose first parts agree agree if they go on alike from related states. -/
theorem Act.agree_bind {E : σ → σ → Prop} {act act' : Act σ α} {next next' : α → Act σ β}
    {s t : σ} (h : Agree E (act.runOn s) (act'.runOn t))
    (hnext : ∀ a m k, act.runOn s = (.ok a, m) → E m k →
      Agree E ((next a).runOn m) ((next' a).runOn k)) :
    Agree E ((act >>= next).runOn s) ((act' >>= next').runOn t) := by
  rcases hact : act.runOn s with ⟨f | a, m⟩ <;> rcases hact' : act'.runOn t with ⟨r, k⟩ <;>
    rw [hact, hact'] at h <;> obtain ⟨rfl, hE⟩ := h
  · rw [runOn_bind_error hact, runOn_bind_error hact']
    exact ⟨rfl, hE⟩
  · rw [runOn_bind_ok hact, runOn_bind_ok hact']
    exact hnext a m k hact hE

/-! ### The same but for what was listed -/

/-- Whether the node was asked for the entries of a map. -/
def Event.isListing : Event τ → Bool
  | .mapQueried _ _ _ _ => true
  | _ => false

/-- A history without what was listed. -/
def History.unlisted (h : History τ) : History τ := h.filter fun x => !x.isListing

/-- Two worlds are the same but for what was listed. -/
structure World.Akin (w v : World ν τ) : Prop where
  node : v.node = w.node
  clock : v.clock = w.clock
  history : unlisted v.journal = unlisted w.journal

theorem World.akin_refl (w : World ν τ) : w.Akin w := ⟨rfl, rfl, rfl⟩

theorem World.Akin.cons {w v : World ν τ} (h : w.Akin v) (x : Event τ) :
    World.Akin { w with journal := x :: w.journal } { v with journal := x :: v.journal } where
  node := h.node
  clock := h.clock
  history := by
    have hhistory : v.journal.filter (fun x => !x.isListing) =
        w.journal.filter fun x => !x.isListing := h.history
    simp only [unlisted, List.filter_cons, hhistory]

namespace Session

/-- Two sessions are the same but for what was listed. -/
structure Akin (s t : Session ν τ) : Prop where
  world : s.world.Akin t.world
  nonces : t.nonces = s.nonces
  sent : t.sent = s.sent

variable {s t : Session ν τ}

/-- **An action that reads no history** does the same whatever was listed. -/
theorem Akin.agree {act : Act (Session ν τ) α} (hact : ∀ base, Ignores (recast id base) act)
    (h : s.Akin t) : Agree Akin (act.runOn s) (act.runOn t) := by
  have hbare : t.bare = s.bare := by
    obtain ⟨⟨n, c, j⟩, nonces, sent⟩ := s
    obtain ⟨⟨n', c', j'⟩, nonces', sent'⟩ := t
    obtain ⟨⟨rfl, rfl, -⟩, rfl, rfl⟩ := h
    rfl
  rw [runOn_bare hact s, runOn_bare hact t, hbare]
  refine ⟨rfl, ⟨rfl, rfl, ?_⟩, rfl, rfl⟩
  have hhistory : t.world.journal.filter (fun x => !x.isListing) =
      s.world.journal.filter fun x => !x.isListing := h.world.history
  simp only [unlisted, recast, World.recast, List.filter_append, hhistory]

end Session

/-! ### Another way of listing -/

/-- A way of listing the entries of maps. -/
abbrev Lister (ν τ : Type) : Type :=
  τ → (pallet storage params : Value) → Act ν (List (Value × Value))

/-- The node with another way of listing. -/
def Node.relist (node : Node ν τ) (q : Lister ν τ) : Node ν τ := { node with queryMap := q }

/-- Two answers that list the same entries, in whatever order, or fail alike. -/
inductive Shuffled :
    Except Fault (List (Value × Value)) × ν → Except Fault (List (Value × Value)) × ν → Prop
  | answer {es fs : List (Value × Value)} (n : ν) (h : fs.Perm es) :
    Shuffled (.ok es, n) (.ok fs, n)
  | fault (f : Fault) (n : ν) : Shuffled (.error f, n) (.error f, n)

/-- A way of listing that differs from another in the order of the entries only. -/
def Lister.Shuffles (p q : Lister ν τ) : Prop :=
  ∀ now pallet storage params n,
    Shuffled ((p now pallet storage params).runOn n) ((q now pallet storage params).runOn n)

namespace Script

variable {script : Script ν τ} {q : Lister ν τ}

/-- The script on a node with another way of listing. -/
def relist (script : Script ν τ) (q : Lister ν τ) : Script ν τ :=
  { script with node := script.node.relist q }

theorem startRoles_relist : ∀ (roles : List Value) (started : Table Value Int),
    (script.relist q).startRoles started roles = script.startRoles started roles
  | [], _ => rfl
  | role :: rest, started => by
    have hrole : (script.relist q).startRole role = script.startRole role := rfl
    simp only [startRoles, hrole, startRoles_relist rest]

variable [Seconds τ]

theorem execute_relist (step : Step τ) : (script.relist q).execute step = script.execute step := by
  cases step <;> rfl

theorem runSteps_relist (phase : Phase τ) : ∀ (steps : List (Step τ)) (index : Nat),
    (script.relist q).runSteps phase index steps = script.runSteps phase index steps
  | [], _ => rfl
  | step :: rest, index => by
    simp only [runSteps, execute_relist, runSteps_relist phase rest]

/-- **A run of phases lists nothing.** -/
theorem run_relist : ∀ phases : List (Phase τ), (script.relist q).run phases = script.run phases
  | [] => rfl
  | phase :: rest => by
    simp only [run, runPhase, runSteps_relist, run_relist rest]

end Script

/-! ### Drawings on both nodes -/

/-- The same whole numbers in another order are the keys of some entries in another order. -/
theorem ids_of_perm {es fs : List (Value × Value)} (h : fs.Perm es) {ids : List Int}
    (hids : es.map Prod.fst = ids.map .int) :
    ∃ ids' : List Int, fs.map Prod.fst = ids'.map .int ∧ ids'.Perm ids := by
  have hkeys : (fs.map Prod.fst).Perm (ids.map .int) := hids ▸ h.map Prod.fst
  obtain ⟨ids', hids'⟩ := Draw.exists_ints hkeys.subset
  refine ⟨ids', hids', ?_⟩
  rw [hids'] at hkeys
  exact (List.map_perm_map_iff fun _ _ => Value.int.inj).mp hkeys

namespace Command.Drawing

variable {host : Host ν τ} {args : Arguments} {pallets : Pallets} {q : Lister ν τ}

/-- The host with another way of listing. -/
def relist (host : Host ν τ) (q : Lister ν τ) : Host ν τ := { host with node := host.node.relist q }

/-- **The order of the listing does not matter to a division.** -/
theorem division_relist (hq : Lister.Shuffles host.node.queryMap q) {s : Session ν τ}
    (hids : ListsInts host.node pallets s.world.node s.world.clock.now) :
    Agree Session.Akin ((division host pallets args).runOn s)
      ((division (relist host q) pallets args).runOn s) := by
  by_cases hwinners : argument args "winners" = .null
  · have hsame : division (relist host q) pallets args = division host pallets args := by
      simp only [division, hwinners]
    rw [hsame]
    exact ⟨rfl, World.akin_refl _, rfl, rfl⟩
  · have hshuffled := hq s.world.clock.now pallets.sale "Preorders" (.list []) s.world.node
    rcases hanswer : (host.node.queryMap s.world.clock.now pallets.sale "Preorders"
      (.list [])).runOn s.world.node with ⟨answer, n⟩
    rcases hanswer' : ((relist host q).node.queryMap s.world.clock.now pallets.sale "Preorders"
      (.list [])).runOn s.world.node with ⟨answer', n'⟩
    have hshuffled : Shuffled (answer, n) (answer', n') := by
      rw [← hanswer, ← hanswer']
      exact hq _ _ _ _ _
    rw [division_of_query hwinners hanswer, division_of_query hwinners hanswer']
    cases hshuffled with
    | fault f n => exact ⟨rfl, World.akin_refl _, rfl, rfl⟩
    | answer n hperm =>
      rename_i es fs
      obtain ⟨ids, hentries⟩ := hids es n hanswer
      obtain ⟨ids', hentries', hids'⟩ := ids_of_perm hperm hentries
      obtain ⟨pending, ks, htable, hks, hkeys⟩ := Inquiry.tableOf_ints hentries
      obtain ⟨pending', ks', htable', hks', hkeys'⟩ := Inquiry.tableOf_ints hentries'
      have hsame : Once ks' ids :=
        ⟨hks'.nodup, fun i => (hks'.mem_iff i).trans hids'.mem_iff⟩
      have hcount : pending'.keys.length = pending.keys.length := by
        rw [hkeys, hkeys', List.length_map, List.length_map, hks.length_eq, hsame.length_eq]
      have hsplit := Draw.split_congr (fun i => (hsame.mem_iff i).trans (hks.mem_iff i).symm)
        (argument args "winners") (argument args "seed") host.entropy
      rw [← hkeys, ← hkeys'] at hsplit
      have hentropy : (relist host q).entropy = host.entropy := rfl
      simp only [Except.bind, htable, htable', drawn, hentropy, hsplit, hcount]
      have hlisted : World.Akin
          (s.world.after n (.mapQueried pallets.sale "Preorders" (.list []) (.ok es)))
          (s.world.after n (.mapQueried pallets.sale "Preorders" (.list []) (.ok fs))) :=
        ⟨rfl, rfl, rfl⟩
      exact ⟨rfl, hlisted.cons (.printed _), rfl, rfl⟩

/-! ### Whole drawings -/

theorem ignores_say {base : History τ} (line : String) :
    Ignores (Session.recast id base) (say (ν := ν) line) :=
  Session.ignores_inWorld fun _ => rfl

/-- A command ends alike if its body does. -/
theorem agree_run {body body' : Act (World ν τ) Unit} {w : World ν τ}
    (h : Agree World.Akin (body.runOn w) (body'.runOn w)) :
    Agree World.Akin ((run body).runOn w) ((run body').runOn w) := by
  rcases hbody : body.runOn w with ⟨r, m⟩
  rcases hbody' : body'.runOn w with ⟨r', k⟩
  rw [hbody, hbody'] at h
  obtain ⟨rfl, hmk⟩ := h
  rw [run, run, runOn_bind_ok (runOn_attempt _ w), runOn_bind_ok (runOn_attempt _ w), hbody, hbody']
  dsimp only
  split
  · exact ⟨rfl, hmk⟩
  · exact ⟨rfl, hmk.cons (.noticed .interrupted)⟩
  · split
    · exact ⟨rfl, hmk.cons (.noticed (.failed _ _))⟩
    · exact ⟨rfl, hmk⟩

variable [Seconds τ]

theorem ignores_conclude {base : History τ} {settings : Settings τ} (phases : List (Phase τ)) :
    Ignores (Session.recast id base) (conclude host settings args phases) := by
  refine ignores_ite (ignores_say _) (ignores_bind (ignores_ofExcept _) fun accounts => ?_)
  refine ignores_bind (ignores_bind ?_ fun _ => ?_) fun _ => ignores_say _
  · exact Script.ignores_startRoles (fun _ => rfl) _ _
  · refine ignores_bind (ignores_ofExcept _) fun _ => ?_
    exact ignores_bind (Script.ignores_run _) fun _ => ignores_pure _

theorem play_relist (script : Script ν τ) (phases : Except Fault (List (Phase τ))) :
    play (script.relist q) phases = play script phases := by
  have hstart : (script.relist q).start = script.start := Script.startRoles_relist _ _
  simp only [play, hstart, Script.run_relist]

theorem conclude_relist {settings : Settings τ} (phases : List (Phase τ)) :
    conclude (relist host q) settings args phases = conclude host settings args phases := by
  have hplay : ∀ accounts, play (scriptFor (relist host q).node settings accounts) (.ok phases) =
      play (scriptFor host.node settings accounts) (.ok phases) :=
    fun accounts => play_relist (scriptFor host.node settings accounts) _
  simp only [conclude, hplay]
  rfl

namespace Request

variable {r : Request host}

/-- The same request on the node with another way of listing. -/
def relist (r : Request host) (q : Lister ν τ) : Request (Drawing.relist host q) where
  args := r.args
  settings := r.settings
  parses := r.parses
  loads := r.loads

theorem agree_preview (hq : Lister.Shuffles host.node.queryMap q) {s : Session ν τ}
    (hids : ListsInts host.node r.settings.pallets s.world.node s.world.clock.now) :
    Agree Session.Akin (r.preview.runOn s) ((r.relist q).preview.runOn s) := by
  refine agree_bind (division_relist hq hids) fun sides m k _ hmk => ?_
  refine Session.Akin.agree (fun base => ?_) hmk
  refine ignores_bind (ignores_ofExcept _) fun _ => ?_
  exact ignores_bind (ignores_say _) fun _ => ignores_ofExcept _

/-- **The order of the listing does not matter to a drawing**: it ends alike, and all that it does
but for the listing is the same. -/
theorem agree_relist (r : Request host) (hq : Lister.Shuffles host.node.queryMap q) {w : World ν τ}
    (hids : ListsInts host.node r.settings.pallets w.node w.clock.now) :
    Agree World.Akin ((run (perform host)).runOn w)
      ((run (perform (Drawing.relist host q))).runOn w) := by
  refine agree_run ?_
  have hlead : lead (Drawing.relist host q) (r.relist q).settings = lead host r.settings := rfl
  rw [r.perform_eq, (r.relist q).perform_eq, hlead]
  rcases hsame : (lead host r.settings).runOn w with ⟨f | _, m⟩
  · rw [runOn_bind_error hsame, runOn_bind_error hsame]
    exact ⟨rfl, World.akin_refl m⟩
  · have hstart : m = { w with journal := m.journal } := (writes_lead _).of_runOn hsame
    rw [runOn_bind_ok hsame, runOn_bind_ok hsame, runOn_closing, runOn_closing]
    have hbody : Agree Session.Akin
        ((r.preview >>= conclude host r.settings r.args).runOn { world := m })
        (((r.relist q).preview >>= conclude (Drawing.relist host q) r.settings r.args).runOn
          { world := m }) := by
      refine agree_bind (agree_preview hq (by rw [hstart]; exact hids)) fun phases _ _ _ hmk => ?_
      rw [conclude_relist]
      exact hmk.agree fun _ => ignores_conclude phases
    exact ⟨hbody.1, hbody.2.world.cons .closed⟩

end Request

/-- **A dry run previews exactly what a run submits.**  Take a drawing that is dry and one that is
not and is alike otherwise, on the same node in the same state, with an overlord's key for the
second.

* However the dry run ends, nothing was signed or handed in, and no nonce was read.
* Another dry run that is alike does the same, whatever its keys, if it has any.
* If the dry run ends well, a division can be read in the line that it has printed last, and the
  other run prints that line too.  What the other run has had taken is a mint of the ids that are
  chosen in it, if there are any, and then a refund of those that are not, if there are any; both if
  it ends well too, and else up to where it ended.
* If the node lists the preorders in another order, both runs end as before, and do the same but for
  the listing. -/
theorem dry_run_previews {dry wet : Host ν τ} {d : Request dry} {r : Request wet}
    (halike : r.Alike d) (hdry : (argument d.args "dry_run").truthy = true)
    (hwet : (argument r.args "dry_run").truthy = false) {accounts : Roster}
    (hkeys : loadAccounts wet.keyring r.settings ["overlord"] = .ok accounts) {n : ν} {c : Clock τ}
    (hids : ListsInts wet.node r.settings.pallets n c.now) :
    let first := (run (perform dry)).runOn { node := n, clock := c }
    let second := (run (perform wet)).runOn { node := n, clock := c }
    (∀ x ∈ first.2.journal, x.Harmless) ∧
      (∀ (other : Host ν τ) (o : Request other), r.Alike o →
        (argument o.args "dry_run").truthy = true →
          (run (perform other)).runOn { node := n, clock := c } = first) ∧
      (first.1 = .ok 0 → Foretells (scriptFor wet.node r.settings accounts) r.settings.pallets
        first.2.journal (second.1 = .ok 0) second.2.journal) ∧
      ∀ q : Lister ν τ, Lister.Shuffles wet.node.queryMap q →
        Agree World.Akin first ((run (perform (relist dry q))).runOn { node := n, clock := c }) ∧
          Agree World.Akin second
            ((run (perform (relist wet q))).runOn { node := n, clock := c }) := by
  intro first second
  refine ⟨?_, fun other o ho hother => ?_, fun hok => ?_, fun q hq => ⟨?_, r.agree_relist hq hids⟩⟩
  · obtain ⟨new, hnew, hharmless⟩ := d.harmless_of_dry hdry { node := n, clock := c }
    rw [List.append_nil] at hnew
    exact fun x hx => hharmless x (hnew ▸ hx)
  · rw [halike.perform_eq ho hdry hother]
  · exact Request.foretells halike hdry hwet hkeys hids (Prod.ext hok rfl) rfl
  · refine d.agree_relist (halike.node ▸ hq) ?_
    rw [halike.node, halike.pallets_eq]
    exact hids

/-- A host with the overlord's key, and a command line that names the ids. -/
def resolving : Host Sequential.State Value where
  arguments := ["--chosen", "5", "3", "--not-chosen", "4"]
  environment := ⟨[("OVERLORD_PRIVKEY", "//Bob")]⟩
  files := {}
  keyring := {}
  node := Sequential.node {}
  obstacle := none

/-- The same command line as a dry one, and no key. -/
def rehearsing : Host Sequential.State Value :=
  { resolving with arguments := "--dry-run" :: resolving.arguments, environment := .empty }

set_option maxRecDepth 100000 in
/-- A dry run without a key ends well.  The run with the key prints the same division, and submits
both sides of it. -/
theorem dry_run_previews_keyless :
    let start : World Sequential.State Value :=
      { node := .ofNonces .empty, clock := { now := .int 0 } }
    let first := (run (perform rehearsing)).runOn start
    let second := (run (perform resolving)).runOn start
    let rule := String.ofList (List.replicate 60 '=')
    let shown := rule ++ "\n  PHALA WORLD - Preorder Drawing\n" ++ rule ++
      "\n\x7b\n  \"chosen\": [\n    5,\n    3\n  ],\n  \"not_chosen\": [\n    4\n  ]\n\x7d\n"
    (∀ x ∈ first.2.journal, x.Harmless) ∧ first.1 = .ok 0 ∧
      Event.printedText first.2.journal.reverse = shown ++ "ℹ️  Dry run, nothing submitted\n" ∧
      Event.printedText second.2.journal.reverse = shown ++ "✅ Preorders resolved\n" ∧
      (taken second.2.journal).map (fun x => (x.nonce, x.call.written)) = [
        (0, "\x7b'module': 'PwNftSale', 'function': 'mint_chosen_preorders', " ++
          "'args': \x7b'preorders': [5, 3]\x7d\x7d"),
        (1, "\x7b'module': 'PwNftSale', 'function': 'refund_not_chosen_preorders', " ++
          "'args': \x7b'preorders': [4]\x7d\x7d")] ∧
      ∃ (script : Script Sequential.State Value) (pallets : Pallets),
        Foretells script pallets first.2.journal (second.1 = .ok 0) second.2.journal := by
  intro start first second rule shown
  have hready : (grammar.parse resolving.arguments).toOption.any (fun args =>
      !(argument args "dry_run").truthy && (argument args "winners").typeName == "NoneType" &&
        (settingsOf resolving args).toOption.any fun settings =>
          (loadAccounts resolving.keyring settings ["overlord"]).toOption.any fun _ => true) =
        true := by
    decide +kernel
  obtain ⟨args, hargs, hready⟩ := exists_of_any hready
  simp only [Bool.and_eq_true, Bool.not_eq_true', beq_iff_eq] at hready
  obtain ⟨⟨hwet, hwinners⟩, hready⟩ := hready
  obtain ⟨settings, hsettings, hready⟩ := exists_of_any hready
  obtain ⟨accounts, haccounts, -⟩ := exists_of_any hready
  let r : Request resolving := ⟨args, settings, hargs, hsettings⟩
  have hnull : argument r.args "winners" = .null := by
    change (argument r.args "winners").typeName = "NoneType" at hwinners
    cases hv : argument r.args "winners" <;> simp_all [Value.typeName]
  obtain ⟨d, halike, hdry⟩ := r.exists_dry (fun hnot => absurd hnull hnot)
    (rfl : rehearsing.arguments = _) rfl rfl rfl
  have hids : ListsInts resolving.node r.settings.pallets start.node start.clock.now := by
    intro entries m h
    obtain ⟨hnone, -⟩ := Prod.mk.inj h
    exact ⟨[], by rw [← Except.ok.inj hnone]; rfl⟩
  obtain ⟨hharmless, -, hforetells, -⟩ := dry_run_previews halike hdry hwet haccounts hids
  have hfirst : first.1 = .ok 0 := by
    have hstatus : first.1.toOption.any (· == 0) = true := by decide +kernel
    obtain ⟨status, hok, hzero⟩ := exists_of_any hstatus
    rw [hok, beq_iff_eq.mp hzero]
  exact ⟨hharmless, hfirst, by decide +kernel, by decide +kernel, by decide +kernel, _, _,
    hforetells hfirst⟩

end Command.Drawing

end Campaign
