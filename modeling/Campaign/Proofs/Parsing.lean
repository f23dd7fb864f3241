import Campaign.Command.Drawing
import Campaign.Proofs.Action
import Campaign.Proofs.Entries

/-!
# What the words of a command line give

Whatever has been read before, the same words give the same options the same values, or fail in the
same way (`gives_readMarked`).  A `Gift` is an option with the value that some words make, and the
arguments of a command line are its gifts put onto the defaults, in order (`parse_ok_iff`).

So what is found under a key is the default of an option of that key, or what words make of one
(`found_of_parse`): for a drawing, ids are whole numbers (`ids_of_parse`).  And `--dry-run` in front
of its command line is one gift more, which changes nothing else (`parse_dryRun`).
-/

namespace Campaign

/-- Words that an option may be given: one, if it takes one. -/
def Switch.Suits (s : Switch) (words : List String) : Prop := s.takes = .one → words.length = 1

namespace Grammar

variable {switches : List Switch}

/-- An option among some, with words and the value that they make. -/
structure Gift (switches : List Switch) where
  switch : Switch
  value : Value
  mem : switch ∈ switches
  helpless : switch.help = false
  reads : ∃ words, switch.value words = .ok value

/-- What has been read, with one gift more. -/
def Reading.accept (r : Reading) (g : Gift switches) : Reading :=
  { r with values := r.values.put g.switch.key g.value, seen := g.switch.key :: r.seen }

/-- What has been read, with some gifts more and words that nobody takes. -/
def Reading.extend (r : Reading) (gs : List (Gift switches)) (extras : List String) : Reading :=
  { gs.foldl Reading.accept r with extras := r.extras ++ extras }

theorem extend_cons (r : Reading) (g : Gift switches) (gs : List (Gift switches))
    (extras : List String) : (r.accept g).extend gs extras = r.extend (g :: gs) extras := rfl

theorem foldl_accept (gs : List (Gift switches)) (extras : List String) : ∀ r : Reading,
    gs.foldl Reading.accept { r with extras } = { gs.foldl Reading.accept r with extras } := by
  induction gs with
  | nil => exact fun _ => rfl
  | cons g gs ih => exact fun r => ih (r.accept g)

theorem extend_extend (gs' : List (Gift switches)) (extras extras' : List String) :
    ∀ (gs : List (Gift switches)) (r : Reading),
      (r.extend gs extras).extend gs' extras' = r.extend (gs ++ gs') (extras ++ extras')
  | g :: gs, r => extend_extend gs' extras extras' gs (r.accept g)
  | [], r => by
    have hfirst : r.extend ([] : List (Gift switches)) extras =
        { r with extras := r.extras ++ extras } := rfl
    rw [hfirst, Reading.extend, foldl_accept, List.append_assoc]
    rfl

/-! ### The options that words name -/

theorem mem_of_names {name : String} {s : Switch} (h : (name, s) ∈ names switches) :
    s ∈ switches := by
  obtain ⟨t, ht, hname⟩ := List.mem_flatMap.mp h
  obtain ⟨_, -, heq⟩ := List.mem_map.mp hname
  obtain ⟨-, rfl⟩ := Prod.mk.inj heq
  exact ht

theorem mem_of_lookup {name : String} {s : Switch} (h : (names switches).lookup name = some s) :
    s ∈ switches := by
  obtain ⟨before, after, hnames, -⟩ := List.lookup_eq_some_iff.mp h
  have hmem : (name, s) ∈ names switches := by simp [hnames]
  exact mem_of_names hmem

theorem mem_of_candidates {word name : String} {s : Switch} {attached : Option String}
    (h : (name, s, attached) ∈ candidates switches word) : s ∈ switches := by
  unfold candidates at h
  split at h
  · obtain ⟨⟨n, t⟩, hmem, heq⟩ := List.mem_map.mp h
    cases heq
    exact mem_of_names (List.mem_filter.mp hmem).1
  · obtain ⟨⟨n, t⟩, hmem, heq⟩ := List.mem_filterMap.mp h
    dsimp only at heq
    split at heq
    · cases heq
      exact mem_of_names hmem
    · split at heq <;> cases heq
      exact mem_of_names hmem

/-- A mark that names an option names one of those there are. -/
theorem mem_of_mark {word name : String} {s : Switch} {attached : Option String}
    (h : mark switches word = .ok (.option (some (name, s)) attached)) : s ∈ switches := by
  have hknown : ∀ {n : String} {found : String × Switch},
      ((names switches).lookup n).map (fun t => (n, t)) = some found → found.2 ∈ switches := by
    intro n found hn
    obtain ⟨t, ht, rfl⟩ := Option.map_eq_some_iff.mp hn
    exact mem_of_lookup ht
  unfold mark at h
  split at h
  · cases h
  · dsimp only at h
    split at h
    · rename_i hfound
      cases h
      exact hknown hfound
    · rename_i hfound
      cases h
      exact hknown hfound
    · split at h
      · rename_i hone
        cases h
        exact mem_of_candidates (hone ▸ List.mem_singleton_self _)
      · split at h <;> cases h
      · cases h

/-- Marked words name options that there are. -/
def Known (switches : List Switch) (marked : List (String × Mark)) : Prop :=
  ∀ word name s attached, (word, Mark.option (some (name, s)) attached) ∈ marked → s ∈ switches

theorem Known.mono {marked later : List (String × Mark)} (h : Known switches marked)
    (hsub : later ⊆ marked) : Known switches later :=
  fun word name s attached hmem => h word name s attached (hsub hmem)

theorem known_of_marks : ∀ {words : List String} {marked : List (String × Mark)},
    marks switches words = .ok marked → Known switches marked
  | [], _, h => by
    cases h
    simp [Known]
  | word :: rest, marked, h => by
    intro w name s attached hmem
    rw [marks] at h
    split at h
    · cases h
      simp at hmem
    · obtain ⟨m, hm, h⟩ := Act.outcome_bind_ok.mp h
      obtain ⟨later, hlater, h⟩ := Act.outcome_bind_ok.mp h
      cases h
      rcases List.mem_cons.mp hmem with heq | hmem
      · cases heq
        exact mem_of_mark hm
      · exact known_of_marks hlater w name s attached hmem

theorem granted_of_cluster : ∀ {tail : List Char} {s : Switch} {c : Cluster}, s ∈ switches →
    cluster switches s tail = .ok c →
      (∀ p ∈ c.given, p.1 ∈ switches ∧ p.1.Suits p.2) ∧ ∀ t ∈ c.last, t ∈ switches
  | tail, s, c, hs, h => by
    unfold cluster at h
    split at h
    · cases h
      simpa [Switch.Suits] using hs
    · rename_i htakes
      have htakes : s.takes = .nothing := Decidable.not_not.mp htakes
      have hgrant : s ∈ switches ∧ s.Suits [] := ⟨hs, by simp [Switch.Suits, htakes]⟩
      split at h
      · cases h
      · split at h
        · cases h
        · rename_i next hnext
          cases h
          simpa using ⟨hgrant, mem_of_lookup hnext⟩
        · rename_i next d rest hnext
          obtain ⟨found, hfound, h⟩ := Act.outcome_bind_ok.mp h
          cases h
          obtain ⟨hgiven, hlast⟩ := granted_of_cluster (mem_of_lookup hnext) hfound
          exact ⟨List.forall_mem_cons.mpr ⟨hgrant, hgiven⟩, hlast⟩

theorem granted_of_alone {name : String} {s : Switch} {attached : Option String} {c : Cluster}
    (hs : s ∈ switches) (h : alone switches name s attached = .ok c) :
    (∀ p ∈ c.given, p.1 ∈ switches ∧ p.1.Suits p.2) ∧ ∀ t ∈ c.last, t ∈ switches := by
  cases attached with
  | none =>
    cases h
    simpa using hs
  | some text =>
    rw [alone] at h
    split at h
    · cases h
    · exact granted_of_cluster hs h

/-! ### The gifts of words -/

/-- Whatever has been read before, this fails in one way, or brings some gifts and words that nobody
takes. -/
def Gives (switches : List Switch) (act : Reading → Except Stop Reading) : Prop :=
  (∃ stop, ∀ r, act r = .error stop) ∨
    ∃ (gs : List (Gift switches)) (extras : List String), ∀ r, act r = .ok (r.extend gs extras)

theorem gives_ok : Gives switches .ok :=
  Or.inr ⟨[], [], fun r => by simp [Reading.extend]⟩

theorem Gives.bind {act next : Reading → Except Stop Reading} (h : Gives switches act)
    (hnext : Gives switches next) : Gives switches fun r => act r >>= next := by
  rcases h with ⟨stop, hstop⟩ | ⟨gs, extras, hgs⟩
  · exact Or.inl ⟨stop, fun r => congrArg (· >>= next) (hstop r)⟩
  · rcases hnext with ⟨stop, hstop⟩ | ⟨gs', extras', hgs'⟩
    · exact Or.inl ⟨stop, fun r => (congrArg (· >>= next) (hgs r)).trans (hstop _)⟩
    · refine Or.inr ⟨gs ++ gs', extras ++ extras', fun r => ?_⟩
      rw [← extend_extend]
      exact (congrArg (· >>= next) (hgs r)).trans (hgs' _)

/-- A word that nobody takes comes before what follows. -/
theorem Gives.unclaimed {next : Reading → Except Stop Reading} (h : Gives switches next)
    (word : String) : Gives switches fun r => next { r with extras := r.extras ++ [word] } := by
  have hword : Gives switches fun r => .ok { r with extras := r.extras ++ [word] } :=
    Or.inr ⟨[], [word], fun _ => rfl⟩
  exact hword.bind h

theorem gives_give {s : Switch} (hs : s ∈ switches) (words : List String) :
    Gives switches fun r => r.give s words := by
  cases hhelp : s.help with
  | true => exact Or.inl ⟨.help, fun r => by simp [Reading.give, hhelp]⟩
  | false =>
    cases hvalue : s.value words with
    | error message =>
      exact Or.inl ⟨.complaint message, fun r => by simp [Reading.give, hhelp, hvalue]⟩
    | ok v =>
      refine Or.inr ⟨[⟨s, v, hs, hhelp, words, hvalue⟩], [], fun r => ?_⟩
      simp [Reading.give, hhelp, hvalue, Reading.extend, Reading.accept]

theorem gives_giveAll : ∀ {gives : List (Switch × List String)},
    (∀ p ∈ gives, p.1 ∈ switches ∧ p.1.Suits p.2) → Gives switches fun r => r.giveAll gives
  | [], _ => gives_ok
  | (s, words) :: rest, hgranted => by
    obtain ⟨⟨hs, -⟩, hrest⟩ := List.forall_mem_cons.mp hgranted
    exact (gives_give hs words).bind (gives_giveAll hrest)

theorem suffix_following {s : Switch} {words : List (String × Mark)}
    {r : List String × List (String × Mark)} (h : following s words = .ok r) : r.2 <:+ words := by
  unfold following at h
  split at h
  · cases h
    exact List.suffix_rfl
  · cases h
    exact List.suffix_cons _ _
  · cases h
  · cases h
    exact List.dropWhile_suffix _

theorem suits_following {s : Switch} {words : List (String × Mark)}
    {r : List String × List (String × Mark)} (h : following s words = .ok r) : s.Suits r.1 := by
  intro htakes
  unfold following at h
  rw [htakes] at h
  split at h
  · simp_all
  · cases h
    rfl
  · cases h
  · simp_all

/-- **An option with what it takes**: the words that are left do not depend on what was read. -/
theorem takeOption_cases (name : String) {s : Switch} (hs : s ∈ switches)
    (attached : Option String) (words : List (String × Mark)) :
    (∃ stop, ∀ r : Reading, r.takeOption switches name s attached words = .error stop) ∨
      ∃ gives rest, rest.1 <:+ words ∧ (∀ p ∈ gives, p.1 ∈ switches ∧ p.1.Suits p.2) ∧
        ∀ r : Reading, r.takeOption switches name s attached words =
          (r.giveAll gives).map fun r => (r, rest) := by
  unfold Reading.takeOption
  cases hc : alone switches name s attached with
  | error message => exact Or.inl ⟨.complaint message, fun _ => rfl⟩
  | ok c =>
    obtain ⟨hgiven, hlast⟩ := granted_of_alone hs hc
    cases hend : c.last with
    | none =>
      refine Or.inr ⟨c.given, ⟨words, Nat.le_refl _⟩, List.suffix_rfl, hgiven, fun r => ?_⟩
      simp [hend, bind, Except.bind, pure, Except.pure, Except.map]
    | some t =>
      cases hfollow : following t words with
      | error message =>
        refine Or.inl ⟨.complaint message, fun r => ?_⟩
        simp only [Act.mapError_ok, hend, bind, Except.bind]
        split
        · rename_i hfound
          cases hfollow.symm.trans hfound
          rfl
        · rename_i hfound
          cases hfollow.symm.trans hfound
      | ok left =>
        refine Or.inr ⟨c.given ++ [(t, left.1)], ⟨left.2, length_following hfollow⟩,
          suffix_following hfollow, ?_, fun r => ?_⟩
        · refine List.forall_mem_append.mpr ⟨hgiven, ?_⟩
          simpa using ⟨hlast t hend, suits_following hfollow⟩
        · simp only [Act.mapError_ok, hend, bind, Except.bind]
          split
          · rename_i hfound
            cases hfollow.symm.trans hfound
          · rename_i hfound
            cases hfollow.symm.trans hfound
            rfl

/-- **Marked words give gifts**, the same whatever was read before them. -/
theorem gives_readMarked (marked : List (String × Mark)) (hknown : Known switches marked) :
    Gives switches fun r => readMarked switches false r marked := by
  match marked, hknown with
  | [], _ =>
    simp only [readMarked]
    exact gives_ok
  | (word, .option (some (name, s)) attached) :: rest, hknown =>
    have hs : s ∈ switches := hknown word name s attached List.mem_cons_self
    rcases takeOption_cases name hs attached rest with ⟨stop, hstop⟩ |
      ⟨gives, left, hleft, hgives, htake⟩
    · refine Or.inl ⟨stop, fun r => ?_⟩
      simp only [readMarked, hstop]
      rfl
    · have hshort := Nat.lt_succ_of_le left.2
      have hrest := gives_readMarked left.1
        (hknown.mono (List.Subset.trans hleft.subset (List.subset_cons_self _ _)))
      have hsame : (fun r => readMarked switches false r
          ((word, .option (some (name, s)) attached) :: rest)) =
            fun r => r.giveAll gives >>= fun r => readMarked switches false r left.1 := by
        funext r
        rw [readMarked, htake]
        cases r.giveAll gives <;> rfl
      rw [hsame]
      exact (gives_giveAll hgives).bind hrest
  | (word, .option none attached) :: rest, hknown =>
    have hrest := gives_readMarked rest (hknown.mono (List.subset_cons_self _ _))
    simpa only [readMarked] using hrest.unclaimed word
  | (word, .plain) :: rest, hknown =>
    have hrest := gives_readMarked rest (hknown.mono (List.subset_cons_self _ _))
    simpa [readMarked] using hrest.unclaimed word
  | (word, .rest) :: rest, hknown =>
    have hrest := gives_readMarked rest (hknown.mono (List.subset_cons_self _ _))
    simpa [readMarked] using hrest.unclaimed word
termination_by marked.length

/-! ### Command lines without subcommands -/

variable {g : Grammar}

/-- All options of a grammar. -/
def options (g : Grammar) : List Switch := .helpSwitch :: g.switches

/-- Words that give some gifts, and that are all taken. -/
def Makes (g : Grammar) (words : List String) (gs : List (Gift g.options)) : Prop :=
  ∃ marked, marks g.options words = .ok marked ∧
    ∀ r, readMarked g.options false r marked = .ok (r.extend gs [])

/-- The arguments that gifts make of the defaults. -/
def collect (gs : List (Gift g.options)) : Arguments :=
  (Reading.extend { values := defaults g.options } gs []).values

theorem report_ok {α : Type} {program : String} {r : Except Stop α} {a : α} :
    report program r = .ok a ↔ r = .ok a := by
  cases r with
  | ok b => simp [report]
  | error stop => cases stop <;> simp [report]

/-- **A command line is read** if its words are all taken; the arguments are what they give. -/
theorem parse_ok_iff (hnone : g.subcommands = none) (hfree : ∀ s ∈ g.switches, s.required = false)
    {words : List String} {args : Arguments} :
    g.parse words = .ok args ↔ ∃ gs, g.Makes words gs ∧ args = collect gs := by
  have hdemand : ∀ r : Reading, demand (missing g.options r) = .ok () := by
    intro r
    have hmissing : missing g.options r = [] := by
      rw [missing, List.map_eq_nil_iff, List.filter_eq_nil_iff]
      intro s hs
      rcases List.mem_cons.mp hs with rfl | hs
      · simp [Switch.helpSwitch]
      · simp [hfree s hs]
    rw [hmissing]
    rfl
  have hparse : g.parse words = .ok args ↔ ∃ r, readWords g.options false words = .ok r ∧
      r.extras.isEmpty = true ∧ args = r.values := by
    have halone : ∀ r, readAlone g.program g.options words = .ok r ↔
        readWords g.options false words = .ok r := by
      intro r
      simp only [readAlone, report_ok, Act.outcome_bind_ok, hdemand]
      simp [pure, Except.pure]
    unfold parse
    rw [hnone, Act.outcome_bind_ok]
    refine exists_congr fun r => and_congr (halone r) ?_
    by_cases hextras : r.extras.isEmpty
    · simp [hextras, pure, Except.pure, eq_comm]
    · simp [hextras, report]
  rw [hparse]
  constructor
  · rintro ⟨r, hr, hextras, rfl⟩
    obtain ⟨marked, hmarked, hr⟩ := Act.outcome_bind_ok.mp hr
    rw [Act.outcome_mapError_ok] at hmarked
    rcases gives_readMarked marked (known_of_marks hmarked) with ⟨stop, hstop⟩ | ⟨gs, extras, hgs⟩
    · cases (hstop _).symm.trans hr
    · obtain rfl := Except.ok.inj ((hgs _).symm.trans hr)
      obtain rfl : extras = [] := by simpa [Reading.extend] using hextras
      exact ⟨gs, ⟨marked, hmarked, hgs⟩, rfl⟩
  · rintro ⟨gs, ⟨marked, hmarked, hgs⟩, rfl⟩
    refine ⟨_, ?_, ?_, rfl⟩
    · rw [readWords, hmarked]
      exact hgs _
    · simp [Reading.extend]

/-! ### What is found under a key -/

/-- The value of the last gift for a key. -/
def latest? (key : String) (gs : List (Gift switches)) : Option Value :=
  (gs.reverse.find? fun d => d.switch.key = key).map Gift.value

theorem mem_of_latest? {key : String} {gs : List (Gift switches)} {v : Value}
    (h : latest? key gs = some v) : ∃ d ∈ gs, d.switch.key = key ∧ d.value = v := by
  obtain ⟨d, hd, rfl⟩ := Option.map_eq_some_iff.mp h
  exact ⟨d, List.mem_reverse.mp (List.mem_of_find?_eq_some hd), by simpa using List.find?_some hd,
    rfl⟩

theorem latest?_cons (key : String) (d : Gift switches) (gs : List (Gift switches)) :
    latest? key (d :: gs) =
      (latest? key gs).or (if d.switch.key = key then some d.value else none) := by
  rw [latest?, latest?, List.reverse_cons, List.find?_append]
  by_cases hkey : d.switch.key = key <;>
    cases gs.reverse.find? (fun e => e.switch.key = key) <;> simp [hkey]

/-- **The last gift for a key counts**, and without one what was there before. -/
theorem get?_extend (key : String) : ∀ (gs : List (Gift switches)) (r : Reading),
    (r.extend gs []).values.get? key = (latest? key gs).or (r.values.get? key)
  | [], _ => rfl
  | d :: gs, r => by
    have haccept : (r.accept d).values.get? key =
        if d.switch.key = key then some d.value else r.values.get? key :=
      Table.get?_put r.values d.switch.key key d.value
    rw [← extend_cons, get?_extend key gs (r.accept d), haccept, latest?_cons]
    cases latest? key gs <;> split <;> rfl

/-- **What is found under a key** is the default of an option of that key, or what words make of
one. -/
theorem found_of_parse (hnone : g.subcommands = none) (hfree : ∀ s ∈ g.switches, s.required = false)
    {words : List String} {args : Arguments} (h : g.parse words = .ok args) {key : String}
    {v : Value} (hv : args.get? key = some v) :
    ∃ s ∈ g.switches, s.key = key ∧ (v = s.default ∨ ∃ ws, s.value ws = .ok v) := by
  obtain ⟨gs, -, rfl⟩ := (parse_ok_iff hnone hfree).mp h
  have hmem : ∀ s ∈ g.options, s.help = false → s ∈ g.switches := by
    intro s hs hhelp
    rcases List.mem_cons.mp hs with rfl | hs
    · cases hhelp
    · exact hs
  rw [collect, get?_extend] at hv
  rcases Option.or_eq_some_iff.mp hv with hv | ⟨-, hv⟩
  · obtain ⟨d, -, hkey, rfl⟩ := mem_of_latest? hv
    exact ⟨d.switch, hmem _ d.mem d.helpless, hkey, Or.inr d.reads⟩
  · obtain ⟨s, hs, heq⟩ := List.mem_map.mp (Table.mem_of_get?_ofList hv)
    obtain ⟨rfl, rfl⟩ := Prod.mk.inj heq
    obtain ⟨hs, hhelp⟩ := List.mem_filter.mp hs
    exact ⟨s, hmem s hs (by simpa using hhelp), rfl, Or.inl rfl⟩

end Grammar

/-! ### Values of options -/

namespace Switch

variable {s : Switch} {words : List String} {v : Value}

theorem value_nothing (htakes : s.takes = .nothing) (h : s.value words = .ok v) :
    v = .bool true := by
  obtain ⟨vs, -, h⟩ := Act.outcome_bind_ok.mp h
  obtain ⟨_, -, h⟩ := Act.outcome_bind_ok.mp h
  rw [htakes] at h
  exact (Except.ok.inj h).symm

theorem read_whole (hwhole : s.whole = true) {word : String} (h : s.read word = .ok v) :
    ∃ n : Int, v = .int n := by
  rw [read, if_pos hwhole] at h
  split at h
  · exact ⟨_, (Except.ok.inj h).symm⟩
  · cases h

/-- Words that are read as whole numbers. -/
theorem reads_whole (hwhole : s.whole = true) : ∀ {words : List String} {vs : List Value},
    words.mapM s.read = .ok vs → ∃ ns : List Int, vs = ns.map .int
  | [], vs, h => ⟨[], by simpa [pure, Except.pure, eq_comm] using h⟩
  | word :: rest, vs, h => by
    rw [List.mapM_cons] at h
    obtain ⟨v, hv, h⟩ := Act.outcome_bind_ok.mp h
    obtain ⟨later, hlater, h⟩ := Act.outcome_bind_ok.mp h
    obtain ⟨n, rfl⟩ := read_whole hwhole hv
    obtain ⟨ns, rfl⟩ := reads_whole hwhole hlater
    exact ⟨n :: ns, (Except.ok.inj h).symm⟩

/-- An option for whole numbers has one, or a list of them if it takes many. -/
theorem value_whole (hwhole : s.whole = true) (htakes : s.takes ≠ .nothing)
    (h : s.value words = .ok v) :
    (s.takes = .one ∧ ∃ n : Int, v = .int n) ∨ ∃ ns : List Int, v = .list (ns.map .int) := by
  obtain ⟨vs, hvs, h⟩ := Act.outcome_bind_ok.mp h
  obtain ⟨_, -, h⟩ := Act.outcome_bind_ok.mp h
  obtain ⟨ns, rfl⟩ := reads_whole hwhole hvs
  split at h
  · rename_i hnothing
    exact absurd hnothing htakes
  · rename_i hone heq
    obtain ⟨n, rest, rfl, rfl, -⟩ := List.map_eq_cons_iff.mp heq
    exact Or.inl ⟨hone, _, (Except.ok.inj h).symm⟩
  · exact Or.inr ⟨ns, (Except.ok.inj h).symm⟩

end Switch

/-! ### The command line of a drawing -/

namespace Command.Drawing

open Grammar

variable {words : List String} {args : Arguments}

theorem parse_iff : grammar.parse words = .ok args ↔
    ∃ gs, grammar.Makes words gs ∧ args = collect gs :=
  parse_ok_iff rfl (by simp [grammar, endpointSwitch])

/-- What is found under a key of whole numbers that has no default. -/
theorem whole_of_parse (h : grammar.parse words = .ok args) (key : String)
    (hkey : ∀ s ∈ grammar.switches, s.key = key →
      s.whole = true ∧ s.takes ≠ .nothing ∧ s.default = .null) :
    argument args key = .null ∨
      ((∃ s ∈ grammar.switches, s.key = key ∧ s.takes = .one) ∧
        ∃ n : Int, argument args key = .int n) ∨
      ∃ ns : List Int, argument args key = .list (ns.map .int) := by
  rw [argument]
  cases hv : args.get? key with
  | none => exact Or.inl rfl
  | some v =>
    obtain ⟨s, hs, hname, hdefault | ⟨ws, hws⟩⟩ :=
      found_of_parse rfl (by simp [grammar, endpointSwitch]) h hv
    · exact Or.inl (hdefault.trans (hkey s hs hname).2.2)
    · obtain ⟨hwhole, htakes, -⟩ := hkey s hs hname
      rcases Switch.value_whole hwhole htakes hws with ⟨hone, hint⟩ | hints
      · exact Or.inr (Or.inl ⟨⟨s, hs, hname, hone⟩, hint⟩)
      · exact Or.inr (Or.inr hints)

/-- **The ids on a command line are whole numbers**, and so are the standard ones. -/
theorem ids_of_parse (h : grammar.parse words = .ok args) {key : String}
    (hkey : key = "chosen" ∨ key = "not_chosen") (standard : List Int) :
    ∃ ids : List Int, idsOf args key standard = .list (ids.map .int) := by
  have hmany : ∀ s ∈ grammar.switches, s.key = key →
      s.whole = true ∧ s.takes = .many ∧ s.default = .null := by
    rcases hkey with rfl | rfl <;> simp [grammar, endpointSwitch]
  have hfound := whole_of_parse h key fun s hs hname => by simp [hmany s hs hname]
  rw [idsOf]
  rcases hfound with hnull | ⟨⟨s, hs, hname, hone⟩, -⟩ | ⟨ids, hids⟩
  · exact ⟨standard, by rw [hnull]⟩
  · rw [(hmany s hs hname).2.1] at hone
    cases hone
  · exact ⟨ids, by rw [hids]⟩

/-- The number of winners on a command line, if it is one. -/
theorem winners_of_parse (h : grammar.parse words = .ok args) :
    argument args "winners" = .null ∨ (∃ n : Int, argument args "winners" = .int n) ∨
      ∃ ns : List Int, argument args "winners" = .list (ns.map .int) := by
  rcases whole_of_parse h "winners" (by simp [grammar, endpointSwitch]) with
    hnull | ⟨-, hint⟩ | hints
  · exact Or.inl hnull
  · exact Or.inr (Or.inl hint)
  · exact Or.inr (Or.inr hints)

/-- The option for a dry run. -/
def drySwitch : Switch :=
  { names := ["--dry-run"], key := "dry_run", takes := .nothing, default := .bool false }

/-- A dry run that is asked for. -/
def dryGift : Gift grammar.options where
  switch := drySwitch
  value := .bool true
  mem := by simp [options, grammar, drySwitch]
  helpless := rfl
  reads := ⟨[], rfl⟩

theorem makes_dryRun {gs : List (Gift grammar.options)} (h : grammar.Makes words gs) :
    grammar.Makes ("--dry-run" :: words) (dryGift :: gs) := by
  obtain ⟨marked, hmarked, hgs⟩ := h
  have hmark : mark grammar.options "--dry-run" =
      .ok (.option (some ("--dry-run", drySwitch)) none) := by
    have hplain : ¬ ((!"--dry-run".startsWith "-" || decide ("--dry-run" = "-")) = true) := by
      decide +kernel
    have hfound : (names grammar.options).lookup "--dry-run" = some drySwitch := rfl
    rw [mark, if_neg hplain]
    simp only [hfound, Option.map_some]
  refine ⟨("--dry-run", .option (some ("--dry-run", drySwitch)) none) :: marked, ?_, fun r => ?_⟩
  · rw [marks, if_neg (by decide), hmark, hmarked]
    rfl
  · rw [readMarked]
    exact hgs (r.accept dryGift)

/-- **`--dry-run` in front of a command line** asks for a dry run and changes nothing else among the
arguments. -/
theorem parse_dryRun (h : grammar.parse words = .ok args) :
    ∃ dry, grammar.parse ("--dry-run" :: words) = .ok dry ∧
      argument dry "dry_run" = .bool true ∧
      ∀ key, key ≠ "dry_run" → argument dry key = argument args key := by
  obtain ⟨gs, hgs, rfl⟩ := parse_iff.mp h
  refine ⟨collect (dryGift :: gs), parse_iff.mpr ⟨_, makes_dryRun hgs, rfl⟩, ?_, fun key hkey => ?_⟩
  · rw [argument, collect, get?_extend, latest?_cons]
    cases hlatest : latest? "dry_run" gs with
    | none => rfl
    | some v =>
      obtain ⟨d, -, hkey, rfl⟩ := mem_of_latest? hlatest
      have hswitch : ∀ s ∈ grammar.options, s.key = "dry_run" → s.takes = .nothing := by
        simp [options, grammar, endpointSwitch, Switch.helpSwitch]
      obtain ⟨ws, hws⟩ := d.reads
      exact Switch.value_nothing (hswitch d.switch d.mem hkey) hws
  · have hother : ¬ dryGift.switch.key = key := Ne.symm hkey
    rw [argument, argument, collect, collect, get?_extend, get?_extend, latest?_cons,
      if_neg hother, Option.or_none]

end Command.Drawing

end Campaign
