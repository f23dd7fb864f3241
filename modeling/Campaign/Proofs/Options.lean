import Campaign.Command.Transact
import Campaign.Proofs.Entries
import Campaign.Proofs.Parsing
import Campaign.Proofs.Tracker

/-!
# What options hold

A command line that is read leaves a value under the key of each of its options.  `Switch.Finds`
says which: the default, unless the option is required, or what suitable words make of it.  While
words are read this is not true yet, since a required option has its default until it is seen; the
invariant is `Reading.Sound`, and what is missing is asked for at the end.

* `holds_of_parse` is for a command line without subcommands.
* `holds_of_command` is for one with subcommands: its options are those of a listed subcommand, put
  onto what was read before it.
* `Switch.finds_choice`, `finds_whole` and `finds_text` say what such values are.  Besides the ones
  that are meant there is the empty list, which an option is left with whose only word is `--`.
-/

namespace Campaign

open Act

/-! ### What an option holds -/

namespace Switch

variable {s : Switch} {v : Value} {words : List String}

/-- **What is found for an option** once a command line is read: its default, unless it is required,
or what suitable words make of it. -/
def Finds (s : Switch) (v : Value) : Prop :=
  (s.required = false ∧ v = s.default) ∨ ∃ words, s.Suits words ∧ s.value words = .ok v

/-- An option that takes one word has the value of this word; if that is `--`, it is left with an
empty list. -/
theorem value_one (htakes : s.takes = .one) (hsuits : s.Suits words) (h : s.value words = .ok v) :
    v = .list [] ∨ ∃ word, s.read word = .ok v ∧ s.check v = .ok () := by
  obtain ⟨word, rfl⟩ := List.length_eq_one_iff.mp (hsuits htakes)
  obtain ⟨vs, hvs, h⟩ := outcome_bind_ok.mp h
  obtain ⟨_, hchecked, h⟩ := outcome_bind_ok.mp h
  by_cases hrest : word = "--"
  · have hnone : vs = [] := by simpa [hrest, pure, Except.pure, eq_comm] using hvs
    rw [htakes, hnone] at h
    exact Or.inl (Except.ok.inj h).symm
  · have hsame : [word].erase "--" = [word] := List.erase_of_not_mem (by simpa using Ne.symm hrest)
    rw [hsame, List.mapM_cons] at hvs
    obtain ⟨u, hu, hvs⟩ := outcome_bind_ok.mp hvs
    obtain rfl : vs = [u] := (Except.ok.inj hvs).symm
    rw [htakes] at h
    obtain rfl := Except.ok.inj h
    obtain ⟨_, hcheck, -⟩ := outcome_bind_ok.mp hchecked
    exact Or.inr ⟨word, hu, hcheck⟩

theorem finds_one (htakes : s.takes = .one) (h : s.Finds v) :
    (s.required = false ∧ v = s.default) ∨ v = .list [] ∨
      ∃ word, s.read word = .ok v ∧ s.check v = .ok () :=
  h.imp_right fun ⟨_, hsuits, hvalue⟩ => value_one htakes hsuits hvalue

theorem read_text (hwhole : s.whole = false) {word : String} (h : s.read word = .ok v) :
    v = .text word := by
  rw [read, if_neg (by simp [hwhole])] at h
  exact (Except.ok.inj h).symm

/-- An option with choices holds one of them. -/
theorem finds_choice {allowed : List String} (htakes : s.takes = .one) (hwhole : s.whole = false)
    (hchoices : s.choices = some allowed)
    (hdefault : s.required = true ∨ ∃ c ∈ allowed, s.default = .text c) (h : s.Finds v) :
    v = .list [] ∨ ∃ c ∈ allowed, v = .text c := by
  rcases finds_one htakes h with ⟨hfree, rfl⟩ | hempty | ⟨word, hread, hcheck⟩
  · rcases hdefault with hrequired | hmem
    · rw [hrequired] at hfree
      cases hfree
    · exact Or.inr hmem
  · exact Or.inl hempty
  · obtain rfl := read_text hwhole hread
    rw [check, hchoices] at hcheck
    dsimp only at hcheck
    split at hcheck
    · rename_i hany
      obtain ⟨c, hc, hequal⟩ := List.any_eq_true.mp hany
      exact Or.inr ⟨c, hc, (Value.beq_text _ _).mp hequal⟩
    · cases hcheck

/-- An option for a whole number holds one, or its default. -/
theorem finds_whole (htakes : s.takes = .one) (hwhole : s.whole = true) (h : s.Finds v) :
    (s.required = false ∧ v = s.default) ∨ v = .list [] ∨ ∃ n : Int, v = .int n :=
  (finds_one htakes h).imp_right (Or.imp_right fun ⟨_, hread, _⟩ => read_whole hwhole hread)

/-- An option for a text holds one, or its default. -/
theorem finds_text (htakes : s.takes = .one) (hwhole : s.whole = false) (h : s.Finds v) :
    (s.required = false ∧ v = s.default) ∨ v = .list [] ∨ ∃ text, v = .text text :=
  (finds_one htakes h).imp_right
    (Or.imp_right fun ⟨word, hread, _⟩ => ⟨word, read_text hwhole hread⟩)

end Switch

namespace Grammar

variable {switches : List Switch} {r r' : Reading} {words : List String}

/-! ### Readings -/

/-- **What has been read of some options so far**: each has its default until it is seen, and from
then on what suitable words make of it. -/
structure Reading.Sound (switches : List Switch) (r : Reading) : Prop where
  nodup : r.values.keys.Nodup
  has : ∀ s ∈ switches, s.help = false → s.key ∈ r.values.keys
  found : ∀ key v, r.values.get? key = some v → ∃ s ∈ switches, s.key = key ∧
    ((key ∉ r.seen ∧ v = s.default) ∨ key ∈ r.seen ∧ ∃ ws, s.Suits ws ∧ s.value ws = .ok v)

theorem sound_defaults (switches : List Switch) :
    Reading.Sound switches { values := defaults switches } := by
  obtain ⟨hnodup, hkeys⟩ :=
    Table.keys_ofList ((switches.filter fun s => !s.help).map fun s => (s.key, s.default))
  refine ⟨hnodup, fun s hs hhelp => ?_, fun key v hv => ?_⟩
  · have hmem : s ∈ switches.filter fun s => !s.help := List.mem_filter.mpr ⟨hs, by simp [hhelp]⟩
    refine (hkeys s.key).mpr ?_
    rw [List.map_map]
    exact List.mem_map_of_mem hmem
  · obtain ⟨s, hs, heq⟩ := List.mem_map.mp (Table.mem_of_get?_ofList hv)
    obtain ⟨rfl, rfl⟩ := Prod.mk.inj heq
    exact ⟨s, (List.mem_filter.mp hs).1, rfl, Or.inl ⟨by simp, rfl⟩⟩

/-- Words that nobody takes are no values. -/
theorem Reading.Sound.unclaimed (hr : r.Sound switches) (word : String) :
    Reading.Sound switches { r with extras := r.extras ++ [word] } :=
  ⟨hr.nodup, hr.has, hr.found⟩

/-- The words of a subcommand are no values yet. -/
theorem Reading.Sound.commanded (hr : r.Sound switches) (ws : List String) :
    Reading.Sound switches { r with command := some ws } :=
  ⟨hr.nodup, hr.has, hr.found⟩

theorem Reading.Sound.give {s : Switch} (hr : r.Sound switches) (hs : s ∈ switches)
    (hsuits : s.Suits words) (h : r.give s words = .ok r') : r'.Sound switches := by
  rw [Reading.give] at h
  split at h
  · cases h
  · split at h
    · cases h
    · rename_i v hv
      cases h
      refine ⟨Table.nodup_keys_put hr.nodup _ _,
        fun t ht hhelp => Table.mem_keys_put.mpr (Or.inr (hr.has t ht hhelp)), fun key u hu => ?_⟩
      rw [Table.get?_put] at hu
      split at hu
      · rename_i hkey
        cases hu
        exact ⟨s, hs, hkey, Or.inr ⟨by simp [hkey], words, hsuits, hv⟩⟩
      · rename_i hkey
        obtain ⟨t, ht, htkey, hfound⟩ := hr.found key u hu
        have hseen : key ∈ s.key :: r.seen ↔ key ∈ r.seen := by simp [Ne.symm hkey]
        exact ⟨t, ht, htkey, by rwa [hseen]⟩

theorem Reading.Sound.giveAll : ∀ {gives : List (Switch × List String)} {r : Reading},
    r.Sound switches → (∀ p ∈ gives, p.1 ∈ switches ∧ p.1.Suits p.2) →
      r.giveAll gives = .ok r' → r'.Sound switches
  | [], _, hr, _, h => by
    cases h
    exact hr
  | (s, ws) :: rest, r, hr, hgranted, h => by
    obtain ⟨⟨hs, hsuits⟩, hrest⟩ := List.forall_mem_cons.mp hgranted
    obtain ⟨m, hm, h⟩ := outcome_bind_ok.mp h
    exact (hr.give hs hsuits hm).giveAll hrest h

/-- **Reading keeps what has been read sound**, whether a subcommand is still to come or not. -/
theorem Reading.Sound.readMarked (wantsCommand : Bool) (marked : List (String × Mark))
    (hknown : Known switches marked) {r : Reading} (hr : r.Sound switches)
    (h : Grammar.readMarked switches wantsCommand r marked = .ok r') : r'.Sound switches := by
  match marked, hknown with
  | [], _ =>
    rw [Grammar.readMarked] at h
    cases h
    exact hr
  | (word, .option (some (name, s)) attached) :: rest, hknown =>
    have hs : s ∈ switches := hknown word name s attached List.mem_cons_self
    rw [Grammar.readMarked] at h
    obtain ⟨⟨m, left⟩, htake, h⟩ := outcome_bind_ok.mp h
    rcases takeOption_cases name hs attached rest with ⟨stop, hstop⟩ |
      ⟨gives, left', hleft, hgranted, hgives⟩
    · cases (hstop r).symm.trans htake
    · rw [hgives] at htake
      obtain ⟨m', hm, heq⟩ := outcome_map_ok.mp htake
      obtain ⟨rfl, rfl⟩ := Prod.mk.inj heq
      have hshort := Nat.lt_succ_of_le left'.2
      exact Reading.Sound.readMarked wantsCommand left'.1
        (hknown.mono (List.Subset.trans hleft.subset (List.subset_cons_self _ _)))
        (hr.giveAll hgranted hm) h
  | (word, .option none attached) :: rest, hknown =>
    rw [Grammar.readMarked] at h
    exact Reading.Sound.readMarked wantsCommand rest (hknown.mono (List.subset_cons_self _ _))
      (hr.unclaimed word) h
  | (word, .plain) :: rest, hknown =>
    rw [Grammar.readMarked] at h
    split at h
    · cases h
      exact hr.commanded _
    · exact Reading.Sound.readMarked wantsCommand rest (hknown.mono (List.subset_cons_self _ _))
        (hr.unclaimed word) h
  | (word, .rest) :: rest, hknown =>
    rw [Grammar.readMarked] at h
    split at h
    · cases h
      exact hr.commanded _
    · exact Reading.Sound.readMarked wantsCommand rest (hknown.mono (List.subset_cons_self _ _))
        (hr.unclaimed word) h
termination_by marked.length

theorem sound_readWords {wantsCommand : Bool} (h : readWords switches wantsCommand words = .ok r) :
    r.Sound switches := by
  obtain ⟨marked, hmarked, h⟩ := outcome_bind_ok.mp h
  rw [outcome_mapError_ok] at hmarked
  exact (sound_defaults switches).readMarked wantsCommand marked (known_of_marks hmarked) h

theorem demand_ok {absent : List String} (h : demand absent = .ok ()) : absent = [] := by
  rw [demand] at h
  split at h
  · rename_i hempty
    exact List.isEmpty_iff.mp hempty
  · cases h

/-- Once nothing is missing, options hold what they should. -/
theorem Reading.Sound.finds (hr : r.Sound switches)
    (hnone : missing switches r = []) {key : String} {v : Value}
    (hv : r.values.get? key = some v) : ∃ s ∈ switches, s.key = key ∧ s.Finds v := by
  obtain ⟨s, hs, rfl, ⟨hunseen, rfl⟩ | ⟨-, hwords⟩⟩ := hr.found key v hv
  · refine ⟨s, hs, rfl, Or.inl ⟨?_, rfl⟩⟩
    have hall := List.filter_eq_nil_iff.mp (List.map_eq_nil_iff.mp hnone) s hs
    simpa [hunseen] using hall
  · exact ⟨s, hs, rfl, Or.inr hwords⟩

theorem finds_of_readAlone {program : String} (h : readAlone program switches words = .ok r) :
    r.Sound switches ∧ missing switches r = [] := by
  obtain ⟨m, hm, h⟩ := outcome_bind_ok.mp (report_ok.mp h)
  obtain ⟨_, hdemand, h⟩ := outcome_bind_ok.mp h
  obtain rfl := Except.ok.inj h
  exact ⟨sound_readWords hm, demand_ok hdemand⟩

/-! ### Command lines -/

/-- Each of some options holds what it should. -/
def Holds (switches : List Switch) (args : Arguments) : Prop :=
  ∀ s ∈ switches, ∃ v, args.get? s.key = some v ∧ s.Finds v

/-- Options with keys of their own hold what is found under these. -/
theorem holds_of_finds {args : Arguments} (hnodup : (switches.map Switch.key).Nodup)
    (hhas : ∀ s ∈ switches, s.help = false → ∃ v, args.get? s.key = some v)
    (hfinds : ∀ key v, key ∈ switches.map Switch.key → args.get? key = some v →
      ∃ s ∈ switches, s.key = key ∧ s.Finds v) :
    Holds (switches.filter fun s => !s.help) args := by
  intro s hs
  obtain ⟨hs, hhelp⟩ := List.mem_filter.mp hs
  obtain ⟨v, hv⟩ := hhas s hs (by simpa using hhelp)
  obtain ⟨t, ht, hkey, hfound⟩ := hfinds s.key v (List.mem_map_of_mem hs) hv
  obtain rfl := List.inj_on_of_nodup_map hnodup ht hs hkey
  exact ⟨v, hv, hfound⟩

variable {g : Grammar} {args : Arguments}

theorem values_of_parse (hnone : g.subcommands = none) (h : g.parse words = .ok args) :
    ∃ r, readAlone g.program g.options words = .ok r ∧ args = r.values := by
  unfold parse at h
  rw [hnone] at h
  obtain ⟨r, hr, h⟩ := outcome_bind_ok.mp h
  dsimp only at h
  split at h
  · exact ⟨r, hr, (Except.ok.inj h).symm⟩
  · cases h

/-- **The options of a command line** hold what they should. -/
theorem holds_of_parse (hnone : g.subcommands = none)
    (hnodup : (g.options.map Switch.key).Nodup) (h : g.parse words = .ok args) :
    Holds (g.options.filter fun s => !s.help) args := by
  obtain ⟨r, hr, rfl⟩ := values_of_parse hnone h
  obtain ⟨hsound, hmissing⟩ := finds_of_readAlone hr
  refine holds_of_finds hnodup (fun s hs hhelp => ?_) fun key v _ hv => hsound.finds hmissing hv
  exact Option.isSome_iff_exists.mp ((Table.get?_isSome_iff _ _).mpr (hsound.has s hs hhelp))

/-- What a subcommand reads is put onto what was read before it, and its name. -/
theorem values_of_command {sub : Subcommands} (hsub : g.subcommands = some sub)
    (h : g.parse words = .ok args) :
    ∃ r : Reading, r.Sound g.options ∧ ∃ name switches, ∃ inner : Reading,
      (name, switches) ∈ sub.commands ∧ inner.Sound (.helpSwitch :: switches) ∧
      missing (.helpSwitch :: switches) inner = [] ∧
      ∀ key, args.get? key =
        (inner.values.get? key).or (if sub.key = key then some (.text name)
          else r.values.get? key) := by
  unfold parse at h
  rw [hsub] at h
  obtain ⟨r, hr, h⟩ := outcome_bind_ok.mp h
  have hsound : r.Sound g.options := sound_readWords (report_ok.mp hr)
  split at h
  · -- without a subcommand its key is missing
    obtain ⟨_, hdemand, -⟩ := outcome_bind_ok.mp h
    have habsent := demand_ok (report_ok.mp hdemand)
    simp at habsent
  · rename_i ws _
    obtain ⟨whole, hwhole, h⟩ := outcome_bind_ok.mp h
    obtain ⟨_, -, h⟩ := outcome_bind_ok.mp h
    have hvalues : args = whole.values := by
      dsimp only [pure, Except.pure, bind, Except.bind] at h
      split at h
      · exact (Except.ok.inj h).symm
      · cases h
    unfold readCommand at hwhole
    dsimp only at hwhole
    split at hwhole
    · cases hwhole
    · rename_i switches hlookup
      obtain ⟨inner, hinner, hwhole⟩ := outcome_bind_ok.mp hwhole
      obtain rfl := Except.ok.inj hwhole
      obtain ⟨hinner, hmissing⟩ := finds_of_readAlone hinner
      obtain ⟨before, after, hcommands, -⟩ := List.lookup_eq_some_iff.mp hlookup
      refine ⟨r, hsound, ws.headD "", switches, inner, by simp [hcommands], hinner, hmissing,
        fun key => ?_⟩
      rw [hvalues, Table.get?_foldl_put key _ _ hinner.nodup, Table.get?_put]
      rfl

/-- **The options of a subcommand** hold what they should.  Its name is found under the key for
that, and under any other key there is nothing but what was read before it. -/
theorem holds_of_command {sub : Subcommands} (hsub : g.subcommands = some sub)
    (h : g.parse words = .ok args) :
    ∃ name switches, (name, switches) ∈ sub.commands ∧
      ((switches.map Switch.key).Nodup → "help" ∉ switches.map Switch.key →
        Holds (switches.filter fun s => !s.help) args) ∧
      (sub.key ∉ "help" :: switches.map Switch.key → args.get? sub.key = some (.text name)) ∧
      ∀ key, key ∉ sub.key :: "help" :: (switches ++ g.options).map Switch.key →
        args.get? key = none := by
  obtain ⟨r, hr, name, switches, inner, hmem, hinner, hmissing, hget⟩ := values_of_command hsub h
  have hfree : ∀ key, key ∉ "help" :: switches.map Switch.key → inner.values.get? key = none := by
    intro key hkey
    rw [Table.get?_eq_none_iff]
    intro hfound
    obtain ⟨v, hv⟩ := Option.isSome_iff_exists.mp ((Table.get?_isSome_iff _ _).mpr hfound)
    obtain ⟨s, hs, rfl, -⟩ := hinner.found key v hv
    exact hkey (List.mem_map_of_mem (f := Switch.key) hs)
  refine ⟨name, switches, hmem, fun hnodup hhelp => ?_, fun hkey => ?_, fun key hkey => ?_⟩
  · have hholds : Holds ((.helpSwitch :: switches).filter fun s => !s.help) inner.values := by
      refine holds_of_finds (List.nodup_cons.mpr ⟨hhelp, hnodup⟩) (fun s hs hplain => ?_)
        fun key v _ hv => hinner.finds hmissing hv
      exact Option.isSome_iff_exists.mp
        ((Table.get?_isSome_iff _ _).mpr (hinner.has s hs hplain))
    intro s hs
    obtain ⟨v, hv, hfinds⟩ := hholds s hs
    exact ⟨v, by rw [hget, hv, Option.some_or], hfinds⟩
  · rw [hget, hfree _ hkey, Option.none_or, if_pos rfl]
  · rw [List.map_append, List.mem_cons, List.mem_cons, List.mem_append, not_or, not_or,
      not_or] at hkey
    obtain ⟨hsubkey, hhelp, hswitches, houter⟩ := hkey
    rw [hget, hfree key (by simp [hhelp, hswitches]), Option.none_or, if_neg (Ne.symm hsubkey),
      Table.get?_eq_none_iff]
    intro hfound
    obtain ⟨v, hv⟩ := Option.isSome_iff_exists.mp ((Table.get?_isSome_iff _ _).mpr hfound)
    obtain ⟨s, hs, rfl, -⟩ := hr.found key v hv
    exact houter (List.mem_map_of_mem (f := Switch.key) hs)

end Grammar

/-! ### Single transactions -/

namespace Command.Transact

open Grammar

variable {words : List String} {args : Arguments}

/-- The options of a transaction have keys of their own. -/
theorem subcommand_keys : ∀ c ∈ subcommands, (c.2.map Switch.key).Nodup ∧
    (∀ s ∈ c.2, s.help = false) ∧ "help" ∉ c.2.map Switch.key ∧ "cmd" ∉ c.2.map Switch.key := by
  decide

theorem roleSwitch_mem : ∀ c ∈ subcommands, "role" ∈ c.2.map Switch.key → roleSwitch ∈ c.2 := by
  simp [subcommands, bodySwitches, choice, number, collectionSwitch]

/-- **The arguments of a transaction** are its name and what its options hold. -/
theorem holds_of_parse (h : grammar.parse words = .ok args) :
    ∃ name switches, (name, switches) ∈ subcommands ∧ args.get? "cmd" = some (.text name) ∧
      Holds switches args ∧ ("role" ∉ switches.map Switch.key → args.get? "role" = none) := by
  obtain ⟨name, switches, hmem, hholds, hname, hnone⟩ := holds_of_command rfl h
  obtain ⟨hnodup, hplain, hhelp, hcmd⟩ := subcommand_keys _ hmem
  refine ⟨name, switches, hmem, hname (by simpa using hcmd), ?_, fun hrole => hnone _ ?_⟩
  · have hall : switches.filter (fun s => !s.help) = switches :=
      List.filter_eq_self.mpr fun s hs => by simp [hplain s hs]
    exact hall ▸ hholds hnodup hhelp
  · rw [List.map_append, List.mem_cons, List.mem_cons, List.mem_append]
    simp [hrole, options, grammar, endpointSwitch, Switch.helpSwitch]

/-- **The role that signs** has a key variable, or there is no role but an empty list. -/
theorem role_of_parse (h : grammar.parse words = .ok args) :
    Plan.Transaction.roleOf args = .list [] ∨
      ∃ r ∈ roles, Plan.Transaction.roleOf args = .text r := by
  obtain ⟨name, switches, hmem, -, hholds, hnone⟩ := holds_of_parse h
  rw [Plan.Transaction.roleOf]
  by_cases hrole : "role" ∈ switches.map Switch.key
  · obtain ⟨v, hv, hfinds⟩ := hholds _ (roleSwitch_mem _ hmem hrole)
    rw [show args.get? "role" = some v from hv, Option.getD_some]
    refine (Switch.finds_choice rfl rfl rfl (Or.inr ⟨"user", ?_, rfl⟩) hfinds).imp_right ?_
    · exact List.mem_mergeSort.mpr (by decide)
    · exact fun ⟨c, hc, hcv⟩ => ⟨c, List.mem_mergeSort.mp hc, hcv⟩
  · rw [hnone hrole, Option.getD_none]
    exact Or.inr ⟨"overlord", by decide, rfl⟩

end Command.Transact

end Campaign
