import Campaign.Proofs.Preview
import Campaign.Proofs.Repetition

/-!
# Whose ids a drawing resolves

Without a number of winners a drawing resolves ids from its command line.  Each of its two options
stands for itself: ids that are given are taken as they are, even if there are none, and an option
that is absent is replaced by standard ids, whether or not the other one is given.

* `Command.Drawing.unattempted_of_dry`: a dry run hands in nothing, with settings or without.
* `Command.Drawing.resolves_given_or_standard`: **what is handed in are the ids of the two
  options**, or the standard ones of an option that is absent.
-/

namespace Campaign

open Act History

theorem Value.eq_null_of_typeName {v : Value} (h : v.typeName = "NoneType") : v = .null := by
  cases v <;> simp_all [typeName]

namespace Command.Drawing

variable {ν τ : Type} [Seconds τ] {host : Host ν τ} {args : Arguments}

/-- The ids of one side: those that were given for its option, or standard ones if it is absent. -/
def SideIs (args : Arguments) (key : String) (standard ids : List Int) : Prop :=
  argument args key = .list (ids.map .int) ∨ argument args key = .null ∧ ids = standard

theorem idsOf_of_sideIs {key : String} {standard ids : List Int}
    (h : SideIs args key standard ids) : idsOf args key standard = .list (ids.map .int) := by
  rcases h with hgiven | ⟨habsent, rfl⟩
  · rw [idsOf, hgiven]
  · rw [idsOf, habsent]

/-- Each side has its ids. -/
theorem sideIs_of_parse {words : List String} (hargs : grammar.parse words = .ok args)
    {key : String} (hkey : key = "chosen" ∨ key = "not_chosen") (standard : List Int) :
    ∃ ids, SideIs args key standard ids := by
  by_cases hnull : argument args key = .null
  · exact ⟨standard, Or.inr ⟨hnull, rfl⟩⟩
  · obtain ⟨ids, hids⟩ := ids_of_parse hargs hkey standard
    refine ⟨ids, Or.inl ?_⟩
    rw [← hids, idsOf]
    split
    · exact absurd ‹_› hnull
    · rfl

/-- **A dry run attempts nothing**, whether or not there are settings. -/
theorem unattempted_of_dry (hargs : grammar.parse host.arguments = .ok args)
    (hdry : (argument args "dry_run").truthy = true) (n : ν) (c : Clock τ) :
    ∀ x ∈ ((run (perform host)).runOn { node := n, clock := c }).2.journal, x.attempt? = none := by
  rcases hrun : (run (perform host)).runOn { node := n, clock := c } with ⟨out, v⟩
  obtain ⟨new, hnew, hnone⟩ : History.Grows (fun x => x.attempt? = none) [] v.journal := by
    cases hsettings : settingsOf host args with
    | ok settings =>
      let r : Request host := ⟨args, settings, hargs, hsettings⟩
      exact ((r.harmless_of_dry hdry).of_runOn hrun).mono fun _ hx => hx.idle.1
    | error f =>
      -- a run without settings ends before anything else is read
      have hfails : ComesTo (World.Adds Event.Idle) (fun _ _ _ => False) (perform host)
          { node := n, clock := c } := by
        refine comesTo_ofExcept fun args' hargs' => ?_
        obtain rfl : args = args' := Except.ok.inj (hargs.symm.trans hargs')
        refine comesTo_hostSettings fun settings _ hloaded => ?_
        cases hsettings.symm.trans hloaded
      obtain ⟨r, m, hperform, hgrow, -⟩ := run_cases hrun
      rcases hfails m r hperform with ⟨hidle, -⟩ | ⟨_, -, hnever⟩
      · exact trans_of (History.Grows fun x => x.attempt? = none)
          (History.Grows.mono hidle fun _ hx => hx.1) hgrow
      · exact hnever.elim
  rw [hnew, List.append_nil]
  exact hnone

/-- **A drawing without winners resolves the ids of its two options.**  Whatever the node, the keys,
the settings and the clock do, what is handed in are the sides, in order and up to where the run
ends: the ids given to be minted and those given to be refunded, where an option that is absent has
its standard ids and one without ids contributes nothing.  With status 0 all sides are handed in.
A dry run hands in nothing. -/
theorem resolves_given_or_standard (hargs : grammar.parse host.arguments = .ok args)
    (hwinners : argument args "winners" = .null) (n : ν) (c : Clock τ) :
    let begun : World ν τ := { node := n, clock := c }
    let ended := (run (perform host)).runOn begun
    start? "preorder_drawing" host begun = some (.ofOutcome ended.1, ended.2) ∧
      ((argument args "dry_run").truthy = true → handed ended.2.journal = []) ∧
      ∃ chosen notChosen : List Int,
        SideIs args "chosen" [0, 1, 2, 4, 10, 6, 12, 11] chosen ∧
        SideIs args "not_chosen" [7, 3, 5, 8, 9, 13] notChosen ∧
        (handed ended.2.journal = [] ∧
            (ended.1 = .ok 0 → (argument args "dry_run").truthy = true) ∨
          ∃ settings accounts submitted, settingsOf host args = .ok settings ∧
            loadAccounts host.keyring settings ["overlord"] = .ok accounts ∧
            submitted <+: Plan.sides chosen notChosen ∧
            (ended.1 = .ok 0 → submitted = Plan.sides chosen notChosen) ∧
            Plan.HandsIn (scriptFor host.node settings accounts) settings.pallets submitted
              ended.2.journal ended.2.journal) := by
  intro begun ended
  have hstart : start? "preorder_drawing" host begun = some (.ofOutcome ended.1, ended.2) :=
    Line.start?_name .draw begun
  obtain ⟨chosen, hchosen⟩ := sideIs_of_parse hargs (Or.inl rfl) Plan.chosenPreorders
  obtain ⟨notChosen, hnotChosen⟩ := sideIs_of_parse hargs (Or.inr rfl) Plan.notChosenPreorders
  cases hdry : (argument args "dry_run").truthy with
  | true =>
    have hnone := (Script.gathered_of_attempt? (unattempted_of_dry hargs hdry n c)).2
    exact ⟨hstart, fun _ => hnone, chosen, notChosen, hchosen, hnotChosen,
      Or.inl ⟨hnone, fun _ => rfl⟩⟩
  | false =>
    refine ⟨hstart, nofun, chosen, notChosen, hchosen, hnotChosen, ?_⟩
    obtain ⟨-, -, hends⟩ := Line.carries_plan .draw hargs (fun _ => hdry) (n := n) (c := c) rfl
    rcases hends with ⟨hfails, hnone⟩ | ⟨settings, needed, accounts, division, phases, hsettings,
      hneeded, haccounts, hdivides, hphases, done, hfollows, hwhole⟩
    · exact Or.inl ⟨(Script.gathered_of_attempt? hnone).2, fun hok => absurd hok hfails⟩
    · obtain rfl := Except.ok.inj hneeded
      have hdivision := hdivides rfl
      rw [Divides, hwinners, idsOf_of_sideIs hchosen, idsOf_of_sideIs hnotChosen] at hdivision
      obtain rfl : division = _ := hdivision
      rw [Plan.submissions_of_drawing hphases] at hfollows hwhole
      obtain ⟨submitted, hfirst, hhands, hall⟩ := Plan.handsIn_of_follows hfollows
      exact Or.inr ⟨settings, accounts, submitted, hsettings, haccounts, hfirst,
        fun hok => hall (hwhole hok).1, hhands⟩

/-- A host with the overlord's key, and a command line that names only ids to mint: its option for
the others has none. -/
def mintingOnly : Host Sequential.State Value where
  arguments := ["--chosen", "1", "2", "--not-chosen"]
  environment := ⟨[("OVERLORD_PRIVKEY", "//Bob")]⟩
  files := {}
  keyring := {}
  node := Sequential.node {}
  obstacle := none

set_option maxRecDepth 100000 in
/-- An option without ids contributes none: only the mint is taken. -/
theorem resolves_given_or_standard_minting :
    let ended := (run (perform mintingOnly)).runOn
      { node := .ofNonces .empty, clock := { now := .int 0 } }
    (∃ args, grammar.parse mintingOnly.arguments = .ok args ∧ argument args "winners" = .null ∧
      ∃ chosen notChosen : List Int,
        SideIs args "chosen" [0, 1, 2, 4, 10, 6, 12, 11] chosen ∧
        SideIs args "not_chosen" [7, 3, 5, 8, 9, 13] notChosen ∧
        ∃ settings accounts, Plan.HandsIn (scriptFor mintingOnly.node settings accounts)
          settings.pallets (Plan.sides chosen notChosen) ended.2.journal ended.2.journal) ∧
      (taken ended.2.journal).map Extrinsic.call ==
        [Sequential.composed "PwNftSale" "mint_chosen_preorders"
          (.object [("preorders", .list [.int 1, .int 2])])] := by
  intro ended
  obtain ⟨args, hargs, hwinners⟩ := exists_of_any (r := grammar.parse mintingOnly.arguments)
    (p := fun args => (argument args "winners").typeName == "NoneType") (by decide +kernel)
  have hwinners := Value.eq_null_of_typeName (beq_iff_eq.mp hwinners)
  have hcalls : ((taken ended.2.journal).map Extrinsic.call ==
      [Sequential.composed "PwNftSale" "mint_chosen_preorders"
        (.object [("preorders", .list [.int 1, .int 2])])]) = true := by
    decide +kernel
  have hzero : ended.1 = .ok 0 := by
    obtain ⟨status, hok, hstatus⟩ :=
      exists_of_any (r := ended.1) (p := (· == 0)) (by decide +kernel)
    rw [hok, beq_iff_eq.mp hstatus]
  obtain ⟨-, -, chosen, notChosen, hchosen, hnotChosen, hends⟩ :=
    resolves_given_or_standard hargs hwinners (.ofNonces .empty) { now := .int 0 }
  refine ⟨⟨args, hargs, hwinners, chosen, notChosen, hchosen, hnotChosen, ?_⟩, hcalls⟩
  rcases hends with ⟨hnone, -⟩ | ⟨settings, accounts, submitted, -, -, -, hall, hhands⟩
  · have hsome : (handed ended.2.journal).isEmpty = false := by decide +kernel
    rw [hnone] at hsome
    cases hsome
  · obtain rfl := hall hzero
    exact ⟨settings, accounts, hhands⟩

/-- The same host with a command line that has no option for the others. -/
def unnamed : Host Sequential.State Value :=
  { mintingOnly with arguments := ["--chosen", "1", "2"] }

set_option maxRecDepth 100000 in
/-- **Ids that nobody gave are refunded**, if only ids to mint are given. -/
theorem standard_ids_are_refunded :
    let ended := (run (perform unnamed)).runOn
      { node := .ofNonces .empty, clock := { now := .int 0 } }
    (∃ args, grammar.parse unnamed.arguments = .ok args ∧ argument args "winners" = .null ∧
        argument args "chosen" == .list [.int 1, .int 2] ∧ argument args "not_chosen" = .null) ∧
      (taken ended.2.journal).map Extrinsic.call ==
        [Sequential.composed "PwNftSale" "mint_chosen_preorders"
            (.object [("preorders", .list [.int 1, .int 2])]),
          Sequential.composed "PwNftSale" "refund_not_chosen_preorders"
            (.object [("preorders",
              .list [.int 7, .int 3, .int 5, .int 8, .int 9, .int 13])])] := by
  intro ended
  refine ⟨?_, by decide +kernel⟩
  obtain ⟨args, hargs, hread⟩ := exists_of_any (r := grammar.parse unnamed.arguments)
    (p := fun args => (argument args "winners").typeName == "NoneType" &&
      argument args "chosen" == .list [.int 1, .int 2] &&
      (argument args "not_chosen").typeName == "NoneType") (by decide +kernel)
  simp only [Bool.and_eq_true, beq_iff_eq] at hread
  obtain ⟨⟨hwinners, hchosen⟩, hnotChosen⟩ := hread
  exact ⟨args, hargs, Value.eq_null_of_typeName hwinners, hchosen,
    Value.eq_null_of_typeName hnotChosen⟩

end Command.Drawing

end Campaign
