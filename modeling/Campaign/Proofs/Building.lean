import Campaign.Proofs.CommandLine
import Campaign.Proofs.Resolution
import Campaign.Proofs.Served

/-!
# What builders come to

The builder of a command makes phases from arguments that were read.  It converts some of them: an
amount of tokens, names of kinds, a number of winners and a seed.  What was read for these can be
converted, but for one case: an option whose only word is `--` is left with an empty list, which is
none of them.  `Line.Filled` excludes this where a builder would convert it.

Then every builder returns phases (`builds_prepare`, `transaction_of_parse`), except that a drawing
refuses ids on both sides and a negative number of winners (`Drawing.comes_of_division`); the ids
that a node lists are taken to be whole numbers there.
-/

namespace Campaign

open Act

variable {ν τ : Type} {accounts : Roster} {words : List String} {args : Arguments}

/-- The name of a member is read as a member. -/
theorem Kind.ofValue_of_mem {α : Type} [Kind α] {c : String} (h : c ∈ Kind.values α) :
    ∃ m : α, Kind.ofValue (.text c) = .ok m := by
  have hfound : (Kind.ofText? c : Option α).isSome := by
    rw [Kind.ofText?, List.find?_isSome]
    obtain ⟨m, hm, rfl⟩ := List.mem_map.mp h
    exact ⟨m, hm, decide_eq_true rfl⟩
  obtain ⟨m, hm⟩ := Option.isSome_iff_exists.mp hfound
  exact ⟨m, by simp [Kind.ofValue, hm]⟩

namespace Command

open Grammar

/-- **No option that a builder converts was left with an empty list.** -/
def Line.Filled (args : Arguments) : Line → Prop
  | .prepare => argument args "funding" ≠ .list []
  | .populate | .incubate => True
  | .draw => argument args "winners" ≠ .list [] ∧
      (argument args "winners" ≠ .null → argument args "seed" ≠ .list [])
  | .transact => ∀ key ∈ ["type", "race", "career", "status_type", "status"],
      argument args key ≠ .list []

/-- What an option holds is found as an argument. -/
theorem argument_of_get? {key : String} {v : Value} (h : args.get? key = some v) :
    argument args key = v := by
  rw [argument, h, Option.getD_some]

/-! ### The preparation -/

/-- The option for the funding. -/
def Initialize.fundingSwitch : Switch where
  names := ["--funding"]
  key := "funding"
  whole := true
  default := .int Plan.overlordFunding

/-- **The builder of the preparation returns phases**: what is read for the funding is a number. -/
theorem builds_prepare {settings : Settings τ} (hargs : Initialize.grammar.parse words = .ok args)
    (hfilled : Line.prepare.Filled args) (hoverlord : accounts.Knows "overlord") :
    ∃ ps, Initialize.phases settings accounts args = .ok ps := by
  have hholds : Holds (Initialize.grammar.options.filter fun s => !s.help) args :=
    holds_of_parse rfl (by decide) hargs
  obtain ⟨v, hv, hfinds⟩ := hholds Initialize.fundingSwitch
    (by simp [options, Initialize.grammar, Initialize.fundingSwitch])
  have hv : argument args "funding" = v := argument_of_get? hv
  obtain ⟨n, rfl⟩ : ∃ n : Int, v = .int n := by
    rcases Switch.finds_whole rfl rfl hfinds with ⟨-, rfl⟩ | rfl | hn
    · exact ⟨_, rfl⟩
    · exact absurd hv hfilled
    · exact hn
  obtain ⟨key, hkey⟩ := hoverlord
  rw [Initialize.phases, Plan.preparation, Plan.keyOf_ok.mpr hkey, hv]
  exact ⟨_, rfl⟩

/-! ### Transactions -/

namespace Transact

open Plan Plan.Transaction

variable {switches : List Switch}

/-- An option of a transaction is found where its builder looks for it. -/
theorem field_of_holds (hholds : Holds switches args) (key : String)
    (hkey : key ∈ switches.map Switch.key) : ∃ v, field args key = .ok v := by
  obtain ⟨s, hs, rfl⟩ := List.mem_map.mp hkey
  obtain ⟨v, hv, -⟩ := hholds s hs
  exact ⟨v, by rw [field, hv]⟩

/-- An option with choices holds one of them, unless it was left with an empty list. -/
theorem choice_of_holds (hholds : Holds switches args) (name key : String) (choices : List String)
    (hs : choice name key choices ∈ switches) :
    ∃ v, field args key = .ok v ∧
      (argument args key ≠ .list [] → ∃ c ∈ choices, v = .text c) := by
  obtain ⟨v, hv, hfinds⟩ := hholds _ hs
  have hv : args.get? key = some v := hv
  refine ⟨v, by rw [field, hv], fun hfilled => ?_⟩
  rcases Switch.finds_choice rfl rfl rfl (Or.inl rfl) hfinds with rfl | hc
  · exact absurd (argument_of_get? hv) hfilled
  · exact hc

/-- The options for race and career hold what is read as such. -/
theorem body_of_holds (hholds : Holds switches args) (hs : bodySwitches ⊆ switches) :
    ∃ race career, field args "race" = .ok race ∧ field args "career" = .ok career ∧
      (Line.transact.Filled args →
        (∃ r : Race, Kind.ofValue race = .ok r) ∧ ∃ c : Career, Kind.ofValue career = .ok c) := by
  obtain ⟨race, hrace, hraces⟩ := choice_of_holds hholds "--race" "race" (Kind.values Race)
    (hs (by simp [bodySwitches]))
  obtain ⟨career, hcareer, hcareers⟩ := choice_of_holds hholds "--career" "career"
    (Kind.values Career) (hs (by simp [bodySwitches]))
  refine ⟨race, career, hrace, hcareer, fun hfilled => ⟨?_, ?_⟩⟩
  · obtain ⟨c, hc, rfl⟩ := hraces (hfilled _ (by simp))
    exact Kind.ofValue_of_mem hc
  · obtain ⟨c, hc, rfl⟩ := hcareers (hfilled _ (by simp))
    exact Kind.ofValue_of_mem hc

theorem rareTypes_subset {c : String} (h : c ∈ rareTypes) : c ∈ Kind.values ShellType := by
  revert c
  decide

/-- **What a command line asks for**: a transaction, which has a step if its options are filled; and
if it mentions the overlord, then the overlord's key is among those that the command loads. -/
structure Asks (args : Arguments) (name : String) (transaction : Transaction) : Prop where
  found : ofCommand name args = .ok transaction
  step : Line.transact.Filled args → ∀ pallets accounts role,
    ∃ x, transaction.step pallets accounts role = .ok x
  overlord : transaction.MentionsOverlord → needsOverlord name = true ∨ roleOf args = "overlord"

/-- **The transaction of a command line.** -/
theorem transaction_of_parse (hargs : grammar.parse words = .ok args) :
    ∃ name transaction, args.get? "cmd" = some (.text name) ∧ Asks args name transaction := by
  obtain ⟨name, switches, hmem, hname, hholds, hrole⟩ := holds_of_parse hargs
  refine ⟨name, ?_⟩
  suffices h : ∃ transaction, Asks args name transaction by
    obtain ⟨transaction, hasks⟩ := h
    exact ⟨transaction, hname, hasks⟩
  -- where there is no choice of the role it is the overlord
  have hroleless : "role" ∉ switches.map Switch.key → roleOf args = "overlord" := fun h => by
    rw [roleOf, hrole h, Option.getD_none]
  simp only [subcommands, List.mem_cons, Prod.mk.injEq, List.not_mem_nil, or_false] at hmem
  rcases hmem with ⟨rfl, rfl⟩ | ⟨rfl, rfl⟩ | ⟨rfl, rfl⟩ | ⟨rfl, rfl⟩ | ⟨rfl, rfl⟩ | ⟨rfl, rfl⟩ |
    ⟨rfl, rfl⟩ | ⟨rfl, rfl⟩ | ⟨rfl, rfl⟩ | ⟨rfl, rfl⟩ | ⟨rfl, rfl⟩ | ⟨rfl, rfl⟩
  · exact ⟨.claimSpirit, rfl, fun _ _ _ _ => ⟨_, rfl⟩, False.elim⟩
  · exact ⟨.redeemSpirit, rfl, fun _ _ _ _ => ⟨_, rfl⟩, fun _ => Or.inl rfl⟩
  · obtain ⟨type, htype, htypes⟩ := choice_of_holds hholds "--type" "type" rareTypes (by simp)
    obtain ⟨race, career, hrace, hcareer, hbody⟩ := body_of_holds hholds (by simp)
    refine ⟨.buyRare type race career, ?_, fun hfilled pallets accounts role => ?_, False.elim⟩
    · rw [ofCommand, htype, hrace, hcareer]
      rfl
    · obtain ⟨c, hc, rfl⟩ := htypes (hfilled _ (by simp))
      obtain ⟨t, ht⟩ := Kind.ofValue_of_mem (rareTypes_subset hc)
      obtain ⟨⟨r, hr⟩, c, hc⟩ := hbody hfilled
      exact ⟨_, by rw [Transaction.step, buyRareNamed, ht, hr, hc]; rfl⟩
  · obtain ⟨race, career, hrace, hcareer, hbody⟩ := body_of_holds hholds (by simp)
    refine ⟨.buyPrime race career, ?_, fun hfilled pallets accounts role => ?_, fun _ => Or.inl rfl⟩
    · rw [ofCommand, hrace, hcareer]
      rfl
    · obtain ⟨⟨r, hr⟩, c, hc⟩ := hbody hfilled
      exact ⟨_, by rw [Transaction.step, buyPrimeNamed, hr, hc]; rfl⟩
  · obtain ⟨race, career, hrace, hcareer, hbody⟩ := body_of_holds hholds (by simp)
    refine ⟨.preorder race career, ?_, fun hfilled pallets accounts role => ?_, False.elim⟩
    · rw [ofCommand, hrace, hcareer]
      rfl
    · obtain ⟨⟨r, hr⟩, c, hc⟩ := hbody hfilled
      exact ⟨_, by rw [Transaction.step, preorderNamed, hr, hc]; rfl⟩
  · exact ⟨.claimChosen, rfl, fun _ _ _ _ => ⟨_, rfl⟩, False.elim⟩
  · exact ⟨.claimRefund, rfl, fun _ _ _ _ => ⟨_, rfl⟩, False.elim⟩
  · obtain ⟨status, hstatus, hstatuses⟩ :=
      choice_of_holds hholds "--status-type" "status_type" (Kind.values SaleStatus) (by simp)
    obtain ⟨disable, hdisable⟩ := field_of_holds hholds "disable" (by decide)
    refine ⟨.setStatus status (.bool !disable.truthy), ?_, fun hfilled pallets accounts role => ?_,
      fun _ => Or.inr (hroleless (by decide))⟩
    · rw [ofCommand, hstatus, hdisable]
      rfl
    · obtain ⟨c, hc, rfl⟩ := hstatuses (hfilled _ (by simp))
      obtain ⟨m, hm⟩ := Kind.ofValue_of_mem hc
      exact ⟨_, by rw [Transaction.step, setStatusNamed, hm]; rfl⟩
  · obtain ⟨id, hid⟩ := field_of_holds hholds "preorder_id" (by decide)
    obtain ⟨status, hstatus, hstatuses⟩ :=
      choice_of_holds hholds "--status" "status" finalStatuses (by simp)
    refine ⟨.setPreorderStatus id status, ?_, fun hfilled pallets accounts role => ?_,
      fun _ => Or.inr (hroleless (by decide))⟩
    · rw [ofCommand, hstatus, hid]
      rfl
    · obtain ⟨c, hc, rfl⟩ := hstatuses (hfilled _ (by simp))
      simp only [finalStatuses, List.map_cons, List.map_nil, List.mem_cons, List.not_mem_nil,
        or_false] at hc
      rcases hc with rfl | rfl <;> exact ⟨_, rfl⟩
  · obtain ⟨collection, hcollection⟩ := field_of_holds hholds "collection_id" (by decide)
    obtain ⟨nft, hnft⟩ := field_of_holds hholds "nft_id" (by decide)
    refine ⟨.feed collection nft, ?_, fun _ _ _ _ => ⟨_, rfl⟩, False.elim⟩
    rw [ofCommand, hcollection, hnft]
    rfl
  · obtain ⟨owner, howner⟩ := field_of_holds hholds "owner" (by decide)
    obtain ⟨collection, hcollection⟩ := field_of_holds hholds "collection_id" (by decide)
    obtain ⟨nft, hnft⟩ := field_of_holds hholds "nft_id" (by decide)
    obtain ⟨source, hsource⟩ := field_of_holds hholds "resource_src" (by decide)
    refine ⟨.hatch owner collection nft source, ?_, fun _ _ _ _ => ⟨_, rfl⟩,
      fun _ => Or.inr (hroleless (by decide))⟩
    rw [ofCommand, howner, hcollection, hnft, hsource]
    rfl
  · obtain ⟨collection, hcollection⟩ := field_of_holds hholds "collection_id" (by decide)
    refine ⟨.setShellCollection collection, ?_, fun _ _ _ _ => ⟨_, rfl⟩,
      fun _ => Or.inr (hroleless (by decide))⟩
    rw [ofCommand, hcollection]
    rfl

/-- The step of a command line is that of its transaction. -/
theorem stepOf_eq {name : String} {transaction : Transaction}
    (hname : args.get? "cmd" = some (.text name)) (hasks : Asks args name transaction)
    (pallets : Pallets) (accounts : Roster) :
    stepOf pallets accounts args = transaction.step pallets accounts (roleOf args) := by
  rw [stepOf, field, hname]
  change ofCommand name args >>= _ = _
  rw [hasks.found]
  rfl

end Transact

end Command

/-! ### Drawings -/

/-- What two sets of whole numbers have in common are the numbers in both. -/
theorem Plan.exists_common (as bs : List Int) : ∃ cs : List Int,
    common (as.map .int) (bs.map .int) = cs.map .int ∧ ∀ i, i ∈ cs ↔ i ∈ as ∧ i ∈ bs := by
  have hfilter : ∀ cs ds : List Int,
      (cs.map Value.int).filter (fun v => (ds.map Value.int).any (v == ·)) =
        (cs.filter fun c => c ∈ ds).map .int := by
    intro cs ds
    rw [List.filter_map]
    congr 1
    refine List.filter_congr fun c _ => ?_
    rw [Bool.eq_iff_iff]
    simp [Value.int_beq]
  rw [common]
  split
  · exact ⟨_, hfilter as bs, fun i => by simp⟩
  · exact ⟨_, hfilter bs as, fun i => by simp [and_comm]⟩

/-- **Two sides of whole numbers make a phase**, unless some ids are on both. -/
theorem Plan.drawing_cases (chosen notChosen : List Int) (pallets : Pallets) :
    let phases : Except Fault (List (Phase τ)) :=
      drawing (.list (chosen.map .int)) (.list (notChosen.map .int)) pallets
    (∃ ps, phases = .ok ps) ∨ ∃ ids : List Int, ids ≠ [] ∧
      (∀ i ∈ ids, i ∈ chosen ∧ i ∈ notChosen) ∧ phases = .error (.overlap (ids.map .int)) := by
  intro phases
  obtain ⟨as, has, hchosen⟩ := Value.keySet_ints chosen
  obtain ⟨bs, hbs, hnotChosen⟩ := Value.keySet_ints notChosen
  obtain ⟨cs, hcs, hboth⟩ := exists_common as bs
  cases cs with
  | nil =>
    have hdisjoint : chosen.Disjoint notChosen := fun i hi hi' =>
      List.not_mem_nil ((hboth i).mpr ⟨(has.mem_iff i).mpr hi, (hbs.mem_iff i).mpr hi'⟩)
    obtain ⟨ps, hps, -⟩ := drawing_ints hdisjoint pallets
    exact Or.inl ⟨ps, hps⟩
  | cons c cs =>
    refine Or.inr ⟨(c :: cs).mergeSort, ?_, fun i hi => ?_, ?_⟩
    · rw [ne_eq, ← List.length_eq_zero_iff, List.length_mergeSort]
      simp
    · obtain ⟨hi, hi'⟩ := (hboth i).mp (List.mem_mergeSort.mp hi)
      exact ⟨(has.mem_iff i).mp hi, (hbs.mem_iff i).mp hi'⟩
    · simp only [phases, drawing, Value.items, hchosen, hnotChosen, hcs, bind, Except.bind,
        Value.sort_ints]
      rfl

namespace Command.Drawing

open Grammar

/-- **What dividing ids and making a phase of them comes to**: phases; or some ids were given on
both sides; or the number of winners is negative. -/
inductive Comes (τ : Type) (args : Arguments) (pallets : Pallets) :
    Except Fault (Value × Value) → Prop
  | builds {sides : Value × Value} {ps : List (Phase τ)}
      (h : Plan.drawing sides.1 sides.2 pallets = .ok ps) : Comes τ args pallets (.ok sides)
  | overlaps {chosen notChosen ids : List Int}
      (hchosen : idsOf args "chosen" Plan.chosenPreorders = .list (chosen.map .int))
      (hnotChosen : idsOf args "not_chosen" Plan.notChosenPreorders = .list (notChosen.map .int))
      (hids : ids ≠ []) (hboth : ∀ i ∈ ids, i ∈ chosen ∧ i ∈ notChosen)
      (h : Plan.drawing (τ := τ) (.list (chosen.map .int)) (.list (notChosen.map .int)) pallets =
        .error (.overlap (ids.map .int))) :
      Comes τ args pallets (.ok (.list (chosen.map .int), .list (notChosen.map .int)))
  | refuses {winners : Int} (hwinners : argument args "winners" = .int winners) (h : winners < 0) :
      Comes τ args pallets (.error (.negativeWinners (.int winners)))

/-- A node that is asked for the pending preorders lists whole numbers. -/
def Lists (node : Node ν τ) (pallets : Pallets) (w : World ν τ) : Prop :=
  ∃ entries n, ∃ ids : List Int, (node.queryMap w.clock.now pallets.sale "Preorders"
    (.list [])).runOn w.node = (.ok entries, n) ∧ entries.map Prod.fst = ids.map .int

variable {host : Host ν τ} {pallets : Pallets}

/-- What is drawn from the preorders that a node lists. -/
theorem outcome_division {winners : Int} (hwinners : argument args "winners" = .int winners)
    {s : Session ν τ} {entries : List (Value × Value)} {n : ν}
    (h : (host.node.queryMap s.world.clock.now pallets.sale "Preorders" (.list [])).runOn
      s.world.node = (.ok entries, n)) :
    ((division host pallets args).runOn s).1 = do
      let pending ← Inquiry.tableOf entries
      let sides ← Draw.split pending.keys (.int winners) (argument args "seed") host.entropy
      return (.list sides.1, .list sides.2) := by
  have hpending := Inquiry.runOn_pendingPreorders h
  rw [division, hwinners]
  dsimp only
  cases htable : Inquiry.tableOf entries with
  | error f =>
    rw [runOn_bind_error (by rw [Session.runOn_inWorld, hpending, Except.bind, htable])]
    rfl
  | ok pending =>
    rw [runOn_bind_ok (by rw [Session.runOn_inWorld, hpending, Except.bind, htable]),
      runOn_bind_ok (Session.runOn_inWorld _ _)]
    cases hsplit : Draw.split pending.keys (.int winners) (argument args "seed") host.entropy with
    | error f =>
      rw [runOn_bind_error (runOn_ofExcept _ _)]
      simp [hsplit, bind, Except.bind]
    | ok sides =>
      rw [runOn_bind_ok (runOn_ofExcept _ _)]
      rw [runOn_pure]
      simp [hsplit, bind, Except.bind, pure, Except.pure]

/-- An option of a drawing holds what it should. -/
theorem holds (hargs : grammar.parse words = .ok args) {s : Switch} (hs : s ∈ grammar.switches)
    (hplain : s.help = false) : s.Finds (argument args s.key) := by
  have hholds : Holds (grammar.options.filter fun s => !s.help) args :=
    holds_of_parse rfl (by decide) hargs
  obtain ⟨v, hv, hfinds⟩ :=
    hholds s (List.mem_filter.mpr ⟨List.mem_cons_of_mem _ hs, by simp [hplain]⟩)
  rwa [argument_of_get? hv]

/-- The number of winners is one if it is given, unless it was left with an empty list. -/
theorem winners_of_filled (hargs : grammar.parse words = .ok args)
    (hfilled : argument args "winners" ≠ .list []) :
    argument args "winners" = .null ∨ ∃ n : Int, argument args "winners" = .int n := by
  have hfinds := holds hargs (s := { names := ["--winners"], key := "winners", whole := true })
    (by simp [grammar]) rfl
  rcases Switch.finds_whole rfl rfl hfinds with ⟨-, hnull⟩ | hempty | hint
  · exact Or.inl hnull
  · exact absurd hempty hfilled
  · exact Or.inr hint

/-- The seed of a drawing can be seeded with, unless it was left with an empty list. -/
theorem seed_of_filled (hargs : grammar.parse words = .ok args)
    (hfilled : argument args "seed" ≠ .list []) : Draw.Seed.Fits (argument args "seed") := by
  have hfinds := holds hargs (s := { names := ["--seed"], key := "seed" }) (by simp [grammar]) rfl
  rcases Switch.finds_text rfl rfl hfinds with ⟨-, hnull⟩ | hempty | ⟨text, htext⟩
  · exact hnull ▸ trivial
  · exact absurd hempty hfilled
  · exact htext ▸ trivial

/-- **A drawing builds phases, or refuses**: ids on both sides, and a negative number of winners. -/
theorem comes_of_division (hargs : grammar.parse words = .ok args)
    (hfilled : Line.draw.Filled args) {s t : Session ν τ} {out : Except Fault (Value × Value)}
    (hlists : argument args "winners" ≠ .null → Lists host.node pallets s.world)
    (h : (division host pallets args).runOn s = (out, t)) : Comes τ args pallets out := by
  obtain ⟨hwinners, hseed⟩ := hfilled
  rcases winners_of_filled hargs hwinners with hnull | ⟨winners, hint⟩
  · obtain ⟨chosen, hchosen⟩ := ids_of_parse hargs (.inl rfl) Plan.chosenPreorders
    obtain ⟨notChosen, hnotChosen⟩ := ids_of_parse hargs (.inr rfl) Plan.notChosenPreorders
    rw [division, hnull] at h
    dsimp only at h
    rw [hchosen, hnotChosen] at h
    obtain ⟨rfl, -⟩ := Prod.mk.inj h
    rcases Plan.drawing_cases chosen notChosen pallets with ⟨ps, hps⟩ | ⟨ids, hids, hboth, hover⟩
    · exact .builds hps
    · exact .overlaps hchosen hnotChosen hids hboth hover
  · have hgiven : argument args "winners" ≠ .null := by simp [hint]
    obtain ⟨entries, n, ids, hanswer, hids⟩ := hlists hgiven
    obtain ⟨pending, ks, htable, hks, hkeys⟩ := Inquiry.tableOf_ints hids
    have hout := outcome_division hint hanswer
    rw [h, htable] at hout
    change out = Draw.split pending.keys (.int winners) (argument args "seed") host.entropy >>=
      fun sides => .ok (.list sides.1, .list sides.2) at hout
    rw [hkeys] at hout
    rcases lt_or_ge winners 0 with hnegative | hcount
    · rw [Draw.split_negative ks hnegative] at hout
      exact hout ▸ .refuses hint hnegative
    · obtain ⟨count, rfl⟩ := Int.eq_ofNat_of_zero_le hcount
      obtain ⟨chosen, notChosen, hsplit, honce, -⟩ :=
        Draw.split_ints hks count (seed_of_filled hargs (hseed hgiven)) host.entropy
      obtain ⟨ps, hps, -⟩ :=
        Plan.drawing_ints (List.disjoint_of_nodup_append honce.nodup) pallets
      rw [hsplit] at hout
      exact hout ▸ .builds hps

end Command.Drawing

end Campaign
