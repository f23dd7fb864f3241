import Campaign.Inquiry
import Campaign.Node.Sequential
import Campaign.Plan.Drawing
import Campaign.Proofs.Division
import Campaign.Proofs.Progress

/-!
# Every pending preorder is resolved once

A drawing goes from the pending preorders on chain to two lists of ids, one to mint and one to
refund, and then submits them.  On the way an id can be lost or doubled in many places; none is.
That a division itself loses and doubles none is `Draw.split_ints`.

* `Inquiry.tableOf_ints`: the ids on chain are the keys of the table of pending preorders, each
  once, also when the chain lists one twice.
* `Plan.drawing_ints`: two sides without a common id make a phase that submits the sides that are
  not empty, the mint first (`Plan.sides`).
* `Plan.drawing_resolves_once`: **a run resolves every preorder at most once**, and all of them if
  all that was built is taken (`Plan.Resolves`).
-/

namespace Campaign

open Act History

variable {ν τ : Type}

/-! ### Pending preorders -/

/-- The pending preorders are what the node answers, as a table. -/
theorem Inquiry.runOn_pendingPreorders {node : Node ν τ} {pallets : Pallets} {w : World ν τ}
    {answer : Except Fault (List (Value × Value))} {n : ν}
    (h : (node.queryMap w.clock.now pallets.sale "Preorders" (.list [])).runOn w.node =
      (answer, n)) :
    (pendingPreorders node pallets).runOn w = (answer.bind tableOf,
      w.after n (.mapQueried pallets.sale "Preorders" (.list []) answer)) := by
  have hquery : (Client.queryMap node pallets.sale "Preorders" .null).runOn w =
      (answer, w.after n (.mapQueried pallets.sale "Preorders" (.list []) answer)) := by
    rw [Client.queryMap, World.runOn_call]
    exact congrArg
      (fun r => (r.1, w.after r.2 (.mapQueried pallets.sale "Preorders" (.list []) r.1))) h
  rw [pendingPreorders]
  cases answer with
  | ok entries =>
    rw [runOn_bind_ok hquery, runOn_ofExcept]
    rfl
  | error f => rw [runOn_bind_error hquery]; rfl

/-- Entries with ids that are whole numbers make a table of the ids, each once. -/
theorem Inquiry.tableOf_ints {entries : List (Value × Value)} {ids : List Int}
    (hids : entries.map Prod.fst = ids.map .int) :
    ∃ table ks, tableOf entries = .ok table ∧ Once ks ids ∧ table.keys = ks.map .int := by
  obtain ⟨ks, hks, hkeys⟩ := Table.keys_ofList_ints hids
  have hfit : entries.findSome? (fun e => e.1.unhashable?) = none := by
    have := Value.unhashable_ints ids
    rwa [← hids, List.findSome?_map] at this
  refine ⟨.ofList entries, ks, ?_, hks, hkeys⟩
  rw [tableOf, hfit]

/-! ### The phase of a drawing -/

namespace Plan

/-- The sides of a drawing that have ids, each with its function, the mint first. -/
def sides (chosen notChosen : List Int) : List (String × List Int) :=
  [("mint_chosen_preorders", chosen), ("refund_not_chosen_preorders", notChosen)].filter
    fun side => !side.2.isEmpty

/-- The submission that resolves a side. -/
def resolution (pallets : Pallets) (side : String × List Int) : Submit where
  account := "overlord"
  pallet := pallets.sale
  function := side.1
  params := .given (.object [("preorders", .list (side.2.map .int))])

/-- All ids of some sides. -/
def resolved (sides : List (String × List Int)) : List Int := sides.flatMap Prod.snd

/-- The ids that are minted among some sides. -/
def minted (sides : List (String × List Int)) : List Int :=
  resolved (sides.filter fun side => side.1 = "mint_chosen_preorders")

theorem resolved_sides (chosen notChosen : List Int) :
    resolved (sides chosen notChosen) = chosen ++ notChosen := by
  cases chosen <;> cases notChosen <;> simp [resolved, sides]

theorem minted_sides (chosen notChosen : List Int) : minted (sides chosen notChosen) = chosen := by
  cases chosen <;> cases notChosen <;> simp [minted, resolved, sides]

theorem length_sides (chosen notChosen : List Int) : (sides chosen notChosen).length ≤ 2 :=
  List.length_filter_le _ _

theorem common_ints {as bs : List Int} (hdisjoint : as.Disjoint bs) :
    common (as.map .int) (bs.map .int) = [] := by
  have hnone : ∀ cs ds : List Int, cs.Disjoint ds →
      (cs.map Value.int).filter (fun v => (ds.map Value.int).any (v == ·)) = [] := by
    intro cs ds hcs
    rw [List.filter_eq_nil_iff]
    intro v hv hany
    obtain ⟨c, hc, rfl⟩ := List.mem_map.mp hv
    obtain ⟨u, hu, hequal⟩ := List.any_eq_true.mp hany
    obtain ⟨d, hd, rfl⟩ := List.mem_map.mp hu
    rw [Value.int_beq, decide_eq_true_eq] at hequal
    exact hcs hc (hequal ▸ hd)
  rw [common]
  split
  · exact hnone as bs hdisjoint
  · exact hnone bs as hdisjoint.symm

/-- A phase that is made of two sides submits those that have ids. -/
theorem submissions_of_drawing {chosen notChosen : List Int} {pallets : Pallets}
    {phases : List (Phase τ)}
    (h : drawing (.list (chosen.map .int)) (.list (notChosen.map .int)) pallets = .ok phases) :
    Script.submissions (phases.flatMap Phase.steps) =
      (sides chosen notChosen).map (resolution pallets) := by
  obtain ⟨_, hchosen, h⟩ := Act.outcome_bind_ok.mp h
  obtain ⟨_, -, h⟩ := Act.outcome_bind_ok.mp h
  obtain ⟨_, hnotChosen, h⟩ := Act.outcome_bind_ok.mp h
  obtain ⟨_, -, h⟩ := Act.outcome_bind_ok.mp h
  cases hchosen
  cases hnotChosen
  dsimp only at h
  split at h
  · obtain rfl := Except.ok.inj h
    cases chosen <;> cases notChosen <;> rfl
  · obtain ⟨_, -, h⟩ := Act.outcome_bind_ok.mp h
    cases h

/-- **Two sides without a common id make a phase** of their submissions; without ids it is empty. -/
theorem drawing_ints {chosen notChosen : List Int} (hdisjoint : chosen.Disjoint notChosen)
    (pallets : Pallets) :
    ∃ phases : List (Phase τ),
      drawing (.list (chosen.map .int)) (.list (notChosen.map .int)) pallets = .ok phases ∧
      Script.submissions (phases.flatMap Phase.steps) =
        (sides chosen notChosen).map (resolution pallets) ∧
      (chosen ++ notChosen = [] → phases.flatMap Phase.steps = []) := by
  obtain ⟨as, has, hchosen⟩ := Value.keySet_ints chosen
  obtain ⟨bs, hbs, hnotChosen⟩ := Value.keySet_ints notChosen
  have hcommon : common (as.map .int) (bs.map .int) = [] :=
    common_ints fun i hi hi' => hdisjoint ((has.mem_iff i).mp hi) ((hbs.mem_iff i).mp hi')
  refine ⟨[⟨"Drawing preorders",
    let steps := resolve pallets "mint_chosen_preorders" (chosen.map .int) ++
      resolve pallets "refund_not_chosen_preorders" (notChosen.map .int)
    if steps.isEmpty then [] else steps ++ [wait "overlord"]⟩], ?_, ?_, ?_⟩
  · simp [drawing, Value.items, hchosen, hnotChosen, hcommon, bind, Except.bind, pure, Except.pure]
  · cases chosen <;> cases notChosen <;> rfl
  · intro hempty
    obtain ⟨rfl, rfl⟩ := List.append_eq_nil_iff.mp hempty
    rfl

/-! ### Runs -/

/-- **What a run of a drawing has resolved**: in the new part of a history, the sides in `accepted`
were taken, in order, and no more than two submissions were handed in.  No id was resolved twice,
and only ids that were pending; and once all sides are taken, every id was resolved once, and as
many were minted as there were winners, or all. -/
structure Resolves (script : Script ν τ) (pallets : Pallets) (winners : Nat) (ids : List Int)
    (sides accepted : List (String × List Int)) (h new : History τ) : Prop where
  follows : script.Follows (sides.map (resolution pallets)) (accepted.map (resolution pallets)) h
    new
  atMostTwo : (handed new).length ≤ 2
  nodup : (resolved accepted).Nodup
  pending : ∀ i ∈ resolved accepted, i ∈ ids
  complete : (taken new).length = sides.length →
    Once (resolved accepted) ids ∧ (minted accepted).length = min winners ids.toFinset.card

/-- A run that follows the plan of a division resolves ids as the division has them. -/
theorem resolves_of_follows {script : Script ν τ} {pallets : Pallets} {winners : Nat}
    {ids chosen notChosen : List Int} (honce : Once (chosen ++ notChosen) ids)
    (hchosen : chosen.length = min winners ids.toFinset.card) {done : List Submit}
    {h new : History τ}
    (hfollows : script.Follows ((sides chosen notChosen).map (resolution pallets)) done h new) :
    ∃ accepted, Resolves script pallets winners ids (sides chosen notChosen) accepted h new := by
  obtain ⟨accepted, hprefix, rfl⟩ := List.prefix_map_iff.mp hfollows.isPrefix
  have hresolved : resolved accepted <+: chosen ++ notChosen := by
    obtain ⟨rest, hrest⟩ := hprefix
    rw [← resolved_sides, ← hrest, resolved, resolved, List.flatMap_append]
    exact List.prefix_append _ _
  refine ⟨accepted, hfollows, ?_, ?_, ?_, ?_⟩
  · refine hfollows.length_handed.trans ?_
    rw [List.length_map]
    exact length_sides chosen notChosen
  · exact honce.nodup.sublist hresolved.sublist
  · exact fun i hi => (honce.mem_iff i).mp (hresolved.mem hi)
  · intro htaken
    obtain rfl : accepted = sides chosen notChosen := by
      refine hprefix.eq_of_length ?_
      have := hfollows.takes.length_eq
      rw [← htaken, ← this, List.length_map]
    rw [resolved_sides, minted_sides]
    exact ⟨honce, hchosen⟩

variable [Seconds τ]

/-- **Every pending preorder is resolved once.**  The chain may list ids in any order and more than
once; the number of winners, the seed and the entropy of the system may be any.  The pending
preorders are read, divided and made into phases without a fault, and whatever session runs the
phases, with any node and however the run ends, `Resolves` holds of it.  Without pending preorders a
run leaves marks only. -/
theorem drawing_resolves_once {node : Node ν τ} {w : World ν τ} {n : ν} {pallets : Pallets}
    {entries : List (Value × Value)} {ids : List Int}
    (hquery : (node.queryMap w.clock.now pallets.sale "Preorders" (.list [])).runOn w.node =
      (.ok entries, n))
    (hids : entries.map Prod.fst = ids.map .int) (winners : Nat) {seed : Value}
    (hseed : Draw.Seed.Fits seed) (entropy : List UInt32) :
    ∃ pending, ∃ chosen notChosen : List Int, ∃ phases : List (Phase τ),
      ((Inquiry.pendingPreorders node pallets).runOn w).1 = .ok pending ∧
      Draw.split pending.keys (.int winners) seed entropy =
        .ok (chosen.map .int, notChosen.map .int) ∧
      drawing (.list (chosen.map .int)) (.list (notChosen.map .int)) pallets = .ok phases ∧
      Once (chosen ++ notChosen) ids ∧ chosen.length = min winners ids.toFinset.card ∧
      ∀ (script : Script ν τ) (s t : Session ν τ) (out : Except Fault (List Sent)),
        (script.run phases).runOn s = (out, t) →
          ∃ new accepted, t.world.journal = new ++ s.world.journal ∧
            Resolves script pallets winners ids (sides chosen notChosen) accepted t.world.journal
              new ∧
            (ids = [] → ∀ x ∈ new, x.IsMark) := by
  obtain ⟨pending, ks, htable, hks, hkeys⟩ := Inquiry.tableOf_ints hids
  obtain ⟨chosen, notChosen, hsplit, honce, hchosen⟩ := Draw.split_ints hks winners hseed entropy
  obtain ⟨phases, hphases, hsteps, hempty⟩ :=
    drawing_ints (List.disjoint_of_nodup_append honce.nodup) pallets
  refine ⟨pending, chosen, notChosen, phases, ?_, ?_, hphases, honce, hchosen, ?_⟩
  · rw [Inquiry.runOn_pendingPreorders hquery]
    exact htable
  · rw [hkeys, hsplit]
  · intro script s t out hrun
    have hwalk := Script.walk_run hrun
    obtain ⟨new, done, hnew, hfollows, -⟩ := hwalk.follows
    rw [hsteps] at hfollows
    obtain ⟨accepted, hresolves⟩ := resolves_of_follows honce hchosen hfollows
    refine ⟨new, accepted, hnew, hresolves, ?_⟩
    rintro rfl
    have hnone : chosen ++ notChosen = [] :=
      List.eq_nil_iff_forall_not_mem.mpr fun i hi => by simpa using (honce.mem_iff i).mp hi
    rw [hempty hnone] at hwalk
    obtain ⟨new', hnew', hmarks⟩ := hwalk.marks
    obtain rfl : new = new' := List.append_cancel_right (hnew.symm.trans hnew')
    exact hmarks

/-- The overlord on a node with preorders 3 and 5 pending, the first of which is listed twice. -/
def deciding : Script Sequential.State Value where
  node := { Sequential.node {} with
    queryMap := fun _ _ _ _ => return [(.int 3, .null), (.int 5, .null), (.int 3, .null)] }
  accounts := ⟨[("overlord", ⟨"a", true⟩)]⟩
  barrierTimeout := .int 1
  pollInterval := .int 1

set_option maxRecDepth 10000 in
/-- One winner of two: whichever it is, both sides are taken, and each preorder is resolved once. -/
theorem drawing_resolves_once_repeated :
    let s : Session Sequential.State Value := .fresh (.ofNonces ⟨[("a", 5)]⟩) { now := .int 0 }
    ∃ (pending : Table Value Value) (chosen notChosen : List Int) (phases : List (Phase Value)),
      ((Inquiry.pendingPreorders deciding.node {}).runOn s.world).1 = .ok pending ∧
      Draw.split pending.keys (.int 1) .null [7] = .ok (chosen.map .int, notChosen.map .int) ∧
      drawing (.list (chosen.map .int)) (.list (notChosen.map .int)) {} = .ok phases ∧
      (taken ((deciding.run phases).runOn s).2.world.journal).map Extrinsic.nonce = [5, 6] ∧
      ∃ accepted, Once (resolved accepted) [3, 5, 3] ∧ (minted accepted).length = 1 := by
  intro s
  obtain ⟨pending, chosen, notChosen, phases, hpending, hsplit, hphases, honce, hchosen, hruns⟩ :=
    @drawing_resolves_once _ Value _ deciding.node s.world s.world.node {}
      [(.int 3, .null), (.int 5, .null), (.int 3, .null)] [3, 5, 3] rfl rfl 1 .null trivial [7]
  refine ⟨pending, chosen, notChosen, phases, hpending, hsplit, hphases, ?_⟩
  have hlength : (chosen ++ notChosen).length = 2 := honce.length_eq
  obtain ⟨c, rfl⟩ := List.length_eq_one_iff.mp hchosen
  obtain ⟨d, rfl⟩ := List.length_eq_one_iff.mp
    (by simpa using hlength : notChosen.length = 1)
  have htaken : ∀ p ∈ [((3 : Int), (5 : Int)), (5, 3)],
      (drawing (.list [.int p.1]) (.list [.int p.2]) {}).toOption.map (fun ps =>
        (taken ((deciding.run ps).runOn s).2.world.journal).map Extrinsic.nonce) = some [5, 6] := by
    decide +kernel
  have hcd : (c, d) ∈ [((3 : Int), (5 : Int)), (5, 3)] := by
    have hc : c = 3 ∨ c = 5 ∨ c = 3 := by simpa using (honce.mem_iff c).mp (by simp)
    have hd : d = 3 ∨ d = 5 ∨ d = 3 := by simpa using (honce.mem_iff d).mp (by simp)
    have hne : c ≠ d := by simpa using honce.nodup
    simp only [List.mem_cons, Prod.mk.injEq, List.not_mem_nil, or_false]
    omega
  rcases hrun : (deciding.run phases).runOn s with ⟨out, t⟩
  have hnonces : (taken t.world.journal).map Extrinsic.nonce = [5, 6] := by
    have hcase := htaken (c, d) hcd
    rw [show drawing (.list [.int c]) (.list [.int d]) {} = .ok phases from hphases] at hcase
    simpa [Except.toOption, hrun] using hcase
  obtain ⟨new, accepted, hnew, hresolves, -⟩ := hruns deciding s t out hrun
  refine ⟨hnonces, accepted, hresolves.complete ?_⟩
  rw [hnew, show s.world.journal = [] from rfl, List.append_nil] at hnonces
  simpa [sides] using congrArg List.length hnonces

end Plan

end Campaign
