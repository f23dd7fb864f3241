import Campaign.Proofs.Building

/-!
# Which ids a drawing resolves twice

A drawing refuses an id that stands on both of its sides, and looks at nothing else: each side is
handed in as it was given.  So an id that was given once is resolved at most once, but one that was
given twice on one side is handed in twice.

* `Script.Follows.offered`: what was handed in belongs to the first steps of a plan, taken or not.
* `Plan.disjoint_of_drawing`: a drawing that makes a phase has no id on both sides.
* `Plan.drawing_repeats_only_what_is_given`: **ids are resolved twice just where one side repeats
  them**, whatever the node answers.
-/

namespace Campaign

open Act History

variable {ν τ : Type}

namespace Script

variable {script : Script ν τ}

/-- **What was handed in belongs to the first steps of a plan**, whether it was taken or not. -/
theorem Follows.offered {plan done : List Submit} {h new : History τ}
    (hfollows : script.Follows plan done h new) :
    ∃ offered, done <+: offered ∧ offered <+: plan ∧
      List.Forall₂ (fun x e => ∃ answer, script.Offers h x e answer) offered (handed new) := by
  have htaken : List.Forall₂ (fun x e => ∃ answer, script.Offers h x e answer) done (taken new) :=
    hfollows.takes.imp fun _ _ ⟨hash, hoffer⟩ => ⟨.ok hash, hoffer⟩
  rcases hfollows.hands with hsame | ⟨x, e, f, hx, hmore, hoffer⟩
  · refine ⟨done, List.prefix_rfl, hfollows.isPrefix, ?_⟩
    rw [hsame]
    exact htaken
  · refine ⟨done ++ [x], List.prefix_append done [x], hx, ?_⟩
    rw [hmore]
    exact List.rel_append htaken (.cons ⟨.error f, hoffer⟩ .nil)

end Script

namespace Plan

/-- The sides that were handed in, in order: the extrinsics in the new part of a history are made of
their ids. -/
def HandsIn (script : Script ν τ) (pallets : Pallets) (sides : List (String × List Int))
    (h new : History τ) : Prop :=
  List.Forall₂ (fun side e => ∃ answer, script.Offers h (resolution pallets side) e answer) sides
    (handed new)

/-- What is handed in on the way through the plan of a drawing is sides of it, the first ones, and
all of them at the end of the way. -/
theorem handsIn_of_follows {script : Script ν τ} {pallets : Pallets}
    {sides : List (String × List Int)} {done : List Submit} {h new : History τ}
    (hfollows : script.Follows (sides.map (resolution pallets)) done h new) :
    ∃ submitted, submitted <+: sides ∧ HandsIn script pallets submitted h new ∧
      (done = sides.map (resolution pallets) → submitted = sides) := by
  obtain ⟨offered, hdone, hplan, hoffers⟩ := hfollows.offered
  obtain ⟨submitted, hfirst, rfl⟩ := List.prefix_map_iff.mp hplan
  refine ⟨submitted, hfirst, List.forall₂_map_left_iff.mp hoffers, ?_⟩
  rintro rfl
  refine hfirst.eq_of_length (Nat.le_antisymm hfirst.length_le ?_)
  simpa using hdone.length_le

/-! ### Ids on two sides, and on one -/

/-- **A drawing that makes a phase has no id on both sides.** -/
theorem disjoint_of_drawing {chosen notChosen : List Int} {pallets : Pallets}
    {phases : List (Phase τ)}
    (h : drawing (.list (chosen.map .int)) (.list (notChosen.map .int)) pallets = .ok phases) :
    chosen.Disjoint notChosen := by
  obtain ⟨as, has, hchosen⟩ := Value.keySet_ints chosen
  obtain ⟨bs, hbs, hnotChosen⟩ := Value.keySet_ints notChosen
  obtain ⟨cs, hcs, hboth⟩ := exists_common as bs
  intro i hi hi'
  have hshared : i ∈ cs := (hboth i).mpr ⟨(has.mem_iff i).mpr hi, (hbs.mem_iff i).mpr hi'⟩
  cases cs with
  | nil => cases hshared
  | cons c cs =>
    simp only [drawing, Value.items, hchosen, hnotChosen, hcs, bind, Except.bind,
      Value.sort_ints] at h
    cases h

/-- Sides without a common id repeat an id just where one of them does. -/
theorem nodup_resolved_iff {chosen notChosen : List Int} (hdisjoint : chosen.Disjoint notChosen)
    {submitted : List (String × List Int)} (hfirst : submitted <+: sides chosen notChosen) :
    (resolved submitted).Nodup ↔ ∀ side ∈ submitted, side.2.Nodup := by
  have hapart : (sides chosen notChosen).Pairwise fun one other => one.2.Disjoint other.2 := by
    refine List.Pairwise.filter _ ?_
    simpa using hdisjoint
  rw [resolved, List.nodup_flatMap]
  exact and_iff_left (hapart.sublist hfirst.sublist)

theorem nodup_of_mem_sides {chosen notChosen : List Int} (hchosen : chosen.Nodup)
    (hnotChosen : notChosen.Nodup) {side : String × List Int}
    (hside : side ∈ sides chosen notChosen) : side.2.Nodup := by
  have hmem := List.mem_of_mem_filter hside
  simp only [List.mem_cons, List.not_mem_nil, or_false] at hmem
  rcases hmem with rfl | rfl
  · exact hchosen
  · exact hnotChosen

/-! ### Runs -/

variable [Seconds τ]

/-- **A run of a drawing hands its sides in**, up to where it ends. -/
theorem handsIn_of_run {chosen notChosen : List Int} {pallets : Pallets} {phases : List (Phase τ)}
    (hphases :
      drawing (.list (chosen.map .int)) (.list (notChosen.map .int)) pallets = .ok phases)
    {script : Script ν τ} {s t : Session ν τ} {out : Except Fault (List Sent)}
    (hrun : (script.run phases).runOn s = (out, t)) :
    ∃ new submitted, t.world.journal = new ++ s.world.journal ∧
      submitted <+: sides chosen notChosen ∧
      HandsIn script pallets submitted t.world.journal new ∧
      ∀ sent, out = .ok sent → submitted = sides chosen notChosen := by
  obtain ⟨new, done, hnew, hfollows, hwhole⟩ := (Script.walk_run hrun).follows
  rw [submissions_of_drawing hphases] at hfollows hwhole
  obtain ⟨submitted, hfirst, hhands, hall⟩ := handsIn_of_follows hfollows
  refine ⟨new, submitted, hnew, hfirst, hhands, ?_⟩
  rintro sent rfl
  exact hall (hwhole rfl)

/-- **A drawing repeats only what is given repeatedly.**  When it makes a phase, no id stands on
both sides.  A run of the phase hands in the sides, up to where it ends, and an id stands twice in
what was handed in just if one of these sides repeats it.  So nothing is resolved twice if neither
side repeats an id. -/
theorem drawing_repeats_only_what_is_given {chosen notChosen : List Int} {pallets : Pallets}
    {phases : List (Phase τ)}
    (hphases :
      drawing (.list (chosen.map .int)) (.list (notChosen.map .int)) pallets = .ok phases)
    {script : Script ν τ} {s t : Session ν τ} {out : Except Fault (List Sent)}
    (hrun : (script.run phases).runOn s = (out, t)) :
    chosen.Disjoint notChosen ∧ ∃ new submitted, t.world.journal = new ++ s.world.journal ∧
      submitted <+: sides chosen notChosen ∧
      HandsIn script pallets submitted t.world.journal new ∧
      (∀ sent, out = .ok sent → submitted = sides chosen notChosen) ∧
      ((resolved submitted).Nodup ↔ ∀ side ∈ submitted, side.2.Nodup) ∧
      (chosen.Nodup → notChosen.Nodup → (resolved submitted).Nodup) := by
  have hdisjoint := disjoint_of_drawing hphases
  obtain ⟨new, submitted, hnew, hfirst, hhands, hwhole⟩ := handsIn_of_run hphases hrun
  have hiff := nodup_resolved_iff hdisjoint hfirst
  refine ⟨hdisjoint, new, submitted, hnew, hfirst, hhands, hwhole, hiff, ?_⟩
  intro hchosen hnotChosen
  exact hiff.mpr fun side hside => nodup_of_mem_sides hchosen hnotChosen (hfirst.mem hside)

/-- The overlord on a node that takes nonces in sequence. -/
def overlordAlone : Script Sequential.State Value where
  node := Sequential.node {}
  accounts := ⟨[("overlord", ⟨"a", true⟩)]⟩
  barrierTimeout := .int 1
  pollInterval := .int 1

/-- A new session on a node where the overlord's next nonce is 5. -/
def begun : Session Sequential.State Value :=
  .fresh (.ofNonces ⟨[("a", 5)]⟩) { now := .int 0 }

set_option maxRecDepth 10000 in
/-- Three ids, each given once: both sides are handed in, and each id is resolved once. -/
theorem drawing_repeats_only_what_is_given_once :
    ∃ (phases : List (Phase Value)) (sent : List Sent) (t : Session Sequential.State Value),
      drawing (.list [.int 3, .int 5]) (.list [.int 4]) {} = .ok phases ∧
      (overlordAlone.run phases).runOn begun = (.ok sent, t) ∧
      [3, 5].Nodup ∧ [(4 : Int)].Nodup ∧
      HandsIn overlordAlone {} (sides [3, 5] [4]) t.world.journal t.world.journal ∧
      (resolved (sides [3, 5] [4])).Nodup := by
  obtain ⟨phases, hphases, hends⟩ := exists_of_any
    (r := drawing (τ := Value) (.list [.int 3, .int 5]) (.list [.int 4]) {})
    (p := fun phases => ((overlordAlone.run phases).runOn begun).1.isOk) (by decide +kernel)
  rcases hrun : (overlordAlone.run phases).runOn begun with ⟨f | sent, t⟩
  · rw [hrun] at hends
    cases hends
  · obtain ⟨-, new, submitted, hnew, -, hhands, hwhole, -, honce⟩ :=
      @drawing_repeats_only_what_is_given _ _ _ [3, 5] [4] _ _ hphases _ _ _ _ hrun
    have hall : t.world.journal = new := hnew.trans (List.append_nil new)
    obtain rfl := hwhole sent rfl
    refine ⟨phases, sent, t, hphases, hrun, by decide, by decide, ?_, honce (by decide) (by decide)⟩
    rwa [← hall] at hhands

set_option maxRecDepth 10000 in
/-- An id that is given twice to be minted makes a phase, and the node takes an extrinsic that mints
it twice. -/
theorem doubled_id_is_minted_twice :
    ∃ (phases : List (Phase Value)) (sent : List Sent) (t : Session Sequential.State Value),
      drawing (.list [.int 1, .int 1]) (.list [.int 2]) {} = .ok phases ∧
      (overlordAlone.run phases).runOn begun = (.ok sent, t) ∧
      (taken t.world.journal).map Extrinsic.call ==
        [Sequential.composed "PwNftSale" "mint_chosen_preorders"
            (.object [("preorders", .list [.int 1, .int 1])]),
          Sequential.composed "PwNftSale" "refund_not_chosen_preorders"
            (.object [("preorders", .list [.int 2])])] ∧
      ∃ submitted, HandsIn overlordAlone {} submitted t.world.journal t.world.journal ∧
        (1 : Int) ∈ resolved submitted ∧ ¬ (resolved submitted).Nodup := by
  obtain ⟨phases, hphases, hends⟩ := exists_of_any
    (r := drawing (τ := Value) (.list [.int 1, .int 1]) (.list [.int 2]) {})
    (p := fun phases =>
      let r := (overlordAlone.run phases).runOn begun
      r.1.isOk && (taken r.2.world.journal).map Extrinsic.call ==
        [Sequential.composed "PwNftSale" "mint_chosen_preorders"
            (.object [("preorders", .list [.int 1, .int 1])]),
          Sequential.composed "PwNftSale" "refund_not_chosen_preorders"
            (.object [("preorders", .list [.int 2])])]) (by decide +kernel)
  rcases hrun : (overlordAlone.run phases).runOn begun with ⟨f | sent, t⟩
  · rw [hrun] at hends
    cases hends
  · rw [hrun] at hends
    obtain ⟨new, submitted, hnew, -, hhands, hwhole⟩ :=
      @handsIn_of_run _ _ _ [1, 1] [2] _ _ hphases _ _ _ _ hrun
    have hall : t.world.journal = new := hnew.trans (List.append_nil new)
    obtain rfl := hwhole sent rfl
    rw [← hall] at hhands
    exact ⟨phases, sent, t, hphases, hrun, hends, _, hhands, by decide, by decide⟩

end Plan

end Campaign
