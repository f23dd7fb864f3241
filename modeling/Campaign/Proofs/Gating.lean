import Campaign.Node.Sequential
import Campaign.Plan.Incubation
import Campaign.Proofs.Confirmation

/-!
# Sales and feeds wait for what opens them

The population and the incubation go through calls that need others to be on chain: a purchase or a
preorder needs its status opened, a feed needs incubation opened, and a round of preorders or feeds
needs the round before.  A barrier stands between each two.  `Gated` lists what must be confirmed
for a submission to be attempted, and `attempts_gated` says that it is, with any node and any
accounts, until a barrier warns that its time has run out.

Where a submission stands in a plan is told by its function (`functions`) and, within rounds, by its
arguments, since no two of a plan's preorders or feeds are the same (`confirmed_of_rounds`).
-/

namespace Campaign

open Act History

variable {ν τ : Type}

namespace Script

/-- An attempt is one of a submission: just before, its call was composed and it was announced. -/
def AttemptOf (script : Script ν τ) (x : Submit) (y : Event τ) (earlier : History τ) : Prop :=
  ∃ e ready, script.Readies x e ready ∧
    ((∃ answer, y = .signed e answer ∧ earlier = ready) ∨
      ∃ answer, y = .submitted e answer ∧ earlier = .signed e (.ok ()) :: ready)

end Script

namespace Plan

open Script

/-! ### Where a submission stands -/

/-- The functions that some steps call. -/
def functions (steps : List (Step τ)) : List Value := (submissions steps).map Submit.function

theorem functions_append (first rest : List (Step τ)) :
    functions (first ++ rest) = functions first ++ functions rest := by
  simp [functions, submissions]

theorem mem_submissions {steps : List (Step τ)} {x : Submit} :
    x ∈ submissions steps ↔ .submit x ∈ steps := by
  simp only [submissions, List.mem_flatMap, Option.mem_toList]
  constructor
  · rintro ⟨step, hstep, hx⟩
    cases step with
    | submit x' =>
      obtain rfl := Option.some.inj hx
      exact hstep
    | _ => cases hx
  · exact fun hx => ⟨_, hx, rfl⟩

theorem not_mem_of_functions {steps : List (Step τ)} {x : Submit}
    (h : x.function ∉ functions steps) : .submit x ∉ steps :=
  fun hx => h (List.mem_map_of_mem (mem_submissions.mpr hx))

theorem function_mem {steps before after : List (Step τ)} {x : Submit}
    (h : before ++ .submit x :: after = steps) : x.function ∈ functions steps :=
  List.mem_map_of_mem (mem_submissions.mpr (by simp [← h]))

/-! ### Rounds -/

theorem inRounds_append (b : Step τ) {first rest : List (List (Step τ))}
    (hfirst : first ≠ []) (hrest : rest ≠ []) :
    inRounds b (first ++ rest) = inRounds b first ++ b :: inRounds b rest := by
  induction first with
  | nil => exact absurd rfl hfirst
  | cons r first ih =>
    cases first with
    | nil =>
      cases rest with
      | nil => exact absurd rfl hrest
      | cons r' rest => simp [inRounds, List.intercalate]
    | cons r' first =>
      have htail := ih (by simp)
      simp only [inRounds, List.intercalate, List.cons_append, List.intersperse_cons_cons,
        List.flatten_cons] at htail ⊢
      rw [htail]
      simp

theorem mem_inRounds {b step : Step τ} {rounds : List (List (Step τ))} (hstep : step ≠ b) :
    step ∈ inRounds b rounds ↔ step ∈ rounds.flatten := by
  induction rounds with
  | nil => rfl
  | cons r rounds ih =>
    cases rounds with
    | nil => simp [inRounds, List.intercalate]
    | cons r' rounds =>
      rw [← List.singleton_append, inRounds_append b (by simp) (by simp), List.flatten_append]
      simp only [List.mem_append, List.mem_cons, hstep, false_or, ih]
      simp [inRounds, List.intercalate]

/-- The steps of rounds in which everything listed is submitted. -/
def submitted {α : Type} (make : α → Submit) (rounds : List (List α)) : List (List (Step τ)) :=
  rounds.map fun round => round.map fun a => .submit (make a)

theorem inRounds_submitted {α : Type} (role : Value) (make : α → Submit)
    {first rest : List (List α)} (hfirst : first ≠ []) (hrest : rest ≠ []) :
    (inRounds (wait role) (submitted make (first ++ rest)) : List (Step τ)) =
      inRounds (wait role) (submitted make first) ++
        wait role :: inRounds (wait role) (submitted make rest) := by
  rw [submitted, List.map_append]
  exact inRounds_append _ (by simpa using hfirst) (by simpa using hrest)

theorem mem_submitted {α : Type} {make : α → Submit} (hmake : make.Injective) {a : α}
    {rounds : List (List α)} {role : Value} :
    (.submit (make a) : Step τ) ∈ inRounds (wait role) (submitted make rounds) ↔
      a ∈ rounds.flatten := by
  have hflat : (submitted make rounds : List (List (Step τ))).flatten =
      rounds.flatten.map fun a => .submit (make a) := by
    simp [submitted, List.map_flatten]
  rw [mem_inRounds (by simp [wait]), hflat, List.mem_map]
  refine ⟨?_, fun ha => ⟨a, ha, rfl⟩⟩
  rintro ⟨a', ha', hsame⟩
  rw [← hmake (Step.submit.inj hsame)]
  exact ha'

/-! ### What is gated -/

variable {script : Script ν τ} {pallets : Pallets} {collection : Value}

theorem kindValue_race_injective : (kindValue : Race → Value).Injective := by
  intro a b h
  cases a <;> cases b <;> first | rfl | exact absurd (Value.text.inj h) (by decide)

theorem kindValue_career_injective : (kindValue : Career → Value).Injective := by
  intro a b h
  cases a <;> cases b <;> first | rfl | exact absurd (Value.text.inj h) (by decide)

/-- The preorder of an entry of the rounds. -/
def preorderOf (pallets : Pallets) (p : String × Race × Career) : Submit :=
  preorder pallets p.1 p.2.1 p.2.2

/-- The feed of an entry of the rounds. -/
def feedOf (pallets : Pallets) (collection : Value) (p : String × Int) : Submit :=
  feed pallets p.1 collection (.int p.2)

theorem preorderOf_injective : (preorderOf pallets).Injective := by
  rintro ⟨role, race, career⟩ ⟨role', race', career'⟩ h
  obtain rfl : role = role' := Value.text.inj (congrArg Submit.account h)
  have hparams := Params.given.inj (congrArg Submit.params h)
  simp only [Value.object, List.map_cons, List.map_nil, Value.dict.injEq, List.cons.injEq,
    Prod.mk.injEq] at hparams
  obtain ⟨⟨-, hrace⟩, ⟨-, hcareer⟩, -⟩ := hparams
  rw [kindValue_race_injective hrace, kindValue_career_injective hcareer]

theorem feedOf_injective : (feedOf pallets collection).Injective := by
  rintro ⟨role, nft⟩ ⟨role', nft'⟩ h
  obtain rfl : role = role' := Value.text.inj (congrArg Submit.account h)
  have hparams := Params.given.inj (congrArg Submit.params h)
  simp only [Value.object, List.map_cons, List.map_nil, Value.dict.injEq, List.cons.injEq,
    Prod.mk.injEq, Value.int.injEq] at hparams
  obtain ⟨-, ⟨-, hnft⟩, -⟩ := hparams
  rw [hnft]

/-- The submission that opens incubation. -/
def openIncubation (pallets : Pallets) : Submit where
  account := "overlord"
  pallet := pallets.incubation
  function := "set_can_start_incubation_status"
  params := .given (.object [("status", .bool true)])

/-- **What is confirmed before a submission is attempted**: what opens its call, and in a later
round the submission, in the round before, of the account that the barrier in between waits for. -/
structure Gated (script : Script ν τ) (pallets : Pallets) (collection : Value) (x : Submit)
    (h : History τ) : Prop where
  rare : x.function = "buy_rare_origin_of_shell" →
    script.Confirmed (setStatus pallets .purchaseRare (.bool true)) h
  prime : x.function = "buy_prime_origin_of_shell" →
    script.Confirmed (setStatus pallets .purchasePrime (.bool true)) h
  preorder : x.function = "preorder_origin_of_shell" →
    script.Confirmed (setStatus pallets .preorder (.bool true)) h
  feed : x.function = "feed_origin_of_shell" → script.Confirmed (openIncubation pallets) h
  laterPreorder : ∀ round next, [round, next] <:+: preorderRounds →
    ∀ p ∈ next, x = preorderOf pallets p →
      ∃ q ∈ round, q.1 = "ferdie" ∧ script.Confirmed (preorderOf pallets q) h
  laterFeed : ∀ round next, [round, next] <:+: feedingRounds →
    ∀ p ∈ next, x = feedOf pallets collection p →
      ∃ q ∈ round, q.1 = "root" ∧ script.Confirmed (feedOf pallets collection q) h

theorem Gated.mono {x : Submit} {h g : History τ} (hgated : Gated script pallets collection x h)
    (hhg : h <:+ g) : Gated script pallets collection x g where
  rare hx := (hgated.rare hx).mono hhg
  prime hx := (hgated.prime hx).mono hhg
  preorder hx := (hgated.preorder hx).mono hhg
  feed hx := (hgated.feed hx).mono hhg
  laterPreorder round next hrounds p hp hx :=
    have ⟨q, hq, hrole, hconfirmed⟩ := hgated.laterPreorder round next hrounds p hp hx
    ⟨q, hq, hrole, hconfirmed.mono hhg⟩
  laterFeed round next hrounds p hp hx :=
    have ⟨q, hq, hrole, hconfirmed⟩ := hgated.laterFeed round next hrounds p hp hx
    ⟨q, hq, hrole, hconfirmed.mono hhg⟩

theorem functions_claims (accounts : Roster) : functions (claims accounts pallets : Phase τ).steps =
    List.replicate 5 "claim_spirit" ++ ["redeem_spirit"] :=
  rfl

theorem functions_openStatus (status : SaleStatus) :
    functions (openStatus pallets status : List (Step τ)) = ["set_status_type"] :=
  rfl

theorem functions_raresBought : functions (raresBought pallets : Phase τ).steps =
    "set_status_type" :: List.replicate 4 "buy_rare_origin_of_shell" :=
  rfl

theorem functions_primesBought (accounts : Roster) :
    functions (primesBought accounts pallets : Phase τ).steps =
      "set_status_type" :: List.replicate 2 "buy_prime_origin_of_shell" :=
  rfl

theorem functions_population (accounts : Roster) :
    functions ((population accounts pallets : List (Phase τ)).flatMap Phase.steps) =
      functions (claims accounts pallets : Phase τ).steps ++
        functions (raresBought pallets : Phase τ).steps ++
        functions (primesBought accounts pallets : Phase τ).steps ++
        Value.text "set_status_type" :: List.replicate 14 (.text "preorder_origin_of_shell") :=
  rfl

theorem feed_not_population (accounts : Roster) : Value.text "feed_origin_of_shell" ∉
    functions ((population accounts pallets : List (Phase τ)).flatMap Phase.steps) := by
  rw [functions_population, functions_claims, functions_raresBought, functions_primesBought]
  simp

theorem functions_incubation :
    functions ((incubation pallets collection : List (Phase τ)).flatMap Phase.steps) =
      "set_can_start_incubation_status" :: List.replicate 12 "feed_origin_of_shell" ++
        ["update_incubation_time"] :=
  rfl

/-! ### What a position confirms -/

variable [Seconds τ] {s m : Session ν τ} {front rest before after : List (Step τ)}

/-- What stands behind the opening of something, and a wait for that, is not attempted before the
opening is confirmed. -/
theorem confirmed_of_opening (opening : Submit) {x : Submit} (front : List (Step τ))
    (hsteps : before ++ .submit x :: after =
      front ++ .submit opening :: wait opening.account :: rest)
    (hfront : x.function ∉ functions front) (hother : x.function ≠ opening.function)
    (h : Walk script before s (.ok ()) m) (htime : InTime m.world.journal) :
    script.Confirmed opening m.world.journal := by
  have hx : .submit x ∉ front ++ [.submit opening] := by
    rw [List.mem_append, List.mem_singleton]
    rintro (hx | hx)
    · exact not_mem_of_functions hfront hx
    · exact hother (congrArg Submit.function (Step.submit.inj hx))
  have hshape : front ++ .submit opening :: wait opening.account :: rest =
      (front ++ [.submit opening]) ++ .barrier { account := opening.account } :: rest := by
    simp [wait]
  exact confirmed_before (hsteps.trans hshape) (by simp) hx rfl h htime

/-- **What is submitted in a round is not attempted before the submissions of the barrier's account
in the round before are confirmed.** -/
theorem confirmed_of_rounds {α : Type} {make : α → Submit} (front : List (Step τ))
    (hmake : make.Injective) {rounds : List (List α)} (hdistinct : rounds.flatten.Nodup)
    {round next : List α} (hrounds : [round, next] <:+: rounds) {a b : α} (ha : a ∈ round)
    (hb : b ∈ next)
    {role : Value} (hrole : (make a).account = role) (hfront : (make b).function ∉ functions front)
    (hsteps : before ++ .submit (make b) :: after =
      front ++ (inRounds (wait role) (submitted make rounds) ++ rest))
    (h : Walk script before s (.ok ()) m) (htime : InTime m.world.journal) :
    script.Confirmed (make a) m.world.journal := by
  obtain ⟨first, last, rfl⟩ := hrounds
  have hsplit : first ++ [round, next] ++ last = (first ++ [round]) ++ (next :: last) := by simp
  rw [hsplit, List.flatten_append] at hdistinct
  have hnew : b ∉ (first ++ [round]).flatten := fun hold =>
    (List.nodup_append.mp hdistinct).2.2 b hold b (by simp [hb]) rfl
  rw [hsplit, inRounds_submitted _ _ (by simp) (by simp), List.append_assoc,
    ← List.append_assoc front] at hsteps
  refine confirmed_before hsteps ?_ ?_ hrole.symm h htime
  · exact List.mem_append_right _ ((mem_submitted hmake).mpr (by simp [ha]))
  · exact List.not_mem_append (not_mem_of_functions hfront)
      fun hold => hnew ((mem_submitted hmake).mp hold)

/-! ### The two campaigns -/

/-- In the population, what is gated waits for what opens it. -/
theorem gated_population {accounts : Roster} {x : Submit}
    (hsteps : before ++ .submit x :: after = (population accounts pallets).flatMap Phase.steps)
    (h : Walk script before s (.ok ()) m) (htime : InTime m.world.journal) :
    Gated script pallets collection x m.world.journal where
  rare hx := by
    refine confirmed_of_opening _ (claims accounts pallets).steps hsteps ?_ ?_ h htime
    · simp [hx, functions_claims]
    · simp [hx, setStatus]
  prime hx := by
    refine confirmed_of_opening _ ((claims accounts pallets).steps ++ (raresBought pallets).steps)
      hsteps ?_ ?_ h htime
    · simp [hx, functions_append, functions_claims, functions_raresBought]
    · simp [hx, setStatus]
  preorder hx := by
    refine confirmed_of_opening _ ((claims accounts pallets).steps ++ (raresBought pallets).steps ++
      (primesBought accounts pallets).steps) hsteps ?_ ?_ h htime
    · simp [hx, functions_append, functions_claims, functions_raresBought, functions_primesBought]
    · simp [hx, setStatus]
  feed hx := absurd (hx ▸ function_mem hsteps) (feed_not_population accounts)
  laterPreorder round next hrounds p hp hx := by
    have hferdie : ∀ round ∈ preorderRounds, ∃ q ∈ round, q.1 = "ferdie" := by decide
    obtain ⟨q, hq, hrole⟩ := hferdie round (hrounds.subset (by simp))
    subst hx
    refine ⟨q, hq, hrole, confirmed_of_rounds ((claims accounts pallets).steps ++
      (raresBought pallets).steps ++ (primesBought accounts pallets).steps ++
      openStatus pallets .preorder) preorderOf_injective (by decide) hrounds hq hp
      (congrArg Value.text hrole) ?_ hsteps h htime⟩
    simp [functions_append, functions_claims, functions_raresBought, functions_primesBought,
      functions_openStatus, preorderOf, Plan.preorder]
  laterFeed round next hrounds p hp hx :=
    absurd (hx ▸ function_mem hsteps) (feed_not_population accounts)

/-- In the incubation, what is gated waits for what opens it. -/
theorem gated_incubation {x : Submit}
    (hsteps : before ++ .submit x :: after = (incubation pallets collection).flatMap Phase.steps)
    (h : Walk script before s (.ok ()) m) (htime : InTime m.world.journal) :
    Gated script pallets collection x m.world.journal where
  rare hx := absurd (hx ▸ function_mem hsteps) (by simp [functions_incubation])
  prime hx := absurd (hx ▸ function_mem hsteps) (by simp [functions_incubation])
  preorder hx := absurd (hx ▸ function_mem hsteps) (by simp [functions_incubation])
  feed hx := by
    refine confirmed_of_opening (openIncubation pallets) [] hsteps ?_ ?_ h htime
    · simp [functions, submissions]
    · simp [hx, openIncubation]
  laterPreorder round next hrounds p hp hx :=
    absurd (hx ▸ function_mem hsteps) (by simp [functions_incubation, preorderOf, Plan.preorder])
  laterFeed round next hrounds p hp hx := by
    have hroot : ∀ round ∈ feedingRounds, ∃ q ∈ round, q.1 = "root" := by decide
    obtain ⟨q, hq, hrole⟩ := hroot round (hrounds.subset (by simp))
    subst hx
    refine ⟨q, hq, hrole, confirmed_of_rounds [.submit (openIncubation pallets), wait "overlord"]
      feedOf_injective (by decide) hrounds hq hp (congrArg Value.text hrole) ?_ hsteps h htime⟩
    simp [functions, submissions, Step.submit?, openIncubation, wait, feedOf, Plan.feed]

/-- **Sales and feeds are attempted only when what they wait for is confirmed**, in the population
and in the incubation, with any node and however the run ends, as long as no barrier has warned that
its time has run out.  Each attempt is one of a submission of the plan. -/
theorem attempts_gated {phases : List (Phase τ)}
    (hphases : phases = population script.accounts pallets ∨ phases = incubation pallets collection)
    {n : ν} {c : Clock τ} {out : Except Fault Nat} {t : Session ν τ}
    (h : (Command.play script (.ok phases)).runOn (.fresh n c) = (out, t))
    {later earlier : History τ} {y : Event τ} {e : Extrinsic}
    (hsplit : t.world.journal = later ++ y :: earlier) (hy : y.attempt? = some e)
    (htime : InTime earlier) :
    ∃ x ∈ submissions (phases.flatMap Phase.steps), script.AttemptOf x y earlier ∧
      Gated script pallets collection x earlier := by
  obtain ⟨s, before, x, after, m, r, u, later', hsteps, hbefore, hsubmit, hafter, hsplit'⟩ :=
    play_attempted h hsplit hy
  have hgated : Gated script pallets collection x m.world.journal := by
    rcases hphases with rfl | rfl
    · exact gated_population hsteps.symm hbefore (htime.of_suffix hafter)
    · exact gated_incubation hsteps.symm hbefore (htime.of_suffix hafter)
  obtain ⟨k, -, hready, hat⟩ := submit_attempt hsubmit hsplit' hafter hy
  exact ⟨x, mem_submissions.mpr (by simp [hsteps]), ⟨e, k.world.journal, hready, hat⟩,
    hgated.mono hafter⟩

/-- Seven roles with four addresses, on a node that includes after a read. -/
def crowded : Script Sequential.State Value where
  node := Sequential.node { includeAfter := 1 }
  accounts :=
    let eve : Key := ⟨"5HGjWAeFDfFCWPsjFQdVV2Msvz2XtMktvgocEZcCj68kUMaw", true⟩
    ⟨[("root", ⟨"a", true⟩), ("overlord", ⟨"a", true⟩), ("user", ⟨"b", true⟩),
      ("charlie", ⟨"c", true⟩), ("david", ⟨"c", true⟩), ("eve", eve), ("ferdie", eve)]⟩
  barrierTimeout := .int 10
  pollInterval := .int 1

set_option maxRecDepth 100000 in
/-- A population that goes through: the last of its 29 extrinsics waited for what it needs. -/
theorem attempts_gated_crowded :
    let phases : List (Phase Value) := population crowded.accounts {}
    let t := ((Command.play crowded (.ok phases)).runOn
      (.fresh (.ofNonces .empty) { now := .int 0 })).2
    (taken t.world.journal).length = 29 ∧
      ∃ later y earlier e, t.world.journal = later ++ y :: earlier ∧ y.attempt? = some e ∧
        e.nonce = 9 ∧ ∃ x ∈ submissions (phases.flatMap Phase.steps),
          crowded.AttemptOf x y earlier ∧ Gated crowded {} .null x earlier := by
  intro phases t
  obtain ⟨htime, hlast, htaken⟩ : InTime t.world.journal ∧
      (t.world.journal.findSome? Event.attempt?).map Extrinsic.nonce = some 9 ∧
        (taken t.world.journal).length = 29 := by decide +kernel
  obtain ⟨e, he, hnonce⟩ := Option.map_eq_some_iff.mp hlast
  obtain ⟨later, y, earlier, hsplit, hy, -⟩ := List.findSome?_eq_some_iff.mp he
  have hearlier : earlier <:+ t.world.journal := ⟨later ++ [y], by simp [hsplit]⟩
  refine ⟨htaken, later, y, earlier, e, hsplit, hy, hnonce, ?_⟩
  exact attempts_gated (.inl rfl) rfl hsplit hy (htime.of_suffix hearlier)

end Plan

end Campaign
