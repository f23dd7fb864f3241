import Campaign.Proofs.Authorisation
import Campaign.Proofs.Faults
import Campaign.Proofs.Keys

/-!
# Plans keep to the roles that are loaded

A step mentions roles: the account of a submission, the account of a barrier, and those that a
signature is worked out from when the call is submitted.  `Step.Served` says that a roster has a key
for each of them; then the roster is never asked in vain, whatever is tracked by then.

This is a condition on steps alone.  It holds of every plan once the roles are loaded that its
command loads: `served_preparation`, `served_population`, `served_incubation`, `served_drawing`, and
for single transactions `served_of_step`.
-/

namespace Campaign

open Act

variable {τ : Type} {accounts : Roster} {role : Value}

/-! ### Rosters -/

/-- A roster has a key for a role. -/
def Roster.Knows (accounts : Roster) (role : Value) : Prop :=
  ∃ key, accounts.key? role = .ok (some key)

theorem Roster.knows_text {r : String} :
    accounts.Knows (.text r) ↔ ∃ key, accounts.get? r = some key := by
  have hkey : accounts.key? (.text r) = .ok (accounts.get? r) := rfl
  simp [Knows, hkey]

/-- Only names are known. -/
theorem Roster.Knows.name (h : accounts.Knows role) :
    ∃ r key, role = .text r ∧ accounts.get? r = some key := by
  obtain ⟨key, h⟩ := h
  obtain ⟨_, -, h⟩ := outcome_bind_ok.mp h
  cases role with
  | text r => exact ⟨r, key, rfl, Except.ok.inj h⟩
  | _ => cases Except.ok.inj h

/-- A roster has a key for each role that has a key variable. -/
def Roster.KnowsAll (accounts : Roster) : Prop := ∀ r ∈ roles, accounts.Knows (.text r)

/-- **All roles that were loaded are known.** -/
theorem Command.knows_of_loadAccounts {ring : Keyring} {settings : Settings τ}
    {needed : List Value} (h : loadAccounts ring settings needed = .ok accounts) :
    ∀ role ∈ needed, accounts.Knows role := by
  intro role hrole
  obtain ⟨r, -, rfl, -⟩ := load_of_loadAccounts h role hrole
  exact Roster.knows_text.mpr (key_of_loadAccounts h hrole)

/-! ### Steps -/

/-- Parameters can be worked out whatever is tracked, unless an address is not well formed. -/
def Params.Resolves (p : Params) : Prop :=
  ∀ nonces, FailsAs (fun f => ∃ e, f = .address e) (p.resolve nonces)

@[simp] theorem Params.resolves_absent : Params.absent.Resolves := fun _ => failsAs_ok _

@[simp] theorem Params.resolves_given (v : Value) : (Params.given v).Resolves :=
  fun _ => failsAs_ok _

/-- **A step is served by a roster** that knows all roles it mentions. -/
def Step.Served (accounts : Roster) : Step τ → Prop
  | .submit x => accounts.Knows x.account ∧ x.params.Resolves
  | .barrier b => accounts.Knows b.account
  | .pause _ => True
  | .other _ => False

/-- All steps of some phases are served. -/
def Plan.Served (accounts : Roster) (phases : List (Phase τ)) : Prop :=
  ∀ step ∈ phases.flatMap Phase.steps, step.Served accounts

namespace Plan

variable {pallets : Pallets}

theorem served_cons {phase : Phase τ} {phases : List (Phase τ)}
    (hphase : ∀ step ∈ phase.steps, step.Served accounts) (hphases : Served accounts phases) :
    Served accounts (phase :: phases) := by
  rw [Served, List.flatMap_cons]
  exact List.forall_mem_append.mpr ⟨hphase, hphases⟩

theorem served_nil : Served accounts ([] : List (Phase τ)) := by
  simp [Served]

theorem served_wait (h : accounts.Knows role) : (wait role : Step τ).Served accounts := h

theorem served_call {pallet function : Value} {fields : List (String × Value)}
    (h : accounts.Knows role) : (call role pallet function fields : Step τ).Served accounts :=
  ⟨h, Params.resolves_given _⟩

/-- Rounds are served whose steps are, with the barrier in between. -/
theorem served_inRounds {barrier : Step τ} {rounds : List (List (Step τ))}
    (hbarrier : barrier.Served accounts)
    (hrounds : ∀ round ∈ rounds, ∀ step ∈ round, step.Served accounts) :
    ∀ step ∈ inRounds barrier rounds, step.Served accounts := by
  intro step hstep
  by_cases hsame : step = barrier
  · exact hsame ▸ hbarrier
  · obtain ⟨round, hround, hstep⟩ := List.mem_flatten.mp ((mem_inRounds hsame).mp hstep)
    exact hrounds round hround step hstep

/-- Rounds of submissions are served if each of what they are made from is. -/
theorem served_submitted {α : Type} (make : α → Submit) {barrier : Step τ}
    {rounds : List (List α)} (hbarrier : barrier.Served accounts)
    (hmake : ∀ a ∈ rounds.flatten, (.submit (make a) : Step τ).Served accounts) :
    ∀ step ∈ inRounds barrier (submitted make rounds), step.Served accounts := by
  refine served_inRounds hbarrier fun round hround step hstep => ?_
  obtain ⟨members, hmembers, rfl⟩ := List.mem_map.mp hround
  obtain ⟨a, ha, rfl⟩ := List.mem_map.mp hstep
  exact hmake a (List.mem_flatten.mpr ⟨members, hmembers, ha⟩)

/-- **A signature is worked out** from the overlord's key and that of the role, and fails only if
the role's address is not well formed. -/
theorem failsAs_overlordSignature (hoverlord : accounts.Knows "overlord")
    (hrole : accounts.Knows role) (p : Purpose) :
    FailsAs (fun f => ∃ e, f = .address e) (overlordSignature accounts role p) := by
  obtain ⟨overlord, hoverlord⟩ := hoverlord
  obtain ⟨key, hkey⟩ := hrole
  have hmapped : ∀ {α : Type} (r : Except Address.Error α),
      FailsAs (fun f => ∃ e, f = .address e) (r.mapError Fault.address) := by
    rintro α (e | a)
    · exact failsAs_error ⟨e, rfl⟩
    · exact failsAs_ok a
  rw [overlordSignature, keyOf_ok.mpr hoverlord, keyOf_ok.mpr hkey]
  change FailsAs _ (Signature.signOverlordMessage overlord key.address _)
  refine failsAs_bind (failsAs_bind (hmapped _) fun content => ?_) fun _ => failsAs_pure _
  rw [Signature.ofValue_value]
  refine failsAs_bind (failsAs_ok p) fun _ => ?_
  exact failsAs_bind (hmapped _) fun _ => failsAs_pure _

theorem served_redeemSpirit (hoverlord : accounts.Knows "overlord") (hrole : accounts.Knows role) :
    (.submit (redeemSpirit pallets accounts role) : Step τ).Served accounts :=
  ⟨hrole, fun _ => failsAs_bind (failsAs_overlordSignature hoverlord hrole _)
    fun _ => failsAs_pure _⟩

theorem served_buyPrime (hoverlord : accounts.Knows "overlord") (hrole : accounts.Knows role)
    (race : Race) (career : Career) :
    (.submit (buyPrime pallets accounts role race career) : Step τ).Served accounts :=
  ⟨hrole, fun _ => failsAs_bind (failsAs_overlordSignature hoverlord hrole _)
    fun _ => failsAs_pure _⟩

/-! ### Plans -/

theorem served_preparation {p : Preparation} {phases : List (Phase τ)}
    (hroot : accounts.Knows "root") (hoverlord : accounts.Knows "overlord")
    (h : preparation accounts pallets p = .ok phases) : Served accounts phases := by
  obtain ⟨_, -, h⟩ := outcome_bind_ok.mp h
  obtain ⟨_, -, h⟩ := outcome_bind_ok.mp h
  obtain rfl := Except.ok.inj h
  refine served_cons ?_ (served_cons ?_ (served_cons ?_ served_nil))
  · simp [appointment, call, wait, Step.Served, hroot]
  · simp [opening, bare, setStatus, Step.Served, hoverlord]
  · simp [collections, createCollection, call, bare, wait, Step.Served, hoverlord]

theorem served_openStatus (hoverlord : accounts.Knows "overlord") (status : SaleStatus) :
    ∀ step ∈ (openStatus pallets status : List (Step τ)), step.Served accounts := by
  simp [openStatus, setStatus, wait, Step.Served, hoverlord]

section

variable (hall : accounts.KnowsAll)

include hall

theorem served_claims : ∀ step ∈ (claims accounts pallets : Phase τ).steps,
    step.Served accounts := by
  have hclaimers : ∀ r ∈ ["root", "user", "charlie", "david", "eve"],
      (.submit (claimSpirit pallets r) : Step τ).Served accounts :=
    fun r hr => ⟨hall r (by revert r; decide), Params.resolves_absent⟩
  refine List.forall_mem_append.mpr ⟨List.forall_mem_map.mpr hclaimers, ?_⟩
  refine List.forall_mem_cons.mpr ⟨?_, List.forall_mem_singleton.mpr ?_⟩
  · exact served_redeemSpirit (hall _ (by decide)) (hall _ (by decide))
  · exact served_wait (hall _ (by decide))

theorem served_raresBought : ∀ step ∈ (raresBought pallets : Phase τ).steps,
    step.Served accounts := by
  have hbuyers : ∀ p ∈ rarePurchases, p.1 ∈ roles := by decide
  refine List.forall_mem_append.mpr ⟨List.forall_mem_append.mpr ⟨?_, ?_⟩, ?_⟩
  · exact served_openStatus (hall _ (by decide)) _
  · exact List.forall_mem_map.mpr fun p hp => ⟨hall _ (hbuyers p hp), Params.resolves_given _⟩
  · exact List.forall_mem_singleton.mpr (served_wait (hall _ (by decide)))

theorem served_primesBought : ∀ step ∈ (primesBought accounts pallets : Phase τ).steps,
    step.Served accounts := by
  have hbuyers : ∀ p ∈ primePurchases, p.1 ∈ roles := by decide
  refine List.forall_mem_append.mpr ⟨served_openStatus (hall _ (by decide)) _, ?_⟩
  exact List.forall_mem_map.mpr fun p hp =>
    served_buyPrime (hall _ (by decide)) (hall _ (hbuyers p hp)) _ _

theorem served_preordersSent : ∀ step ∈ (preordersSent pallets : Phase τ).steps,
    step.Served accounts := by
  have hsenders : ∀ p ∈ preorderRounds.flatten, p.1 ∈ roles := by decide
  refine List.forall_mem_append.mpr ⟨served_openStatus (hall _ (by decide)) _, ?_⟩
  refine served_submitted (preorderOf pallets) (served_wait (hall _ (by decide))) ?_
  exact fun p hp => ⟨hall _ (hsenders p hp), Params.resolves_given _⟩

theorem served_population :
    Served accounts (population accounts pallets : List (Phase τ)) :=
  served_cons (served_claims hall) <| served_cons (served_raresBought hall) <|
    served_cons (served_primesBought hall) <| served_cons (served_preordersSent hall) served_nil

theorem served_incubation (collection : Value) :
    Served accounts (incubation pallets collection : List (Phase τ)) := by
  have hfeeders : ∀ p ∈ feedingRounds.flatten, p.1 ∈ roles := by decide
  have hoverlord : accounts.Knows "overlord" := hall _ (by decide)
  refine served_cons ?_ (served_cons ?_ (served_cons ?_ served_nil))
  · simp [call, wait, Step.Served, hoverlord]
  · refine served_submitted (feedOf pallets collection) (served_wait (hall _ (by decide))) ?_
    exact fun p hp => ⟨hall _ (hfeeders p hp), Params.resolves_given _⟩
  · simp [updateIncubationTime, Step.Served, hoverlord]

end

theorem served_resolve (hoverlord : accounts.Knows "overlord") (function : String)
    (ids : List Value) :
    ∀ step ∈ (resolve pallets function ids : List (Step τ)), step.Served accounts := by
  unfold resolve
  split
  · simp
  · exact List.forall_mem_singleton.mpr (served_call hoverlord)

theorem served_drawing {chosen notChosen : Value} {phases : List (Phase τ)}
    (hoverlord : accounts.Knows "overlord") (h : drawing chosen notChosen pallets = .ok phases) :
    Served accounts phases := by
  obtain ⟨cs, -, h⟩ := outcome_bind_ok.mp h
  obtain ⟨_, -, h⟩ := outcome_bind_ok.mp h
  obtain ⟨ns, -, h⟩ := outcome_bind_ok.mp h
  obtain ⟨_, -, h⟩ := outcome_bind_ok.mp h
  dsimp only at h
  split at h
  · obtain rfl := Except.ok.inj h
    refine served_cons ?_ served_nil
    dsimp only
    split
    · simp
    · refine List.forall_mem_append.mpr ⟨List.forall_mem_append.mpr ⟨?_, ?_⟩, ?_⟩
      · exact served_resolve hoverlord _ _
      · exact served_resolve hoverlord _ _
      · exact List.forall_mem_singleton.mpr (served_wait hoverlord)
  · obtain ⟨_, -, h⟩ := outcome_bind_ok.mp h
    cases h

theorem served_single {x : Submit} (h : (.submit x : Step τ).Served accounts) (name : Value) :
    Served accounts (single name x : List (Phase τ)) := by
  refine served_cons ?_ served_nil
  exact List.forall_mem_cons.mpr ⟨h, List.forall_mem_singleton.mpr h.1⟩

/-! ### Transactions -/

/-- The transactions that mention the overlord: they take its signature, or are its own. -/
def Transaction.MentionsOverlord : Transaction → Prop
  | .redeemSpirit | .buyPrime _ _ => True
  | .setStatus _ _ | .setPreorderStatus _ _ | .hatch _ _ _ _ | .setShellCollection _ => True
  | _ => False

/-- **The step of a transaction is served** if the role is known, and the overlord where it is
mentioned. -/
theorem served_of_step {transaction : Transaction} {x : Submit} (hrole : accounts.Knows role)
    (hoverlord : transaction.MentionsOverlord → accounts.Knows "overlord")
    (h : transaction.step pallets accounts role = .ok x) :
    (.submit x : Step τ).Served accounts := by
  cases transaction with
  | claimSpirit | claimChosen | claimRefund =>
    obtain rfl := Except.ok.inj h
    exact ⟨hrole, Params.resolves_absent⟩
  | feed =>
    obtain rfl := Except.ok.inj h
    exact ⟨hrole, Params.resolves_given _⟩
  | redeemSpirit =>
    obtain rfl := Except.ok.inj h
    exact served_redeemSpirit (hoverlord trivial) hrole
  | buyPrime race career =>
    obtain ⟨race, -, h⟩ := outcome_bind_ok.mp h
    obtain ⟨career, -, h⟩ := outcome_bind_ok.mp h
    obtain rfl := Except.ok.inj h
    exact served_buyPrime (hoverlord trivial) hrole race career
  | buyRare type race career =>
    obtain ⟨type, -, h⟩ := outcome_bind_ok.mp h
    obtain ⟨race, -, h⟩ := outcome_bind_ok.mp h
    obtain ⟨career, -, h⟩ := outcome_bind_ok.mp h
    obtain rfl := Except.ok.inj h
    exact ⟨hrole, Params.resolves_given _⟩
  | preorder race career =>
    obtain ⟨race, -, h⟩ := outcome_bind_ok.mp h
    obtain ⟨career, -, h⟩ := outcome_bind_ok.mp h
    obtain rfl := Except.ok.inj h
    exact ⟨hrole, Params.resolves_given _⟩
  | setStatus status enabled =>
    obtain ⟨status, -, h⟩ := outcome_bind_ok.mp h
    obtain rfl := Except.ok.inj h
    exact ⟨hoverlord trivial, Params.resolves_given _⟩
  | setPreorderStatus id status =>
    obtain ⟨status, -, h⟩ := outcome_bind_ok.mp h
    cases status with
    | pending => cases h
    | _ =>
      obtain rfl := Except.ok.inj h
      exact ⟨hoverlord trivial, Params.resolves_given _⟩
  | hatch | setShellCollection =>
    obtain rfl := Except.ok.inj h
    exact ⟨hoverlord trivial, Params.resolves_given _⟩

end Plan

end Campaign
