import Campaign.Node.Sequential
import Campaign.Proofs.Moves

/-!
# What the node has recorded

A history knows the extrinsics that were handed in (`handed`) and those that the node said it has
taken (`taken`).  Whether the node has these on its own record is up to the node: `Node.Records`
says so of a ledger that its state holds, and `Records.moves` that such a ledger and the history
then agree, whatever happens.  The node that takes nonces in sequence keeps such a ledger
(`records_node`).
-/

namespace Campaign

open Act

variable {ν τ α : Type}

/-- The extrinsic that an event hands in, taken or not. -/
def Event.handed? : Event τ → Option Extrinsic
  | .submitted e _ => some e
  | _ => none

theorem Event.handed?_of_attempt? {x : Event τ} (h : x.attempt? = none) : x.handed? = none := by
  cases x <;> first | rfl | cases h

namespace History

/-- What some events of a history have to tell, in order. -/
def gathered (tell : Event τ → Option α) : History τ → List α
  | [] => []
  | x :: earlier => gathered tell earlier ++ (tell x).toList

/-- The extrinsics that were taken, in order. -/
abbrev taken (h : History τ) : List Extrinsic := gathered Event.accepted? h

/-- The extrinsics that were handed in, in order, whether they were taken or not. -/
abbrev handed (h : History τ) : List Extrinsic := gathered Event.handed? h

variable {tell : Event τ → Option α}

theorem gathered_append (new h : History τ) :
    gathered tell (new ++ h) = gathered tell h ++ gathered tell new := by
  induction new with
  | nil => simp [gathered]
  | cons x new ih => rw [List.cons_append, gathered, ih, gathered, List.append_assoc]

theorem taken_append (new h : History τ) : taken (new ++ h) = taken h ++ taken new :=
  gathered_append new h

theorem handed_append (new h : History τ) : handed (new ++ h) = handed h ++ handed new :=
  gathered_append new h

theorem gathered_of_none {h : History τ} (hnone : ∀ x ∈ h, tell x = none) :
    gathered tell h = [] := by
  induction h with
  | nil => rfl
  | cons x h ih =>
    rw [gathered, hnone x (by simp), ih fun y hy => hnone y (by simp [hy])]
    rfl

end History

/-- The states before and after have the same ledger. -/
def SameLedger (ledger : ν → List Extrinsic) (m n : ν) : Prop := ledger n = ledger m

instance (ledger : ν → List Extrinsic) : IsPreorder ν (SameLedger ledger) where
  refl _ := rfl
  trans _ _ _ h g := g.trans h

/-- **A ledger of a node**: it gains each extrinsic that the node says it has taken, and nothing
else changes it. -/
structure Node.Records (node : Node ν τ) (ledger : ν → List Extrinsic) : Prop where
  query : ∀ now pallet storage params,
    Keeps (SameLedger ledger) (node.query now pallet storage params)
  queryMap : ∀ now pallet storage params,
    Keeps (SameLedger ledger) (node.queryMap now pallet storage params)
  compose : ∀ pallet function params,
    Keeps (SameLedger ledger) (node.compose pallet function params)
  sign : ∀ e, Keeps (SameLedger ledger) (node.sign e)
  refuse : ∀ e m f n, (node.submit e).runOn m = (.error f, n) → ledger n = ledger m
  accept : ∀ e m hash n, (node.submit e).runOn m = (.ok hash, n) → ledger n = ledger m ++ [e]

namespace Node.Records

open History

variable {node : Node ν τ} {ledger : ν → List Extrinsic}

/-- A history that has grown, with the ledger that has grown by what was taken meanwhile. -/
def Agrees (ledger : ν → List Extrinsic) (s t : Session ν τ) : Prop :=
  ∃ new, t.world.journal = new ++ s.world.journal ∧
    ledger t.world.node = ledger s.world.node ++ taken new

theorem move (hrec : node.Records ledger) {s t : Session ν τ} (h : Session.Move node s t) :
    Agrees ledger s t := by
  cases h with
  | note n => exact ⟨[.noticed n], rfl, (List.append_nil _).symm⟩
  | pass c => exact ⟨[], rfl, (List.append_nil _).symm⟩
  | @look a answer n hq =>
    refine ⟨[.look a answer], rfl, ?_⟩
    exact ((hrec.query _ _ _ _).of_runOn hq).trans (List.append_nil _).symm
  | @compose pallet function params answer n hc =>
    refine ⟨[.composed pallet function params answer], rfl, ?_⟩
    exact ((hrec.compose _ _ _).of_runOn hc).trans (List.append_nil _).symm
  | @sign e answer n _ hs =>
    exact ⟨[.signed e answer], rfl, ((hrec.sign e).of_runOn hs).trans (List.append_nil _).symm⟩
  | @refuse e f n _ hs =>
    exact ⟨[.submitted e (.error f)], rfl, (hrec.refuse _ _ _ _ hs).trans (List.append_nil _).symm⟩
  | @accept e hash n role call _ hs =>
    exact ⟨[.noticed (.submitted hash e.nonce), .submitted e (.ok hash)], rfl,
      hrec.accept _ _ _ _ hs⟩
  | @track a answer n v _ hq =>
    refine ⟨[.noticed (.nonceRead (.text a) v), .look a answer], rfl, ?_⟩
    exact ((hrec.query _ _ _ _).of_runOn hq).trans (List.append_nil _).symm

/-- **Ledger and history agree** after any number of moves. -/
theorem moves (hrec : node.Records ledger) {s t : Session ν τ} (h : Session.Moves node s t) :
    Agrees ledger s t := by
  induction h with
  | refl => exact ⟨[], rfl, (List.append_nil _).symm⟩
  | tail _ hmove ih =>
    obtain ⟨new, hnew, hledger⟩ := ih
    obtain ⟨more, hmore, hledger'⟩ := hrec.move hmove
    refine ⟨more ++ new, by rw [hmore, hnew, List.append_assoc], ?_⟩
    rw [hledger', hledger, taken_append, List.append_assoc]

end Node.Records

namespace Sequential

theorem accepted_bump (a : String) (s : State) : (bump a s).accepted = s.accepted := rfl

theorem accepted_beginAttempt (setup : Setup τ) (s : State) :
    (beginAttempt setup s).accepted = s.accepted := by
  have hfold : ∀ (uses : List (Int × String)) (s : State),
      (uses.foldl (fun s b => bump b.2 s) s).accepted = s.accepted := by
    intro uses
    induction uses with
    | nil => exact fun _ => rfl
    | cons b rest ih => exact fun s => (ih _).trans (accepted_bump b.2 s)
  exact hfold _ _

/-- An attempt is taken and recorded, or it leaves the record as it is. -/
theorem submit_records (setup : Setup τ) {e : Extrinsic} {s t : State}
    {answer : Except Fault (Option String)} (h : (submit setup e).runOn s = (answer, t)) :
    (∃ f, answer = .error f ∧ t.accepted = s.accepted) ∨
      ∃ hash, answer = .ok hash ∧ t.accepted = s.accepted ++ [e] := by
  have hbegin := accepted_beginAttempt setup s
  rw [submit, runOn_bind_ok (runOn_get s), runOn_bind_ok (runOn_modify _ s)] at h
  split at h
  · obtain ⟨rfl, rfl⟩ := Prod.mk.inj h
    exact Or.inl ⟨_, rfl, hbegin⟩
  · rw [runOn_bind_ok (runOn_get _)] at h
    dsimp only at h
    split at h
    · obtain ⟨rfl, rfl⟩ := Prod.mk.inj h
      exact Or.inl ⟨_, rfl, hbegin⟩
    · refine Or.inr ?_
      obtain ⟨rfl, rfl⟩ := Prod.mk.inj h
      refine ⟨_, rfl, ?_⟩
      rw [← hbegin]
      dsimp only
      split <;> rfl

/-- **A node that takes nonces in sequence records what it takes.** -/
theorem records_node [Seconds τ] (setup : Setup τ) :
    (node (τ := τ) setup).Records State.accepted where
  query now pallet storage params := by
    refine keeps_of fun s t out h => ?_
    change (query _ now pallet storage params).runOn s = (out, t) at h
    unfold query at h
    split at h
    · refine Keeps.of_runOn ?_ h
      refine keeps_bind (keeps_ofExcept _) fun a => ?_
      refine keeps_bind (fun s => rfl) fun _ => ?_
      refine keeps_bind keeps_get fun _ => ?_
      exact keeps_bind (keeps_ofExcept _) fun _ => keeps_pure _
    · exact (keeps_pure _).of_runOn h
  queryMap _ _ _ _ := fun _ => rfl
  compose _ _ _ := fun _ => rfl
  sign _ := fun _ => rfl
  refuse e m f n h := by
    rcases submit_records _ h with ⟨_, -, hsame⟩ | ⟨_, hok, -⟩
    · exact hsame
    · cases hok
  accept e m hash n h := by
    rcases submit_records _ h with ⟨_, hf, -⟩ | ⟨_, -, hmore⟩
    · cases hf
    · exact hmore

end Sequential

end Campaign
