import Campaign.Proofs.Ledger
import Campaign.Proofs.Submission

/-!
# A failed submission can be tried again

A submission that fails, wherever it does, leaves what counts as it was: the record of the session,
the ledger of the node and the tracked nonces.  One thing may be new: an account that was not
tracked is tracked now, from the nonce that was just read (`ReadFirst`).  So whatever is submitted
next from the account goes out with the nonce that the failed submission had (`Resumes`).
-/

namespace Campaign

open Act History

variable {ν τ : Type}

namespace Session

/-- An account that was not tracked is tracked from the answer to a read, and nothing else has
changed in the tracker. -/
def ReadFirst (node : Node ν τ) (a : String) (s t : Session ν τ) : Prop :=
  s.nonces.get? (.text a) = none ∧ ∃ answer n v,
    (node.query s.world.clock.now "System" "Account" (.list [.text a])).runOn s.world.node =
      (answer, n) ∧ answer.bind Client.nonceOf = .ok v ∧ t.nonces = s.nonces.put (.text a) v ∧
        .look a answer :: s.world.journal <:+ t.world.journal

/-- The tracker is as it was, but for an account that is tracked from here on. -/
def SameTracker (node : Node ν τ) (a : String) (s t : Session ν τ) : Prop :=
  t.nonces = s.nonces ∨ ReadFirst node a s t

variable {node : Node ν τ} {a : String} {s t : Session ν τ}

/-- The tracker of a later session with the same nonces. -/
theorem SameTracker.later (h : SameTracker node a s t) {u : Session ν τ}
    (hnonces : u.nonces = t.nonces) (hjournal : t.world.journal <:+ u.world.journal) :
    SameTracker node a s u := by
  rcases h with hsame | ⟨hnew, answer, n, v, hq, hv, hput, hlook⟩
  · exact Or.inl (hnonces.trans hsame)
  · exact Or.inr ⟨hnew, answer, n, v, hq, hv, hnonces.trans hput, hlook.trans hjournal⟩

end Session

namespace Script

open Session

variable {script : Script ν τ} {x : Submit} {s t : Session ν τ}

theorem sameTracker_of_ensureTracked {a : String} {out : Except Fault Unit}
    (h : (script.ensureTracked a).runOn s = (out, t)) :
    t.sent = s.sent ∧ SameTracker script.node a s t := by
  rcases ensureTracked_cases h with ⟨-, -, rfl⟩ | ⟨hhas, r, hstart, -⟩
  · exact ⟨rfl, Or.inl rfl⟩
  · obtain ⟨answer, n, hq, ⟨v, hv, -, rfl⟩ | ⟨_, -, -, rfl⟩⟩ := startTracking_cases hstart
    · have hnew : s.nonces.get? (.text a) = none := by simpa [Table.has] using hhas
      exact ⟨rfl, Or.inr ⟨hnew, answer, n, v, hq, hv, rfl, List.suffix_cons _ _⟩⟩
    · exact ⟨rfl, Or.inl rfl⟩

theorem sameTracker_of_prepare {e : Extrinsic} (h : (script.prepare x).runOn s = (.ok e, t)) :
    t.sent = s.sent ∧ SameTracker script.node e.address s t := by
  obtain ⟨-, -, m, params, w, htrack, hcompose, -, rfl⟩ := prepare_ok h
  obtain ⟨hsent, hsame⟩ := sameTracker_of_ensureTracked htrack
  have hgrow : World.Adds (fun _ => True) m.world w :=
    (adds_composeCall x params fun _ _ _ _ => trivial).of_runOn hcompose
  exact ⟨hsent, hsame.later rfl (hgrow.suffix.trans (List.suffix_cons _ _))⟩

/-! ### What a failure leaves -/

/-- A submission that fails changes neither the record nor, but for its own account, the tracker. -/
theorem Failure.sameTracker {f : Fault} (h : Failure script x s t f) :
    t.sent = s.sent ∧ (t.nonces = s.nonces ∨
      ∃ a, script.address x.account = .ok a ∧ ReadFirst script.node a s t) := by
  have hwhole : ∀ {a : String}, script.address x.account = .ok a → SameTracker script.node a s t →
      t.nonces = s.nonces ∨ ∃ a, script.address x.account = .ok a ∧ ReadFirst script.node a s t :=
    fun haddr hsame => hsame.imp_right fun hread => ⟨_, haddr, hread⟩
  cases h with
  | role => exact ⟨rfl, Or.inl rfl⟩
  | read => exact ⟨rfl, Or.inl rfl⟩
  | params haddr htrack =>
    obtain ⟨hsent, hsame⟩ := sameTracker_of_ensureTracked htrack
    exact ⟨hsent, hwhole haddr hsame⟩
  | @composing a m params w f haddr htrack _ hf =>
    obtain ⟨hsent, hsame⟩ := sameTracker_of_ensureTracked htrack
    have hgrow : World.Adds (fun _ => True) m.world w :=
      (adds_composeCall x params fun _ _ _ _ => trivial).of_runOn hf
    exact ⟨hsent, hwhole haddr (hsame.later rfl hgrow.suffix)⟩
  | signing hready =>
    obtain ⟨hsent, hsame⟩ := sameTracker_of_prepare hready
    exact ⟨hsent, hwhole (prepare_ok hready).1 (hsame.later rfl (List.suffix_cons _ _))⟩
  | handingIn hready =>
    obtain ⟨hsent, hsame⟩ := sameTracker_of_prepare hready
    exact ⟨hsent, hwhole (prepare_ok hready).1 (hsame.later rfl
      ((List.suffix_cons _ _).trans (List.suffix_cons _ _)))⟩

/-- Nothing is taken in a submission that fails. -/
theorem untaken_of_submit_error {f : Fault} (h : (script.submit x).runOn s = (.error f, t)) :
    Session.Adds (fun y => y.accepted? = none) s t := by
  have hprepare : Keeps (Session.Adds fun y => y.accepted? = none) (script.prepare x) :=
    keeps_adds_mono (adds_prepare x) fun _ hy => Event.accepted?_of_attempt? hy.1
  rw [submit_eq] at h
  rcases bind_cases h with ⟨e, m, hprep, hsend⟩ | ⟨_, hprep, -⟩
  · refine trans_of (Session.Adds _) (hprepare.of_runOn hprep) ?_
    rcases send_cases (prepare_ok hprep).2.1 hsend with ⟨g, n, -, -, rfl⟩ |
      ⟨n, -, ⟨g, n', -, -, rfl⟩ | ⟨_, _, -, hok, -⟩⟩
    · exact adds_after m n rfl
    · have hsigned : Session.Adds (fun y => y.accepted? = none) m
          (m.after n (.signed e (.ok ()))) := adds_after m n rfl
      exact trans_of (Session.Adds _) hsigned (adds_after _ n' rfl)
    · cases hok
  · exact hprepare.of_runOn hprep

/-- An attempt in a submission carries the nonce that is still tracked if it fails. -/
theorem due_of_submit_error {f : Fault} (h : (script.submit x).runOn s = (.error f, t))
    {later earlier : History τ} {y : Event τ} {e : Extrinsic}
    (hsplit : t.world.journal = later ++ y :: earlier) (hafter : s.world.journal <:+ earlier)
    (hy : y.attempt? = some e) : t.nonces.get? (.text e.address) = some e.nonce := by
  obtain ⟨m, hprep, -⟩ := submit_attempt h hsplit hafter hy
  have hdue := (prepare_ok hprep).2.1
  rw [submit_eq, runOn_bind_ok hprep] at h
  rcases send_cases hdue h with ⟨_, _, -, -, rfl⟩ | ⟨_, -, ⟨_, _, -, -, rfl⟩ | ⟨_, _, -, hok, -⟩⟩
  · exact hdue
  · exact hdue
  · cases hok

/-- **What the node has answered is what is reported**: a refusal as the rejection of the extrinsic,
with its signer, its nonce and its call, and anything else as it is. -/
def Reports (script : Script ν τ) (x : Submit) (e : Extrinsic) (answer : Fault) (t : Session ν τ)
    (f : Fault) : Prop :=
  t.nonces.get? (.text e.address) = some e.nonce ∧
    (∃ ready, script.Readies x e ready ∧
      t.world.journal = .submitted e (.error answer) :: .signed e (.ok ()) :: ready) ∧
    (∀ reason, answer = .refused reason → f = .rejected e.address e.nonce e.call reason) ∧
    ((∀ reason, answer ≠ .refused reason) → f = answer)

theorem reports_of_submit_error {f : Fault} (h : (script.submit x).runOn s = (.error f, t))
    {e : Extrinsic} {answer : Fault} {later earlier : History τ}
    (hsplit : t.world.journal = later ++ .submitted e (.error answer) :: earlier)
    (hafter : s.world.journal <:+ earlier) : script.Reports x e answer t f := by
  refine ⟨due_of_submit_error h hsplit hafter rfl, ?_⟩
  obtain ⟨m, hprep, hready, ⟨_, hy, -⟩ | ⟨_, -, rfl⟩⟩ := submit_attempt h hsplit hafter rfl
  · cases hy
  · rw [submit_eq, runOn_bind_ok hprep] at h
    rcases send_cases (prepare_ok hprep).2.1 h with ⟨g, n, -, hf, rfl⟩ |
      ⟨n, -, ⟨g, n', -, hf, rfl⟩ | ⟨_, _, -, hok, -⟩⟩
    · -- nothing was handed in
      have hlength := congrArg List.length hsplit
      simp only [Session.after, World.after, List.length_append, List.length_cons] at hlength
      omega
    · obtain ⟨hlater, hsame⟩ : later = [] ∧ g = answer := by
        cases later with
        | nil =>
          obtain ⟨hevent, -⟩ := List.cons.inj hsplit
          cases hevent
          exact ⟨rfl, rfl⟩
        | cons z later =>
          have hlength := congrArg List.length hsplit
          simp only [Session.after, World.after, List.length_append, List.length_cons] at hlength
          omega
      subst hsame
      obtain rfl := Except.error.inj hf
      refine ⟨⟨m.world.journal, hready, rfl⟩, ?_, ?_⟩
      · rintro reason rfl
        rfl
      · intro hother
        cases g <;> first | rfl | exact absurd rfl (hother _)
    · cases hok

/-! ### Trying again -/

/-- **What is submitted next from an address goes out with a given nonce**, and if it goes well it
is taken with it, recorded with it, and the next nonce is due. -/
def Resumes (script : Script ν τ) (a : String) (n : Int) (t : Session ν τ) : Prop :=
  ∀ (x : Submit) out u, script.address x.account = .ok a → (script.submit x).runOn t = (out, u) →
    (∀ later y earlier e, u.world.journal = later ++ y :: earlier → t.world.journal <:+ earlier →
      y.attempt? = some e → e.address = a ∧ e.nonce = n) ∧
    ∀ hash, out = .ok hash → u.nonces.get? (.text a) = some (n + 1) ∧
      u.sent = t.sent ++ [⟨x.account, x.callName, n, hash⟩] ∧
      ∃ e earlier, e.address = a ∧ e.nonce = n ∧
        u.world.journal = .noticed (.submitted hash n) :: .submitted e (.ok hash) :: earlier

theorem resumes_of_tracked {a : String} {n : Int} (hn : t.nonces.get? (.text a) = some n) :
    script.Resumes a n t := by
  intro x out u haddr h
  -- the extrinsic that is made ready is from the address and carries its nonce
  have hready : ∀ {e m}, (script.prepare x).runOn t = (.ok e, m) → e.address = a ∧ e.nonce = n := by
    intro e m hprep
    have he : e.address = a := Except.ok.inj ((prepare_ok hprep).1.symm.trans haddr)
    exact ⟨he, nonce_of_prepare hprep (by rw [he, hn])⟩
  refine ⟨fun later y earlier e hsplit hafter hy => ?_, fun hash hout => ?_⟩
  · obtain ⟨m, hprep, -⟩ := submit_attempt h hsplit hafter hy
    exact hready hprep
  · rw [hout, submit_eq] at h
    obtain ⟨e, m, hprep, hsend⟩ := ok_of_bind h
    obtain ⟨rfl, rfl⟩ := hready hprep
    rcases send_cases (prepare_ok hprep).2.1 hsend with ⟨_, _, -, hf, -⟩ | ⟨_, -, ⟨_, _, -, hf, -⟩ |
      ⟨hash', n', -, hok, rfl⟩⟩
    · cases hf
    · cases hf
    · obtain rfl := Except.ok.inj hok
      refine ⟨?_, ?_, e, _, rfl, rfl, rfl⟩
      · rw [taking, Tracker.get?_put_text, if_pos rfl]
      · rw [← (sameTracker_of_prepare hprep).1]
        rfl

/-- **A submission that fails leaves the session as it was**, with any node and wherever it fails
(`Failure`): the record, the ledger of the node and the tracker are unchanged, but that its own
account, if it was not tracked, may be tracked now from the nonce that was just read.  What the node
has raised is reported.  Whatever was attempted had the nonce that is still tracked, and whatever is
submitted next from an account, from this session or any other with the same nonce, goes out with
the nonce that is tracked. -/
theorem failed_submission_leaves_no_trace {f : Fault}
    (h : (script.submit x).runOn s = (.error f, t)) :
    t.sent = s.sent ∧
      (∀ ledger, script.node.Records ledger → ledger t.world.node = ledger s.world.node) ∧
      Session.Adds (fun y => y.accepted? = none) s t ∧
      (t.nonces = s.nonces ∨
        ∃ a, script.address x.account = .ok a ∧ ReadFirst script.node a s t) ∧
      Failure script x s t f ∧
      (∀ later e answer earlier,
        t.world.journal = later ++ .submitted e (.error answer) :: earlier →
          s.world.journal <:+ earlier → script.Reports x e answer t f) ∧
      (∀ later y earlier e, t.world.journal = later ++ y :: earlier → s.world.journal <:+ earlier →
        y.attempt? = some e → t.nonces.get? (.text e.address) = some e.nonce) ∧
      ∀ a n, t.nonces.get? (.text a) = some n →
        ∀ t' : Session ν τ, t'.nonces.get? (.text a) = t.nonces.get? (.text a) →
          script.Resumes a n t' := by
  have hfailure : Failure script x s t f := failure_of_submit h
  have huntaken := untaken_of_submit_error h
  obtain ⟨hsent, htracker⟩ := hfailure.sameTracker
  refine ⟨hsent, fun ledger hrec => ?_, huntaken, htracker, hfailure, ?_, ?_, ?_⟩
  · obtain ⟨new, hnew, hledger⟩ := hrec.moves ((moves_submit x).of_runOn h)
    obtain ⟨new', hnew', hnone⟩ := huntaken
    obtain rfl : new = new' := List.append_cancel_right (hnew.symm.trans hnew')
    rw [hledger, taken, gathered_of_none hnone, List.append_nil]
  · exact fun later e answer earlier hsplit hafter => reports_of_submit_error h hsplit hafter
  · exact fun later y earlier e hsplit hafter hy => due_of_submit_error h hsplit hafter hy
  · exact fun a n hn t' hsame => resumes_of_tracked (hsame.trans hn)

/-- Root on a node that refuses the first attempt. -/
def refusing : Script Sequential.State Value where
  node := Sequential.node { failures := [(0, .refused (.text "busy"))] }
  accounts := ⟨[("root", ⟨"a", true⟩)]⟩
  barrierTimeout := .int 1
  pollInterval := .int 1

set_option maxRecDepth 10000 in
/-- A refused submission leaves the node without record and the account at its nonce; tried again,
it is taken with that nonce. -/
theorem failed_submission_leaves_no_trace_refused :
    let s : Session Sequential.State Value := .fresh (.ofNonces ⟨[("a", 5)]⟩) { now := .int 0 }
    let x : Submit := ⟨"root", "System", "remark", .absent, .bool true⟩
    let t := ((refusing.submit x).runOn s).2
    (∃ f, ((refusing.submit x).runOn s).1 = .error f) ∧ t.world.node.accepted.length = 0 ∧
      t.nonces.get? "a" = some 5 ∧ refusing.Resumes "a" 5 t ∧
      ((refusing.submit x).runOn t).2.world.node.accepted.map Extrinsic.nonce = [5] := by
  intro s x t
  have hfails : ((refusing.submit x).runOn s).1.isOk = false := by decide +kernel
  have htracked : t.nonces.get? (.text "a") = some 5 := by decide +kernel
  rcases hrun : (refusing.submit x).runOn s with ⟨f | hash, t'⟩
  · obtain ⟨-, hledger, -, -, -, -, -, hresumes⟩ := failed_submission_leaves_no_trace hrun
    have ht : t = t' := by simp only [t, hrun]
    refine ⟨⟨f, rfl⟩, ?_, htracked, ?_, ?_⟩
    · rw [ht, hledger _ (Sequential.records_node _)]
      rfl
    · rw [ht] at htracked ⊢
      exact hresumes "a" 5 htracked t' rfl
    · decide +kernel
  · rw [hrun] at hfails
    cases hfails

end Script

end Campaign
