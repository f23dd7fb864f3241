import Campaign.Proofs.Growth

/-!
# Submissions

What a submission leaves in the history, however it ends.  Its extrinsic is made ready first:
`Script.Readies` says that a history ends with the call composed and the extrinsic announced.

* `submit_ok`: a good submission has its extrinsic made ready, signed and taken.
* `submit_attempt`: any attempt in a submission, also in one that fails, is for the extrinsic that
  was made ready just before it.
* `failure_of_submit`: a submission that fails has failed in one of seven places, and `Failure` says
  what each of them leaves.
-/

namespace Campaign

open Act History

variable {ν τ : Type}

namespace Script

variable {script : Script ν τ}

/-! ### Submissions that end well -/

/-- The compositions, the latest first, that make the call of a step. -/
def Composes (x : Submit) (params call : Value) (events : History τ) : Prop :=
  if x.asRoot.truthy then
    ∃ inner, events = [.composed "Sudo" "sudo" (.object [("call", inner)]) (.ok call),
      .composed x.pallet x.function (Client.orEmpty params (.dict [])) (.ok inner)]
  else events = [.composed x.pallet x.function (Client.orEmpty params (.dict [])) (.ok call)]

theorem compose_ok {node : Node ν τ} {pallet function params call : Value} {w v : World ν τ}
    (h : (Client.compose node pallet function params).runOn w = (.ok call, v)) :
    v.journal = .composed pallet function (Client.orEmpty params (.dict [])) (.ok call) ::
      w.journal := by
  rw [Client.compose, World.runOn_call] at h
  obtain ⟨hcall, rfl⟩ := Prod.mk.inj h
  rw [← hcall]
  rfl

theorem composeCall_ok {x : Submit} {params call : Value} {w v : World ν τ}
    (h : (script.composeCall x params).runOn w = (.ok call, v)) :
    ∃ events, Composes x params call events ∧ v.journal = events ++ w.journal := by
  obtain ⟨inner, m, hinner, h⟩ := ok_of_bind h
  split at h
  · rename_i hroot
    simp only [Composes, if_pos hroot]
    refine ⟨_, ⟨inner, rfl⟩, ?_⟩
    rw [compose_ok h, compose_ok hinner]
    rfl
  · rename_i hroot
    simp only [Composes, if_neg hroot]
    obtain ⟨hcall, rfl⟩ := Prod.mk.inj h
    rw [← Except.ok.inj hcall]
    exact ⟨_, rfl, compose_ok hinner⟩

/-- **What a good submission leaves**: its call was composed, announced, signed and taken, and the
next nonce is tracked. -/
theorem submit_ok {x : Submit} {hash : Option String} {s t : Session ν τ}
    (h : (script.submit x).runOn s = (.ok hash, t)) :
    ∃ e params events before, ∃ nonces : Tracker, script.address x.account = .ok e.address ∧
      x.params.resolve nonces = .ok params ∧ Composes x params e.call events ∧
      s.world.journal <:+ before ∧ t.nonces.get? (.text e.address) = some (e.nonce + 1) ∧
      t.world.journal = .noticed (.submitted hash e.nonce) :: .submitted e (.ok hash) ::
        .signed e (.ok ()) :: .noticed (.sending x.account x.callName e.nonce) ::
          (events ++ before) := by
  rw [submit_eq] at h
  obtain ⟨e, m, hprep, hsend⟩ := ok_of_bind h
  obtain ⟨haddr, hdue, k, params, w, htrack, hcompose, hparams, rfl⟩ := prepare_ok hprep
  obtain ⟨events, hevents, hjournal⟩ := composeCall_ok hcompose
  have hsuffix : s.world.journal <:+ k.world.journal :=
    ((adds_ensureTracked e.address).of_runOn htrack).suffix
  rcases send_cases hdue hsend with ⟨_, _, -, hf, -⟩ | ⟨_, -, ⟨_, _, -, hf, -⟩ |
    ⟨hash', _, -, hok, rfl⟩⟩
  · cases hf
  · cases hf
  · obtain rfl := Except.ok.inj hok
    refine ⟨e, params, events, _, _, haddr, hparams, hevents, hsuffix, ?_, ?_⟩
    · rw [Session.taking, Tracker.get?_put_text, if_pos rfl]
    · rw [← hjournal]
      rfl

/-! ### Attempts -/

/-- The history ends with the extrinsic of a step being made ready: its call was composed, and it
was announced. -/
def Readies (script : Script ν τ) (x : Submit) (e : Extrinsic) (h : History τ) : Prop :=
  script.address x.account = .ok e.address ∧ ∃ nonces : Tracker, ∃ params events before,
    x.params.resolve nonces = .ok params ∧ Composes x params e.call events ∧
      h = .noticed (.sending x.account x.callName e.nonce) :: (events ++ before)

theorem readies_of_prepare {x : Submit} {e : Extrinsic} {s t : Session ν τ}
    (h : (script.prepare x).runOn s = (.ok e, t)) : script.Readies x e t.world.journal := by
  obtain ⟨haddr, -, m, params, w, -, hcompose, hparams, rfl⟩ := prepare_ok h
  obtain ⟨events, hevents, hjournal⟩ := composeCall_ok hcompose
  exact ⟨haddr, m.nonces, params, events, m.world.journal, hparams, hevents,
    congrArg (_ :: ·) hjournal⟩

/-- The extrinsic of a good preparation carries the nonce that was tracked before, if one was. -/
theorem nonce_of_prepare {x : Submit} {e : Extrinsic} {s t : Session ν τ}
    (h : (script.prepare x).runOn s = (.ok e, t)) {n : Int}
    (hn : s.nonces.get? (.text e.address) = some n) : e.nonce = n := by
  obtain ⟨-, hdue, m, params, w, htrack, -, -, rfl⟩ := prepare_ok h
  rcases ensureTracked_cases htrack with ⟨-, -, rfl⟩ | ⟨hnew, -⟩
  · exact Option.some.inj (hdue.symm.trans hn)
  · simp [Table.has, hn] at hnew

/-- **Any attempt in a submission** is for the extrinsic that was made ready just before. -/
theorem submit_attempt {x : Submit} {s t : Session ν τ} {out : Except Fault (Option String)}
    (h : (script.submit x).runOn s = (out, t)) {later earlier : History τ} {y : Event τ}
    {e : Extrinsic} (hsplit : t.world.journal = later ++ y :: earlier)
    (hafter : s.world.journal <:+ earlier) (hy : y.attempt? = some e) :
    ∃ m, (script.prepare x).runOn s = (.ok e, m) ∧ script.Readies x e m.world.journal ∧
      ((∃ answer, y = .signed e answer ∧ earlier = m.world.journal) ∨
        ∃ answer, y = .submitted e answer ∧ earlier = .signed e (.ok ()) :: m.world.journal) := by
  rw [submit_eq] at h
  -- the preparation attempts nothing, so what is attempted is what comes after it
  have hquiet : ∀ m r, (script.prepare x).runOn s = (r, m) → ∀ later' : History τ,
      m.world.journal ≠ later' ++ y :: earlier := by
    intro m r hprep later' hm
    have hnone := History.Grows.of_split ((adds_prepare x).of_runOn hprep) hm hafter
    rw [hnone.1] at hy
    cases hy
  rcases bind_cases h with ⟨e', m, hprep, hsend⟩ | ⟨f, hprep, -⟩
  · obtain ⟨-, hdue, -⟩ := prepare_ok hprep
    -- the journal is that of the preparation with one or two attempts on top
    have hsigned : ∀ (answer : Except Fault Unit) (later' : History τ),
        .signed e' answer :: m.world.journal = later' ++ y :: earlier →
        e' = e ∧ y = .signed e answer ∧ earlier = m.world.journal := by
      intro answer later' heq
      cases later' with
      | nil =>
        obtain ⟨rfl, hearlier⟩ := List.cons.inj heq
        obtain rfl : e' = e := Option.some.inj hy
        exact ⟨rfl, rfl, hearlier.symm⟩
      | cons z later' => exact absurd (List.cons.inj heq).2 (hquiet m _ hprep later')
    have hsubmitted : ∀ (answer : Except Fault (Option String)) (later' : History τ),
        .submitted e' answer :: .signed e' (.ok ()) :: m.world.journal = later' ++ y :: earlier →
        e' = e ∧ ((∃ answer, y = .signed e answer ∧ earlier = m.world.journal) ∨
          ∃ answer, y = .submitted e answer ∧ earlier = .signed e (.ok ()) :: m.world.journal) := by
      intro answer later' heq
      cases later' with
      | nil =>
        obtain ⟨rfl, hearlier⟩ := List.cons.inj heq
        obtain rfl : e' = e := Option.some.inj hy
        exact ⟨rfl, Or.inr ⟨answer, rfl, hearlier.symm⟩⟩
      | cons z later' =>
        obtain ⟨rfl, hy', hearlier⟩ := hsigned _ later' (List.cons.inj heq).2
        exact ⟨rfl, Or.inl ⟨_, hy', hearlier⟩⟩
    rcases send_cases hdue hsend with ⟨f, n, -, -, rfl⟩ | ⟨n, -, ⟨f, n', -, -, rfl⟩ |
      ⟨hash, n', -, -, rfl⟩⟩
    · obtain ⟨rfl, hy', hearlier⟩ := hsigned _ later hsplit
      exact ⟨m, hprep, readies_of_prepare hprep, Or.inl ⟨_, hy', hearlier⟩⟩
    · obtain ⟨rfl, hends⟩ := hsubmitted _ later hsplit
      exact ⟨m, hprep, readies_of_prepare hprep, hends⟩
    · cases later with
      | nil =>
        obtain ⟨rfl, -⟩ := List.cons.inj hsplit
        cases hy
      | cons z later =>
        obtain ⟨rfl, hends⟩ := hsubmitted _ later (List.cons.inj hsplit).2
        exact ⟨m, hprep, readies_of_prepare hprep, hends⟩
  · exact absurd hsplit (hquiet t _ hprep later)

/-! ### Submissions that fail -/

/-- **Where a submission can fail**, with the session and the fault that it leaves. -/
inductive Failure (script : Script ν τ) (x : Submit) (s : Session ν τ) :
    Session ν τ → Fault → Prop
  /-- The role has no account. -/
  | role {f : Fault} (h : script.address x.account = .error f) : Failure script x s s f
  /-- The account is not tracked yet, and its nonce cannot be read. -/
  | read {a : String} {answer : Except Fault (Option Value)} {n : ν} {f : Fault}
      (haddr : script.address x.account = .ok a) (hnew : s.nonces.get? (.text a) = none)
      (hf : answer.bind Client.nonceOf = .error f) :
      Failure script x s (s.after n (.look a answer)) f
  /-- The parameters cannot be worked out. -/
  | params {a : String} {m : Session ν τ} {f : Fault} (haddr : script.address x.account = .ok a)
      (htrack : (script.ensureTracked a).runOn s = (.ok (), m))
      (hf : x.params.resolve m.nonces = .error f) : Failure script x s m f
  /-- The call cannot be composed, or not with the highest rights. -/
  | composing {a : String} {m : Session ν τ} {params : Value} {w : World ν τ} {f : Fault}
      (haddr : script.address x.account = .ok a)
      (htrack : (script.ensureTracked a).runOn s = (.ok (), m))
      (hparams : x.params.resolve m.nonces = .ok params)
      (hf : (script.composeCall x params).runOn m.world = (.error f, w)) :
      Failure script x s { m with world := w } f
  /-- The extrinsic cannot be signed. -/
  | signing {e : Extrinsic} {m : Session ν τ} {n : ν} {f : Fault}
      (hready : (script.prepare x).runOn s = (.ok e, m))
      (hf : (script.node.sign e).runOn m.world.node = (.error f, n)) :
      Failure script x s (m.after n (.signed e (.error f))) f
  /-- The node does not take the extrinsic: it refuses it, or fails. -/
  | handingIn {e : Extrinsic} {m : Session ν τ} {n n' : ν} {f : Fault}
      (hready : (script.prepare x).runOn s = (.ok e, m))
      (hsign : (script.node.sign e).runOn m.world.node = (.ok (), n))
      (hf : (script.node.submit e).runOn n = (.error f, n')) :
      Failure script x s ((m.after n (.signed e (.ok ()))).after n' (.submitted e (.error f)))
        (Client.rejection e f)

/-- A tracked account's nonce can be peeked at. -/
theorem tracked_of_ensureTracked {a : String} {s t : Session ν τ}
    (h : (script.ensureTracked a).runOn s = (.ok (), t)) :
    ∃ n, t.nonces.get? (.text a) = some n := by
  rcases ensureTracked_cases h with ⟨hhas, -, rfl⟩ | ⟨-, r, hstart, hr⟩
  · exact Option.isSome_iff_exists.mp hhas
  · obtain ⟨answer, n, -, ⟨v, -, -, rfl⟩ | ⟨f, -, rfl, -⟩⟩ := Session.startTracking_cases hstart
    · exact ⟨v, by rw [Session.tracking, Tracker.get?_put_text, if_pos rfl]⟩
    · cases hr

theorem failure_of_prepare {x : Submit} {s t : Session ν τ} {f : Fault}
    (h : (script.prepare x).runOn s = (.error f, t)) : Failure script x s t f := by
  rcases bind_cases h with ⟨a, m₀, hrole, h⟩ | ⟨f', hrole, hf⟩
  · rw [runOn_ofExcept] at hrole
    obtain ⟨haddr, rfl⟩ := Prod.mk.inj hrole
    rcases bind_cases h with ⟨_, m, htrack, h⟩ | ⟨f', htrack, hf⟩
    · rw [runOn_bind_ok (runOn_get m)] at h
      rcases bind_cases h with ⟨params, m₁, hresolve, h⟩ | ⟨f', hresolve, hf⟩
      · rw [runOn_ofExcept] at hresolve
        obtain ⟨hparams, rfl⟩ := Prod.mk.inj hresolve
        rcases bind_cases h with ⟨call, m₂, hcompose, h⟩ | ⟨f', hcompose, hf⟩
        · -- from here on nothing can fail: the account is tracked
          rw [Session.runOn_inWorld] at hcompose
          obtain ⟨-, rfl⟩ := Prod.mk.inj hcompose
          obtain ⟨n, hn⟩ := tracked_of_ensureTracked htrack
          rw [runOn_bind, Session.runOn_peekNonce, hn] at h
          dsimp only at h
          rw [runOn_bind_ok (Session.runOn_inWorld _ _)] at h
          cases (Prod.mk.inj h).1
        · rw [Session.runOn_inWorld] at hcompose
          obtain ⟨hcall, rfl⟩ := Prod.mk.inj hcompose
          obtain rfl := Except.error.inj hf
          exact .composing haddr htrack hparams (Prod.ext hcall rfl)
      · rw [runOn_ofExcept] at hresolve
        obtain ⟨hparams, rfl⟩ := Prod.mk.inj hresolve
        obtain rfl := Except.error.inj hf
        exact .params haddr htrack hparams
    · obtain rfl := Except.error.inj hf
      rcases ensureTracked_cases htrack with ⟨-, hok, -⟩ | ⟨hnew, r, hstart, hr⟩
      · cases hok
      · obtain ⟨answer, n, -, ⟨v, -, rfl, -⟩ | ⟨f', hread, rfl, rfl⟩⟩ :=
          Session.startTracking_cases hstart
        · cases hr
        · obtain rfl := Except.error.inj hr
          exact .read haddr (by simpa [Table.has] using hnew) hread
  · rw [runOn_ofExcept] at hrole
    obtain ⟨haddr, rfl⟩ := Prod.mk.inj hrole
    obtain rfl := Except.error.inj hf
    exact .role haddr

/-- **A submission that fails has failed in one of these places.** -/
theorem failure_of_submit {x : Submit} {s t : Session ν τ} {f : Fault}
    (h : (script.submit x).runOn s = (.error f, t)) : Failure script x s t f := by
  rw [submit_eq] at h
  rcases bind_cases h with ⟨e, m, hprep, hsend⟩ | ⟨f', hprep, hf⟩
  · obtain ⟨-, hdue, -⟩ := prepare_ok hprep
    rcases send_cases hdue hsend with ⟨f', n, hsign, hf, rfl⟩ | ⟨n, hsign, ⟨f', n', hsub, hf, rfl⟩ |
      ⟨_, _, -, hok, -⟩⟩
    · obtain rfl := Except.error.inj hf
      exact .signing hprep hsign
    · obtain rfl := Except.error.inj hf
      exact .handingIn hprep hsign hsub
    · cases hok
  · obtain rfl := Except.error.inj hf
    exact failure_of_prepare hprep

end Script

end Campaign
