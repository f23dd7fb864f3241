import Campaign.Proofs.Progress
import Campaign.Proofs.Regrouping
import Campaign.Proofs.Retry

/-!
# The record of a session mirrors the ledger of the node

A session records what it has sent, and the node keeps a ledger of what it has taken.  The two are
written independently of each other, and `Mirrors` says that they agree: there is a list of entries,
one for each submission that has ended well, whose records make up the one and whose extrinsics make
up the other, and each `Entry` agrees with itself (`Entry.Agrees`).

One submission that ends well adds one entry to both sides (`entry_of_submit`), and whatever else
happens adds none (`Mirrors.later`).  `Walk.mirrors` goes through the steps of a run, so that the
two sides agree at every point between them.
-/

namespace Campaign

open Act History

variable {ν τ : Type}

/-- The extrinsic of a receipt, with the hash that the receipt carries. -/
def Event.receipt? : Event τ → Option (Extrinsic × Option String)
  | .submitted e (.ok hash) => some (e, hash)
  | _ => none

theorem Event.receipt?_of_accepted? {x : Event τ} (h : x.accepted? = none) : x.receipt? = none := by
  cases x with
  | submitted e answer =>
    cases answer with
    | ok hash => cases h
    | error fault => rfl
  | _ => rfl

/-- The receipts of a history, in order. -/
abbrev History.receipts (h : History τ) : List (Extrinsic × Option String) :=
  gathered Event.receipt? h

/-! ### Calls -/

/-- A node that composes a call of its names and arguments, if it composes one. -/
def Node.ComposesPlainly (node : Node ν τ) : Prop :=
  ∀ pallet function params m call n,
    (node.compose pallet function params).runOn m = (.ok call, n) →
      call = Sequential.composed pallet function params

/-- The call of a step: its names and its parameters, wrapped if it runs with the highest rights. -/
def Submit.callWith (x : Submit) (params : Value) : Value :=
  let call := Sequential.composed x.pallet x.function (Client.orEmpty params (.dict []))
  if x.asRoot.truthy then Sequential.composed "Sudo" "sudo" (.object [("call", call)]) else call

theorem Sequential.composesPlainly_node [Seconds τ] (setup : Setup τ) :
    (node setup).ComposesPlainly := by
  intro pallet function params m call n h
  exact (Except.ok.inj (Prod.mk.inj h).1).symm

namespace Script

variable {script : Script ν τ}

theorem callWith_of_composeCall (hplain : script.node.ComposesPlainly) {x : Submit}
    {params call : Value} {w v : World ν τ}
    (h : (script.composeCall x params).runOn w = (.ok call, v)) : call = x.callWith params := by
  have hcompose : ∀ {pallet function fields made : Value} {w v : World ν τ},
      (Client.compose script.node pallet function fields).runOn w = (.ok made, v) →
        made = Sequential.composed pallet function (Client.orEmpty fields (.dict [])) := by
    intro pallet function fields made w v hmade
    rw [Client.compose, World.runOn_call] at hmade
    exact hplain _ _ _ _ _ _ (Prod.ext (Prod.mk.inj hmade).1 rfl)
  obtain ⟨inner, m, hinner, h⟩ := ok_of_bind h
  obtain rfl := hcompose hinner
  split at h
  · rename_i hroot
    rw [Submit.callWith, if_pos hroot]
    exact hcompose h
  · rename_i hroot
    rw [Submit.callWith, if_neg hroot]
    exact (Except.ok.inj (Prod.mk.inj h).1).symm

/-! ### Entries -/

/-- A submission, with what the session has recorded of it and what the node has. -/
structure Entry where
  step : Submit
  record : Sent
  extrinsic : Extrinsic

/-- **The sides of an entry agree**, and a history bears them out. -/
structure Entry.Agrees (script : Script ν τ) (h : History τ) (x : Entry) : Prop where
  role : x.record.role = x.step.account
  signer : script.address x.record.role = .ok x.extrinsic.address
  nonce : x.record.nonce = x.extrinsic.nonce
  name : x.record.call = x.step.callName
  /-- The call was composed with the parameters that were worked out from the nonces due by then;
  it was announced, signed and taken, and the hash is that of the receipt. -/
  call : ∃ tracker : Tracker, ∃ params events before later,
    (∀ a, tracker.get? (.text a) = due? a before) ∧
      x.step.params.resolve tracker = .ok params ∧
      Composes x.step params x.extrinsic.call events ∧
      (script.node.ComposesPlainly → x.extrinsic.call = x.step.callWith params) ∧
      h = later ++ .submitted x.extrinsic (.ok x.record.hash) :: .signed x.extrinsic (.ok ()) ::
        .noticed (.sending x.record.role x.record.call x.record.nonce) :: (events ++ before)

theorem Entry.Agrees.mono {h g : History τ} {x : Entry} (hagrees : x.Agrees script h)
    (hhg : h <:+ g) : x.Agrees script g := by
  obtain ⟨hrole, hsigner, hnonce, hname,
    tracker, params, events, before, later, hdue, hparams, hcall, hplain, rfl⟩ := hagrees
  obtain ⟨more, rfl⟩ := hhg
  exact ⟨hrole, hsigner, hnonce, hname, tracker, params, events, before, more ++ later, hdue,
    hparams, hcall, hplain, (List.append_assoc ..).symm⟩

/-- **The record of a session mirrors a ledger**, with one entry for each of some submissions. -/
def Mirrors (script : Script ν τ) (ledger : ν → List Extrinsic) (steps : List Submit)
    (s : Session ν τ) : Prop :=
  ∃ entries : List Entry, entries.map Entry.step = steps ∧ s.sent = entries.map Entry.record ∧
    ledger s.world.node = entries.map Entry.extrinsic ∧
    receipts s.world.journal = entries.map (fun x => (x.extrinsic, x.record.hash)) ∧
    ∀ x ∈ entries, x.Agrees script s.world.journal

variable {ledger : ν → List Extrinsic} {s t : Session ν τ} {xs : List Submit}

theorem mirrors_fresh {n : ν} (hnew : ledger n = []) (c : Clock τ) :
    script.Mirrors ledger [] (.fresh n c) :=
  ⟨[], rfl, rfl, hnew, rfl, by simp⟩

/-- Where nothing is taken and nothing is recorded the two sides agree as before. -/
theorem Mirrors.later (hrec : script.node.Records ledger) (h : script.Mirrors ledger xs s)
    (hmoves : Session.Moves script.node s t) (hsent : t.sent = s.sent)
    (hadds : Session.Adds (fun y => y.accepted? = none) s t) : script.Mirrors ledger xs t := by
  obtain ⟨entries, hsteps, hrecords, hledger, hreceipts, hagree⟩ := h
  obtain ⟨new, hnew, htaken⟩ := hrec.moves hmoves
  obtain ⟨new', hnew', hnone⟩ := hadds
  obtain rfl : new = new' := List.append_cancel_right (hnew.symm.trans hnew')
  refine ⟨entries, hsteps, hsent.trans hrecords, ?_, ?_, fun x hx => ?_⟩
  · rw [htaken, taken, gathered_of_none hnone, List.append_nil, hledger]
  · rw [hnew, receipts, gathered_append, gathered_of_none fun y hy =>
      Event.receipt?_of_accepted? (hnone y hy), List.append_nil]
    exact hreceipts
  · exact (hagree x hx).mono ⟨new, hnew.symm⟩

/-- **A submission that ends well adds one entry**: what is recorded of it, what the node has taken
and what the receipt says agree. -/
theorem entry_of_submit (acc : Accounted s.nonces s.world.journal) {x : Submit}
    {hash : Option String} (h : (script.submit x).runOn s = (.ok hash, t)) :
    ∃ e new, t.world.journal = new ++ s.world.journal ∧ taken new = [e] ∧
      receipts new = [(e, hash)] ∧
      t.sent = s.sent ++ [⟨x.account, x.callName, e.nonce, hash⟩] ∧
      Entry.Agrees script t.world.journal ⟨x, ⟨x.account, x.callName, e.nonce, hash⟩, e⟩ := by
  rw [submit_eq] at h
  obtain ⟨e, m, hprep, hsend⟩ := ok_of_bind h
  obtain ⟨haddr, hdue, k, params, w, htrack, hcompose, hparams, hm⟩ := prepare_ok hprep
  obtain ⟨new, hnew, hleads⟩ := (adds_prepare x).of_runOn hprep
  have hnone : ∀ y ∈ new, y.accepted? = none := fun y hy =>
    Event.accepted?_of_attempt? (hleads y hy).1
  have hsent : m.sent = s.sent := (sameTracker_of_prepare hprep).1
  have hbooks : ∀ a, k.nonces.get? (.text a) = due? a k.world.journal :=
    (acc.moves ((moves_ensureTracked e.address).of_runOn htrack)).tracked
  obtain ⟨events, hevents, hjournal⟩ := composeCall_ok hcompose
  rcases send_cases hdue hsend with ⟨_, _, -, hf, -⟩ | ⟨_, -, ⟨_, _, -, hf, -⟩ |
    ⟨hash', n', -, hok, rfl⟩⟩
  · cases hf
  · cases hf
  · obtain rfl := Except.ok.inj hok
    refine ⟨e, .noticed (.submitted hash e.nonce) :: .submitted e (.ok hash) ::
      .signed e (.ok ()) :: new, congrArg (_ :: _ :: _ :: ·) hnew, ?_, ?_, ?_, ?_⟩
    · simp [taken, gathered, gathered_of_none hnone, Event.accepted?]
    · simp [receipts, gathered, Event.receipt?,
        gathered_of_none fun y hy => Event.receipt?_of_accepted? (hnone y hy)]
    · rw [← hsent]
      rfl
    · refine ⟨rfl, haddr, rfl, rfl, k.nonces, params, events, k.world.journal,
        [.noticed (.submitted hash e.nonce)], hbooks, hparams, hevents,
        fun hplain => callWith_of_composeCall hplain hcompose, ?_⟩
      rw [← hjournal]
      subst hm
      rfl

/-- A submission that ends well is one entry more. -/
theorem Mirrors.submit (hrec : script.node.Records ledger) (h : script.Mirrors ledger xs s)
    (acc : Accounted s.nonces s.world.journal) {x : Submit} {hash : Option String}
    (hsubmit : (script.submit x).runOn s = (.ok hash, t)) :
    script.Mirrors ledger (xs ++ [x]) t := by
  obtain ⟨entries, rfl, hrecords, hledger, hreceipts, hagree⟩ := h
  obtain ⟨e, new, hnew, htaken, hreceipt, hsent, hentry⟩ := entry_of_submit acc hsubmit
  obtain ⟨new', hnew', hledger'⟩ := hrec.moves ((moves_submit x).of_runOn hsubmit)
  obtain rfl : new = new' := List.append_cancel_right (hnew.symm.trans hnew')
  refine ⟨entries ++ [⟨x, ⟨x.account, x.callName, e.nonce, hash⟩, e⟩], by simp, ?_, ?_, ?_, ?_⟩
  · rw [hsent, hrecords, List.map_append, List.map_singleton]
  · rw [hledger', hledger, htaken, List.map_append, List.map_singleton]
  · rw [hnew, receipts, gathered_append, List.map_append, List.map_singleton]
    exact congrArg₂ _ hreceipts hreceipt
  · intro y hy
    rcases List.mem_append.mp hy with hy | hy
    · exact (hagree y hy).mono ⟨new, hnew.symm⟩
    · rw [List.mem_singleton.mp hy]
      exact hentry

/-! ### Starting -/

/-- The record is the same before and after. -/
def SameRecord (s t : Session ν τ) : Prop := t.sent = s.sent

instance : IsPreorder (Session ν τ) SameRecord where
  refl _ := rfl
  trans _ _ _ h g := g.trans h

theorem sameRecord_startRoles : ∀ (roles : List Value) (started : Table Value Int),
    Keeps SameRecord (script.startRoles started roles) := by
  intro roles
  induction roles with
  | nil => exact fun _ => keeps_pure _
  | cons role rest ih =>
    intro started
    refine keeps_bind ?_ fun _ => ih _
    refine keeps_bind (keeps_ofExcept _) fun a => ?_
    refine keeps_bind (keeps_of fun s t out h => ?_) fun v => ?_
    · obtain ⟨answer, n, -, ⟨v, -, -, rfl⟩ | ⟨f, -, -, rfl⟩⟩ := Session.startTracking_cases h
      · rfl
      · rfl
    · exact keeps_bind (keeps_within fun s => rfl) fun _ => keeps_pure _

/-! ### Steps and runs -/

variable [Seconds τ]

/-- One step adds its entry if it is a submission that ends well, and none otherwise. -/
theorem Mirrors.execute (hrec : script.node.Records ledger) (h : script.Mirrors ledger xs s)
    (acc : Accounted s.nonces s.world.journal) {step : Step τ} {out : Except Fault Result}
    (hstep : (script.execute step).runOn s = (out, t)) :
    ∃ done, done <+: step.submit?.toList ∧ (∀ r, out = .ok r → done = step.submit?.toList) ∧
      script.Mirrors ledger (xs ++ done) t := by
  have hmoves : Session.Moves script.node s t := (moves_execute step).of_runOn hstep
  by_cases hsubmit : ∃ x, step = .submit x
  · obtain ⟨x, rfl⟩ := hsubmit
    cases out with
    | ok r =>
      obtain ⟨hash, hx⟩ := execute_submit_ok hstep
      exact ⟨[x], List.prefix_rfl, fun _ _ => rfl, h.submit hrec acc hx⟩
    | error f =>
      rcases bind_cases hstep with ⟨_, _, -, hpure⟩ | ⟨g, hx, -⟩
      · cases (Prod.mk.inj hpure).1
      · refine ⟨[], List.nil_prefix, fun _ hr => (nomatch hr), ?_⟩
        rw [List.append_nil]
        exact h.later hrec hmoves (failure_of_submit hx).sameTracker.1 (untaken_of_submit_error hx)
  · have hplan : step.submit?.toList = [] := by
      cases step with
      | submit x => exact absurd ⟨x, rfl⟩ hsubmit
      | _ => rfl
    have hsent : t.sent = s.sent := by
      have hkept : ((script.execute step).runOn s).2.sent = s.sent :=
        (execute_nonces (fun x hx => hsubmit ⟨x, hx⟩) s).2
      rwa [hstep] at hkept
    refine ⟨[], List.nil_prefix, fun _ _ => hplan.symm, ?_⟩
    rw [List.append_nil]
    exact h.later hrec hmoves hsent
      (((quiet_execute hsubmit).of_runOn hstep).mono fun y hy => Event.accepted?_of_attempt? hy.1)

/-- **At every point of a walk the two sides agree**: they have one entry for each submission so
far. -/
theorem Walk.mirrors (hrec : script.node.Records ledger) {steps : List (Step τ)}
    {out : Except Fault Unit} (h : Walk script steps s out t)
    (acc : Accounted s.nonces s.world.journal) (hmirrors : script.Mirrors ledger xs s) :
    ∃ done, done <+: submissions steps ∧ (out = .ok () → done = submissions steps) ∧
      script.Mirrors ledger (xs ++ done) t := by
  -- a mark is neither taken nor recorded
  have hmarked : ∀ {ys : List Submit} {m : Session ν τ} {n : Notice τ}, n.IsMark →
      script.Mirrors ledger ys m → script.Mirrors ledger ys (m.noted n) := fun {_ m n} hn hm =>
    hm.later hrec (.single (.note n hn.plain.2)) rfl (Session.adds_noted m rfl)
  induction h generalizing xs with
  | done => exact ⟨[], List.nil_prefix, fun _ => rfl, by rwa [List.append_nil]⟩
  | @mark steps s t out n hn _ ih =>
    have hmove : Session.Move script.node s (s.noted n) := .note n hn.plain.2
    exact ih (acc.move hmove) (hmarked hn hmirrors)
  | @step step steps s m t r out hstep _ ih =>
    obtain ⟨done₁, -, hdone₁, hm⟩ := hmirrors.execute hrec acc hstep
    obtain rfl := hdone₁ r rfl
    obtain ⟨done, hprefix, hdone, ht⟩ := ih (acc.moves ((moves_execute step).of_runOn hstep)) hm
    refine ⟨step.submit?.toList ++ done, ?_, fun hok => ?_, by rwa [← List.append_assoc]⟩
    · exact (List.prefix_append_right_inj _).mpr hprefix
    · rw [hdone hok]
      rfl
  | @stop step steps s m t f hstep ht =>
    obtain ⟨done, hprefix, -, hm⟩ := hmirrors.execute hrec acc hstep
    refine ⟨done, hprefix.trans (List.prefix_append _ (submissions steps)),
      fun hok => (nomatch hok), ?_⟩
    rcases ht with rfl | ⟨n, hn, rfl⟩
    · exact hm
    · exact hmarked hn hm

theorem perform_run (phases : List (Phase τ)) (s : Session ν τ) :
    ((script.perform (.run phases)).runOn s).2 = ((script.run phases).runOn s).2 := by
  rw [perform, runOn_bind]
  rcases (script.run phases).runOn s with ⟨_ | _, _⟩ <;> rfl

/-- What is performed is a walk. -/
theorem walk_perform (script : Script ν τ) (r : Request τ) (s : Session ν τ) :
    ∃ steps out, Walk script steps s out ((script.perform r).runOn s).2 := by
  have hstep : ∀ (step : Step τ) u, ((script.execute step).runOn s).2 = u →
      ∃ steps out, Walk script steps s out u := by
    rintro step u rfl
    rcases hexec : (script.execute step).runOn s with ⟨f | r, m⟩
    · exact ⟨[step], _, .stop hexec (Or.inl rfl)⟩
    · exact ⟨[step], _, .step hexec .done⟩
  -- the result of a request is not looked at
  cases r with
  | submit x =>
    refine hstep (.submit x) _ ?_
    rw [execute, perform, runOn_bind, runOn_bind]
    rcases (script.submit x).runOn s with ⟨_ | _, _⟩ <;> rfl
  | wait b =>
    refine hstep (.barrier b) _ ?_
    rw [execute, perform, runOn_bind, runOn_bind]
    rcases (script.wait b).runOn s with ⟨_ | _, _⟩ <;> rfl
  | execute step =>
    refine hstep step _ ?_
    rw [perform, runOn_bind]
    rcases (script.execute step).runOn s with ⟨_ | _, _⟩ <;> rfl
  | runPhase phase => exact ⟨phase.steps, _, walk_runPhase rfl⟩
  | run phases =>
    rw [perform_run]
    exact ⟨_, _, walk_run rfl⟩

/-- The two sides agree in every session that can be reached. -/
theorem mirrors_of_reaches (hrec : script.node.Records ledger) {n : ν} (hnew : ledger n = [])
    (c : Clock τ) (h : script.Reaches (.fresh n c) s) : ∃ xs, script.Mirrors ledger xs s := by
  induction h with
  | refl => exact ⟨[], mirrors_fresh hnew c⟩
  | start roles _ fresh ih =>
    obtain ⟨xs, hxs⟩ := ih
    refine ⟨xs, hxs.later hrec (moves_startRoles roles _ fresh rfl)
      (sameRecord_startRoles roles _ _) ((adds_startRoles roles _ _).mono fun y hy => ?_)⟩
    exact Event.accepted?_of_attempt? hy.1
  | perform r hreach ih =>
    obtain ⟨xs, hxs⟩ := ih
    obtain ⟨steps, out, hwalk⟩ := walk_perform script r _
    have acc := Accounted.nil.moves (moves_of_reaches hreach)
    obtain ⟨done, -, -, hdone⟩ := hwalk.mirrors hrec acc hxs
    exact ⟨_, hdone⟩
  | pass c _ ih =>
    obtain ⟨xs, hxs⟩ := ih
    exact ⟨xs, hxs.later hrec (.single (.pass c)) rfl (refl_of (World.Adds _) _)⟩

/-- **The record of a session mirrors the ledger of its node**, if the ledger was empty when the
session began, whatever has been asked of the session since: entry by entry the two agree
(`Entry.Agrees`).  A run goes on with it: it adds one entry for each of its submissions up to where
it ends, and if it ends well it gives the whole record and has an entry for every submission.  At
every point between two steps there is one entry for each submission before that point. -/
theorem record_mirrors_ledger (hrec : script.node.Records ledger) {n : ν} (hnew : ledger n = [])
    (c : Clock τ) (h : script.Reaches (.fresh n c) s) :
    (∃ xs, script.Mirrors ledger xs s) ∧
      ∀ xs, script.Mirrors ledger xs s → ∀ phases out t, (script.run phases).runOn s = (out, t) →
        (∃ done, done <+: submissions (phases.flatMap Phase.steps) ∧
          script.Mirrors ledger (xs ++ done) t ∧
          ∀ sent, out = .ok sent →
            sent = t.sent ∧ done = submissions (phases.flatMap Phase.steps)) ∧
        ∀ before after, phases.flatMap Phase.steps = before ++ after →
          (∃ m, Walk script before s (.ok ()) m ∧ Walk script after m (out.map fun _ => ()) t ∧
            script.Mirrors ledger (xs ++ submissions before) m) ∨
          ∃ f, out = .error f ∧ Walk script before s (.error f) t := by
  have acc : Accounted s.nonces s.world.journal := Accounted.nil.moves (moves_of_reaches h)
  refine ⟨mirrors_of_reaches hrec hnew c h, fun xs hxs phases out t hrun => ?_⟩
  have hwalk := walk_run hrun
  refine ⟨?_, fun before after hsteps => ?_⟩
  · obtain ⟨done, hprefix, hdone, ht⟩ := hwalk.mirrors hrec acc hxs
    refine ⟨done, hprefix, ht, ?_⟩
    rintro sent rfl
    exact ⟨sent_of_run hrun, hdone rfl⟩
  · rw [hsteps] at hwalk
    rcases hwalk.append_cases with ⟨m, hbefore, hafter⟩ | ⟨f, hf, hbefore⟩
    · obtain ⟨done, -, hdone, hm⟩ := hbefore.mirrors hrec acc hxs
      rw [hdone rfl] at hm
      exact Or.inl ⟨m, hbefore, hafter, hm⟩
    · cases out with
      | ok sent => cases hf
      | error g => exact Or.inr ⟨f, congrArg _ (Except.error.inj hf), hbefore⟩

/-- Two roles of one account, on a node that refuses one attempt, includes late, and on which
somebody else uses the account. -/
def aliased : Script Sequential.State Value where
  node := Sequential.node
    { failures := [(1, .refused (.text "busy"))], bumps := [(3, "a")], includeAfter := 2 }
  accounts := ⟨[("root", ⟨"a", true⟩), ("owner", ⟨"a", true⟩)]⟩
  barrierTimeout := .int 1
  pollInterval := .int 1

set_option maxRecDepth 10000 in
/-- A run whose second submission is refused, and one more whose second comes too late for its
nonce: one entry of each has been taken. -/
theorem record_mirrors_ledger_aliased :
    let s : Session Sequential.State Value := .fresh (.ofNonces ⟨[("a", 5)]⟩) { now := .int 0 }
    let remark : Submit := ⟨"owner", "System", "remark", .absent, .null⟩
    let asRoot : Submit := ⟨"root", "System", "remark", .absent, .bool true⟩
    let t := ((aliased.run [⟨"one", [.submit asRoot, .submit remark]⟩]).runOn s).2
    let u := ((aliased.run [⟨"two", [.submit remark, .submit asRoot]⟩]).runOn t).2
    u.sent.map Sent.call = ["Sudo(System.remark)", "System.remark"] ∧
      u.sent.map Sent.nonce = [5, 6] ∧ aliased.node.ComposesPlainly ∧
      ∃ xs, aliased.Mirrors Sequential.State.accepted xs u := by
  intro s remark asRoot t u
  have hreach : aliased.Reaches s u := by
    have hstart : aliased.Reaches s s := .refl
    have hone := hstart.perform (.run [⟨"one", [.submit asRoot, .submit remark]⟩])
    have htwo := hone.perform (.run [⟨"two", [.submit remark, .submit asRoot]⟩])
    rwa [perform_run, perform_run] at htwo
  have hmirrors := (record_mirrors_ledger (Sequential.records_node _) rfl _ hreach).1
  refine ⟨?_, ?_, Sequential.composesPlainly_node _, hmirrors⟩ <;> decide +kernel

end Script

end Campaign
