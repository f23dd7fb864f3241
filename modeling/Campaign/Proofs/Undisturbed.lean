import Campaign.Proofs.Mirror
import Campaign.Proofs.Pacing
import Campaign.Proofs.SharedNode

/-!
# Submissions from different addresses commute

On a node that takes nonces in sequence and that nobody else uses, a run whose parameters are all
given beforehand comes to its end, and what it leaves of an address depends on the submissions from
that address alone: `Undisturbed` gives it in closed form.  In what order the addresses take turns
does not matter, nor how often accounts are read in between, be it to track them or to wait for
them, although every read may include extrinsics of other addresses.

Each step goes on with the closed form (`submit_undisturbed`, `wait_undisturbed`), so that a run
ends with it (`Walk.undisturbed`), and two runs with the same submissions from each address leave
the same (`submissions_commute`).
-/

namespace Campaign

open Act History

variable {τ : Type}

namespace Submit

/-- The parameters of a step are given beforehand. -/
def Fixed (x : Submit) : Prop := ∀ make, x.params ≠ .deferred make

/-- The call of a step whose parameters are given beforehand. -/
def fixedCall (x : Submit) : Value :=
  x.callWith (match x.params with
    | .given v => v
    | _ => .null)

theorem Fixed.resolve {x : Submit} (h : x.Fixed) (tracker : Tracker) :
    ∃ params, x.params.resolve tracker = .ok params ∧ x.callWith params = x.fixedCall := by
  rw [fixedCall]
  cases hparams : x.params with
  | absent => exact ⟨_, rfl, rfl⟩
  | given v => exact ⟨v, rfl, rfl⟩
  | deferred make => exact absurd hparams (h make)

end Submit

/-! ### The node -/

namespace Sequential

/-- What a node has taken from an address: nonces and calls, in order. -/
def takenFrom (a : String) (n : State) : List (Int × Value) :=
  (n.accepted.filter fun e => e.address = a).map fun e => (e.nonce, e.call)

theorem accepted_taken (setup : Setup τ) (e : Extrinsic) (n : State) :
    (taken setup e n).accepted = n.accepted ++ [e] := by
  simp only [taken, accept, runOn]
  split <;> rfl

theorem takenFrom_taken (setup : Setup τ) (e : Extrinsic) (a : String) (n : State) :
    takenFrom a (taken setup e n) =
      if e.address = a then takenFrom a n ++ [(e.nonce, e.call)] else takenFrom a n := by
  rw [takenFrom, accepted_taken, List.filter_append, List.map_append]
  split
  · rename_i ha
    simp [takenFrom, ha]
  · rename_i ha
    simp [takenFrom, ha]

variable [Seconds τ] {setup : Setup τ}

/-- A node that lets nothing fail takes the next nonce. -/
theorem submit_next (htruth : setup.Truthful) (hfail : setup.failures = []) {e : Extrinsic}
    {n : State} (hn : e.nonce = next e.address n) :
    ∃ hash, ((node setup).submit e).runOn n =
      (.ok hash, taken setup e { n with attempts := n.attempts + 1 }) := by
  rcases hrun : ((node setup).submit e).runOn n with ⟨answer, m⟩
  rcases submit_cases htruth hrun with ⟨hash, rfl, -, rfl⟩ | ⟨f, -, -, hwhy⟩
  · exact ⟨hash, rfl⟩
  · exact absurd hn (hwhy hfail)

end Sequential

open Campaign.Sequential

namespace Script

variable {script : Script State τ}

/-! ### The closed form -/

/-- The addresses of some roles. -/
def addresses (script : Script State τ) (roles : List Value) : List String :=
  roles.filterMap fun role => (script.address role).toOption

/-- Every role of a script is known. -/
theorem known_keys (script : Script State τ) :
    ∀ role ∈ script.accounts.keys.map Value.text, ∃ a, script.address role = .ok a := by
  have hfind : ∀ (entries : List (String × Key)) (k : String), k ∈ entries.map (·.1) →
      ∃ key, Table.find? k entries = some key := by
    intro entries k
    induction entries with
    | nil => simp
    | cons e rest ih =>
      intro hk
      rw [Table.find?]
      by_cases he : e.1 = k
      · exact ⟨e.2, by simp [he]⟩
      · obtain ⟨key, hkey⟩ := ih (by simpa [show k ≠ e.1 from fun h => he h.symm] using hk)
        exact ⟨key, by simp [he, hkey]⟩
  intro role hrole
  obtain ⟨k, hk, rfl⟩ := List.mem_map.mp hrole
  obtain ⟨key, hkey⟩ := hfind script.accounts.entries k hk
  refine ⟨key.address, ?_⟩
  have hrole : script.accounts.key? (.text k) = .ok (some key) :=
    congrArg Except.ok (show script.accounts.get? k = some key from hkey)
  rw [address, Script.key, hrole]
  rfl

/-- The addresses that some submissions are from. -/
def senders (script : Script State τ) (xs : List Submit) : List String :=
  script.addresses (xs.map Submit.account)

/-- The submissions from an address. -/
def sentFrom (script : Script State τ) (a : String) (xs : List Submit) : List Submit :=
  xs.filter fun x => (script.address x.account).toOption = some a

/-- The nonces and calls of some submissions from one address, the first with a given nonce. -/
def numbered (first : Int) (xs : List Submit) : List (Int × Value) :=
  xs.zipIdx.map fun p => (first + (p.2 : Int), p.1.fixedCall)

theorem numbered_append (first : Int) (xs : List Submit) (x : Submit) :
    numbered first (xs ++ [x]) = numbered first xs ++ [(first + xs.length, x.fixedCall)] := by
  simp [numbered, List.zipIdx_append]

theorem senders_append {x : Submit} {a : String} (haddr : script.address x.account = .ok a)
    (xs : List Submit) : script.senders (xs ++ [x]) = script.senders xs ++ [a] := by
  simp [senders, addresses, haddr, Except.toOption]

theorem sentFrom_append {x : Submit} {b : String} (haddr : script.address x.account = .ok b)
    (a : String) (xs : List Submit) : script.sentFrom a (xs ++ [x]) =
      if b = a then script.sentFrom a xs ++ [x] else script.sentFrom a xs := by
  rw [sentFrom, List.filter_append]
  split
  · rename_i hb
    simp [sentFrom, haddr, hb, Except.toOption]
  · rename_i hb
    simp [sentFrom, haddr, hb, Except.toOption]

/-- **What a run leaves that nothing disturbs**, in closed form: with given nonces on chain at its
beginning, some addresses started, and some submissions done. -/
structure Undisturbed (script : Script State τ) (chain : Table String Int) (started : List String)
    (done : List Submit) (nonces : Tracker) (n : State) : Prop where
  /-- The pool has moved on by one with every submission from an address. -/
  pool : ∀ a, next a n = (chain.get? a).getD 0 + (script.sentFrom a done).length
  /-- What was taken from an address are its submissions, numbered. -/
  ledger : ∀ a, takenFrom a n = numbered ((chain.get? a).getD 0) (script.sentFrom a done)
  /-- The pool's next nonce is tracked for the addresses that were started or have sent. -/
  tracker : ∀ a, nonces.get? (.text a) =
    if a ∈ started ++ script.senders done then some (next a n) else none
  /-- Nothing waits for inclusion from an address that has not sent. -/
  idle : ∀ a, a ∉ script.senders done → Idle a n

namespace Undisturbed

variable {chain : Table String Int} {started : List String} {done : List Submit}
  {nonces : Tracker} {n : State}

theorem fresh (chain : Table String Int) :
    script.Undisturbed chain [] [] .empty (.ofNonces chain) where
  pool _ := (Int.add_zero _).symm
  ledger _ := rfl
  tracker _ := rfl
  idle _ _ := ⟨rfl, fun _ hw => by cases hw⟩

/-- Which addresses are tracked is all that matters of those that were started. -/
theorem congr (h : script.Undisturbed chain started done nonces n) {others : List String}
    (hsame : ∀ a, a ∈ others ++ script.senders done ↔ a ∈ started ++ script.senders done) :
    script.Undisturbed chain others done nonces n where
  pool := h.pool
  ledger := h.ledger
  tracker a := by
    rw [h.tracker a]
    simp only [hsame]
  idle := h.idle

/-- A read changes nothing that counts. -/
theorem read (h : script.Undisturbed chain started done nonces n) :
    script.Undisturbed chain started done nonces (countRead n) where
  pool := h.pool
  ledger := h.ledger
  tracker := h.tracker
  idle a ha := (h.idle a ha).countRead

/-- A read tells the next nonce of an address that has not sent. -/
theorem track (h : script.Undisturbed chain started done nonces n) {a : String}
    (hnew : a ∉ script.senders done) :
    script.Undisturbed chain (started ++ [a]) done
      (nonces.put (.text a) (onChain a (countRead n))) (countRead n) where
  pool := h.read.pool
  ledger := h.read.ledger
  idle := h.read.idle
  tracker b := by
    rw [Tracker.get?_put_text]
    by_cases hb : a = b
    · subst hb
      rw [if_pos rfl, if_pos (by simp), (h.idle a hnew).countRead.1]
    · rw [if_neg hb, h.read.tracker b]
      have hmem : b ∈ started ++ [a] ++ script.senders done ↔
          b ∈ started ++ script.senders done := by
        simp [show b ≠ a from fun hba => hb hba.symm]
      simp only [hmem]

/-- A submission with the next nonce is taken, and the next one is tracked. -/
theorem take (h : script.Undisturbed chain started done nonces n) (setup : Setup τ) {x : Submit}
    {e : Extrinsic} (haddr : script.address x.account = .ok e.address)
    (hnonce : e.nonce = next e.address n) (hcall : e.call = x.fixedCall) (attempts : Nat) :
    script.Undisturbed chain started (done ++ [x])
      (nonces.put (.text e.address) (e.nonce + 1)) (taken setup e { n with attempts }) where
  pool a := by
    rw [next_taken, sentFrom_append haddr]
    split
    · rename_i ha
      subst ha
      rw [hnonce, h.pool, List.length_append, List.length_singleton]
      push_cast
      ring
    · exact h.pool a
  ledger a := by
    rw [takenFrom_taken, sentFrom_append haddr]
    split
    · rename_i ha
      subst ha
      rw [numbered_append, ← h.pool, ← h.ledger, hnonce, hcall]
      rfl
    · exact h.ledger a
  tracker a := by
    rw [Tracker.get?_put_text, next_taken, senders_append haddr]
    by_cases ha : e.address = a
    · subst ha
      rw [if_pos rfl, if_pos rfl, if_pos (by simp)]
    · have hmem : a ∈ started ++ (script.senders done ++ [e.address]) ↔
          a ∈ started ++ script.senders done := by
        simp [show a ≠ e.address from fun hae => ha hae.symm]
      rw [if_neg ha, if_neg ha, h.tracker a]
      simp only [hmem]
      rfl
  idle a ha := by
    rw [senders_append haddr, List.mem_append, List.mem_singleton, not_or] at ha
    exact Idle.taken (h.idle a ha.1) fun hea => ha.2 hea.symm

end Undisturbed

/-! ### Submissions -/

section

variable [Seconds τ] {setup : Setup τ} {chain : Table String Int} {started : List String}
  {done : List Submit} {s : Session State τ}

theorem startTracking_undisturbed (htruth : setup.Truthful)
    (hnode : script.node = Sequential.node setup)
    (h : script.Undisturbed chain started done s.nonces s.world.node) {a : String}
    (hnew : a ∉ script.senders done) :
    ∃ v t, (Session.startTracking script.node (.text a)).runOn s = (.ok v, t) ∧
      script.Undisturbed chain (started ++ [a]) done t.nonces t.world.node ∧
        t.world.clock = s.world.clock := by
  rcases hrun : (Session.startTracking script.node (.text a)).runOn s with ⟨out, t⟩
  obtain ⟨answer, n, hq, hend⟩ := Session.startTracking_cases hrun
  rw [hnode, query_account htruth] at hq
  obtain ⟨rfl, rfl⟩ := Prod.mk.inj hq
  have hread : (Except.ok (some (ownRecord (onChain a (countRead s.world.node)))) :
      Except Fault (Option Value)).bind Client.nonceOf =
        .ok (onChain a (countRead s.world.node)) := rfl
  rw [hread] at hend
  rcases hend with ⟨v, hv, rfl, rfl⟩ | ⟨f, hf, -⟩
  · obtain rfl := Except.ok.inj hv
    exact ⟨_, _, rfl, h.track hnew, rfl⟩
  · cases hf

/-- An account is tracked once it has been seen to, whether it was before or not. -/
theorem ensureTracked_undisturbed (htruth : setup.Truthful)
    (hnode : script.node = Sequential.node setup)
    (h : script.Undisturbed chain started done s.nonces s.world.node) (a : String) :
    ∃ t, (script.ensureTracked a).runOn s = (.ok (), t) ∧
      script.Undisturbed chain (started ++ [a]) done t.nonces t.world.node := by
  rcases hrun : (script.ensureTracked a).runOn s with ⟨out, t⟩
  rcases ensureTracked_cases hrun with ⟨hhas, rfl, rfl⟩ | ⟨hnew, r, hstart, rfl⟩
  · refine ⟨_, rfl, h.congr fun b => ?_⟩
    have ha : a ∈ started ++ script.senders done := by
      rw [Table.has, h.tracker a] at hhas
      by_contra hnot
      rw [if_neg hnot] at hhas
      cases hhas
    simp only [List.mem_append, List.mem_singleton] at ha ⊢
    constructor
    · rintro ((hb | rfl) | hb)
      · exact Or.inl hb
      · exact ha
      · exact Or.inr hb
    · rintro (hb | hb)
      · exact Or.inl (Or.inl hb)
      · exact Or.inr hb
  · have hnot : a ∉ script.senders done := by
      intro ha
      rw [Table.has, h.tracker a, if_pos (List.mem_append_right _ ha)] at hnew
      cases hnew
    obtain ⟨v, t', hok, htrack, -⟩ := startTracking_undisturbed htruth hnode h hnot
    obtain ⟨rfl, rfl⟩ := Prod.mk.inj (hstart.symm.trans hok)
    exact ⟨_, rfl, htrack⟩

theorem composeCall_undisturbed (hnode : script.node = Sequential.node setup) (x : Submit)
    (params : Value) (w : World State τ) :
    ∃ v, (script.composeCall x params).runOn w = (.ok (x.callWith params), v) ∧
      v.node = w.node := by
  have hcompose : ∀ (pallet function fields : Value) (w : World State τ), ∃ event,
      (Client.compose script.node pallet function fields).runOn w =
        (.ok (composed pallet function (Client.orEmpty fields (.dict []))),
          w.after w.node event) := by
    intro pallet function fields w
    rw [Client.compose, World.runOn_call, hnode]
    exact ⟨_, rfl⟩
  obtain ⟨event, hinner⟩ := hcompose x.pallet x.function params w
  rw [composeCall, runOn_bind_ok hinner]
  by_cases hroot : x.asRoot.truthy
  · obtain ⟨event', houter⟩ := hcompose "Sudo" "sudo" (.object [("call", composed x.pallet
      x.function (Client.orEmpty params (.dict [])))]) (w.after w.node event)
    rw [if_pos hroot, Submit.callWith, if_pos hroot]
    exact ⟨_, houter, rfl⟩
  · rw [if_neg hroot, Submit.callWith, if_neg hroot]
    exact ⟨_, rfl, rfl⟩

theorem prepare_undisturbed (htruth : setup.Truthful)
    (hnode : script.node = Sequential.node setup)
    (h : script.Undisturbed chain started done s.nonces s.world.node) {x : Submit} {a : String}
    (haddr : script.address x.account = .ok a) (hfixed : x.Fixed) :
    ∃ e t, (script.prepare x).runOn s = (.ok e, t) ∧ e.address = a ∧ e.call = x.fixedCall ∧
      e.nonce = next a t.world.node ∧
      script.Undisturbed chain (started ++ [a]) done t.nonces t.world.node := by
  obtain ⟨m, htrack, hm⟩ := ensureTracked_undisturbed htruth hnode h a
  obtain ⟨params, hparams, hcall⟩ := hfixed.resolve m.nonces
  obtain ⟨w, hcompose, hsame⟩ := composeCall_undisturbed hnode x params m.world
  have hdue : m.nonces.get? (.text a) = some (next a w.node) := by
    rw [hm.tracker a, if_pos (by simp), hsame]
  have hpeek := Session.runOn_peekNonce a { m with world := w }
  simp only [hdue] at hpeek
  rw [prepare, haddr, runOn_bind_ok (runOn_ofExcept _ s), runOn_bind_ok htrack,
    runOn_bind_ok (runOn_get m), hparams, runOn_bind_ok (runOn_ofExcept _ m),
    runOn_bind_ok (by rw [Session.runOn_inWorld, hcompose]), runOn_bind_ok hpeek,
    runOn_bind_ok (Session.runOn_inWorld _ _)]
  refine ⟨_, _, rfl, rfl, hcall, rfl, ?_⟩
  show script.Undisturbed chain (started ++ [a]) done m.nonces w.node
  rw [hsame]
  exact hm

/-- **A submission goes well**, and is one more from its address. -/
theorem submit_undisturbed (htruth : setup.Truthful) (hfail : setup.failures = [])
    (hnode : script.node = Sequential.node setup)
    (h : script.Undisturbed chain started done s.nonces s.world.node) {x : Submit} {a : String}
    (haddr : script.address x.account = .ok a) (hfixed : x.Fixed) :
    ∃ hash t, (script.submit x).runOn s = (.ok hash, t) ∧
      script.Undisturbed chain started (done ++ [x]) t.nonces t.world.node := by
  obtain ⟨e, m, hprep, rfl, hcall, hnonce, hm⟩ := prepare_undisturbed htruth hnode h haddr hfixed
  obtain ⟨hash, hsub⟩ := submit_next htruth hfail hnonce
  rcases hrun : (script.submit x).runOn s with ⟨out, t⟩
  rw [submit_eq, runOn_bind_ok hprep] at hrun
  have htaken := hm.take setup haddr hnonce hcall (m.world.node.attempts + 1)
  rcases send_cases (prepare_ok hprep).2.1 hrun with ⟨f, n, hsign, -⟩ |
    ⟨n, hsign, ⟨f, n', hbad, -⟩ | ⟨hash', n', hok, rfl, rfl⟩⟩
  · rw [hnode] at hsign
    cases (Prod.mk.inj hsign).1
  · rw [hnode] at hsign hbad
    obtain ⟨-, rfl⟩ := Prod.mk.inj hsign
    rw [hsub] at hbad
    cases (Prod.mk.inj hbad).1
  · rw [hnode] at hsign hok
    obtain ⟨-, rfl⟩ := Prod.mk.inj hsign
    rw [hsub] at hok
    obtain ⟨-, rfl⟩ := Prod.mk.inj hok
    refine ⟨_, _, rfl, htaken.congr fun b => ?_⟩
    rw [senders_append haddr]
    simp only [List.mem_append, List.mem_singleton]
    tauto

/-! ### Starting -/

/-- **Starting some roles goes well**, if they are known and nothing has been sent. -/
theorem startRoles_undisturbed (htruth : setup.Truthful)
    (hnode : script.node = Sequential.node setup) :
    ∀ (roles : List Value) (table : Table Value Int) {started : List String} {s : Session State τ},
      (∀ role ∈ roles, ∃ a, script.address role = .ok a) →
      script.Undisturbed chain started [] s.nonces s.world.node →
      ∃ table' t, (script.startRoles table roles).runOn s = (.ok table', t) ∧
        script.Undisturbed chain (started ++ script.addresses roles) [] t.nonces t.world.node ∧
          t.world.clock = s.world.clock := by
  intro roles
  induction roles with
  | nil =>
    intro table started s _ h
    refine ⟨table, s, rfl, ?_, rfl⟩
    rw [addresses, List.filterMap_nil, List.append_nil]
    exact h
  | cons role rest ih =>
    intro table started s hknown h
    obtain ⟨a, ha⟩ := hknown role (by simp)
    obtain ⟨v, m, hstart, hm, hclock⟩ := startTracking_undisturbed htruth hnode h
      (a := a) (by simp [senders, addresses])
    have hrole : (script.startRole role).runOn s = (.ok v, m.noted (.starting role a v)) := by
      rw [startRole, ha, runOn_bind_ok (runOn_ofExcept _ s), runOn_bind_ok hstart,
        runOn_bind_ok (Session.runOn_inWorld _ m)]
      rfl
    obtain ⟨table', t, hrest, ht, hclock'⟩ := ih (table.put role v)
      (fun r hr => hknown r (by simp [hr])) (s := m.noted (.starting role a v)) hm
    refine ⟨table', t, ?_, ?_, hclock'.trans hclock⟩
    · rw [startRoles, runOn_bind_ok hrole, hrest]
    · rw [List.append_assoc] at ht
      have hcons : script.addresses (role :: rest) = [a] ++ script.addresses rest := by
        simp [addresses, ha, Except.toOption]
      rwa [hcons]

end

/-! ### Barriers -/

/-- Only reads have been made between two states of a node. -/
def Rereads (w v : World State τ) : Prop :=
  Relation.ReflTransGen (fun n m => m = countRead n) w.node v.node

instance : IsPreorder (World State τ) Rereads where
  refl _ := .refl
  trans _ _ _ h g := h.trans g

theorem Undisturbed.reread {chain : Table String Int} {started : List String} {done : List Submit}
    {nonces : Tracker} {n m : State} (h : script.Undisturbed chain started done nonces n)
    (hreads : Relation.ReflTransGen (fun n m => m = countRead n) n m) :
    script.Undisturbed chain started done nonces m := by
  induction hreads with
  | refl => exact h
  | tail _ hread ih =>
    subst hread
    exact ih.read

end Script

namespace Script

variable {script : Script State ℚ} {setup : Setup ℚ} {chain : Table String Int}
  {started : List String} {done : List Submit} {s t : Session State ℚ}

theorem rereads_waitOn (htruth : setup.Truthful) (hnode : script.node = Sequential.node setup)
    (b : Barrier ℚ) (a : String) (target : Int) : Keeps Rereads (script.waitOn b a target) := by
  have hlook : ∀ (w : World State ℚ) answer n,
      ((Sequential.node setup).query w.clock.now "System" "Account"
        (.list [.text a])).runOn w.node = (answer, n) →
      Rereads w (w.after n (.look a answer)) := by
    intro w answer n hq
    rw [query_account htruth] at hq
    obtain ⟨-, rfl⟩ := Prod.mk.inj hq
    exact .single rfl
  refine keeps_of fun w v out h => ?_
  rw [waitOn, hnode] at h
  rcases Client.waitForNonce_cases (R := Rereads) (fun _ _ _ => .refl) (fun _ _ => .refl)
    (fun w answer n hq _ => hlook w answer n hq) h with
    ⟨-, m, answer, n, r, hm, hq, -, -, rfl⟩ | ⟨-, hreads⟩
  · exact hm.trans (hlook m answer n hq)
  · exact hreads

/-- **A barrier that is not strict goes well**, and changes nothing that counts. -/
theorem wait_undisturbed (htruth : setup.Truthful) (hnode : script.node = Sequential.node setup)
    (hinterval : 0 < script.pollInterval)
    (h : script.Undisturbed chain started done s.nonces s.world.node) {b : Barrier ℚ} {a : String}
    (haddr : script.address b.account = .ok a) (htracked : a ∈ started ++ script.senders done)
    (hlax : b.strict.truthy = false) (hsteady : s.world.clock.Steady)
    (hfits : s.world.clock.Fits (script.rounds (.barrier b))) :
    ∃ reached t, (script.wait b).runOn s = (.ok reached, t) ∧
      script.Undisturbed chain started done t.nonces t.world.node := by
  rcases hrun : (script.wait b).runOn s with ⟨out, t⟩
  rcases wait_cases hrun with ⟨f, hf, -⟩ | ⟨c, hc, ⟨hnone, -⟩ |
    ⟨target, polled, w, htarget, hpoll, rfl, rfl⟩⟩
  · rw [haddr] at hf
    cases hf
  · obtain rfl := Except.ok.inj (haddr.symm.trans hc)
    rw [h.tracker a, if_pos htracked] at hnone
    cases hnone
  · have hlook : ∀ w, ∃ found,
        ((Client.hasReached script.node c target).runOn w).1 = .ok found := by
      intro w
      rcases hlook : (Client.hasReached script.node c target).runOn w with ⟨out, v⟩
      obtain ⟨answer, n, hq, -, rfl⟩ := Client.hasReached_cases hlook
      rw [hnode, query_account htruth] at hq
      obtain ⟨rfl, -⟩ := Prod.mk.inj hq
      exact ⟨_, rfl⟩
    obtain ⟨reached, rfl⟩ := waitOn_ok hinterval hsteady hfits hlook hpoll
    have hsame := h.reread ((rereads_waitOn htruth hnode b c target).of_runOn hpoll)
    refine ⟨reached, { s with world := w }, ?_, hsame⟩
    rw [Except.bind, verdict, hlax, Bool.and_false]
    rfl

/-! ### Runs -/

/-- **Steps that nothing disturbs**: submissions under known roles, with parameters that are given
beforehand, and barriers that are not strict, on accounts that are tracked by then. -/
inductive Arranged (script : Script State ℚ) (started : List String) :
    List Submit → List (Step ℚ) → Prop
  | nil {done : List Submit} : Arranged script started done []
  | submit {done : List Submit} {x : Submit} {a : String} {steps : List (Step ℚ)}
      (haddr : script.address x.account = .ok a) (hfixed : x.Fixed)
      (rest : Arranged script started (done ++ [x]) steps) :
      Arranged script started done (.submit x :: steps)
  | barrier {done : List Submit} {b : Barrier ℚ} {a : String} {steps : List (Step ℚ)}
      (haddr : script.address b.account = .ok a) (htracked : a ∈ started ++ script.senders done)
      (hlax : b.strict.truthy = false) (rest : Arranged script started done steps) :
      Arranged script started done (.barrier b :: steps)

/-- **A step that nothing disturbs goes well**: it goes on with the closed form, and leaves room for
the sleeps of the steps after it. -/
theorem execute_undisturbed (htruth : setup.Truthful) (hfail : setup.failures = [])
    (hnode : script.node = Sequential.node setup) (hinterval : 0 < script.pollInterval)
    {step : Step ℚ} {steps : List (Step ℚ)}
    (harranged : script.Arranged started done (step :: steps))
    (hs : script.Undisturbed chain started done s.nonces s.world.node)
    (hsteady : s.world.clock.Steady)
    (hfits : s.world.clock.Fits (script.rounds step + (steps.map script.rounds).sum)) :
    ∃ r t, (script.execute step).runOn s = (.ok r, t) ∧
      script.Undisturbed chain started (done ++ step.submit?.toList) t.nonces t.world.node ∧
      script.Arranged started (done ++ step.submit?.toList) steps ∧
      t.world.clock.Steady ∧ t.world.clock.Fits (steps.map script.rounds).sum := by
  cases harranged with
  | @submit _ x a _ haddr hfixed rest =>
    obtain ⟨hash, t, hx, ht⟩ := submit_undisturbed htruth hfail hnode hs haddr hfixed
    have hstep : (script.execute (.submit x)).runOn s = (.ok (.receipt hash), t) := by
      rw [execute, runOn_bind_ok hx]
      rfl
    have hrests := (paced_execute hinterval le_rfl s t _ hstep hsteady).1
    exact ⟨_, t, hstep, ht, rest, hrests.steady hsteady, hrests.fits hfits⟩
  | @barrier _ b a _ haddr htracked hlax rest =>
    obtain ⟨reached, t, hb, ht⟩ := wait_undisturbed htruth hnode hinterval hs haddr htracked hlax
      hsteady (hfits.trans' (by omega))
    have hstep : (script.execute (.barrier b)).runOn s = (.ok (.reached reached), t) := by
      rw [execute, runOn_bind_ok hb]
      rfl
    have hrests := (paced_execute hinterval (le_max_left _ _) s t _ hstep hsteady).1
    have hnone : done ++ (Step.barrier b).submit?.toList = done := List.append_nil done
    rw [hnone]
    exact ⟨_, t, hstep, ht, rest, hrests.steady hsteady, hrests.fits hfits⟩

/-- **A walk that nothing disturbs comes to its end.** -/
theorem Walk.undisturbed (htruth : setup.Truthful) (hfail : setup.failures = [])
    (hnode : script.node = Sequential.node setup) (hinterval : 0 < script.pollInterval)
    {steps : List (Step ℚ)} {out : Except Fault Unit} (h : Walk script steps s out t)
    (harranged : script.Arranged started done steps)
    (hs : script.Undisturbed chain started done s.nonces s.world.node)
    (hsteady : s.world.clock.Steady) (hfits : s.world.clock.Fits (steps.map script.rounds).sum) :
    out = .ok () ∧
      script.Undisturbed chain started (done ++ submissions steps) t.nonces t.world.node := by
  induction h generalizing done with
  | done =>
    refine ⟨rfl, ?_⟩
    rwa [submissions, List.flatMap_nil, List.append_nil]
  | mark hn _ ih => exact ih harranged hs hsteady hfits
  | @step step steps s m t r out hstep _ ih =>
    obtain ⟨r', m', hok, hm, hrest, hsteady', hfits'⟩ := execute_undisturbed htruth hfail hnode
      hinterval harranged hs hsteady hfits
    obtain ⟨-, rfl⟩ := Prod.mk.inj (hstep.symm.trans hok)
    obtain ⟨hout, ht⟩ := ih hrest hm hsteady' hfits'
    refine ⟨hout, ?_⟩
    rwa [List.append_assoc] at ht
  | @stop step steps s m t f hstep ht =>
    obtain ⟨r', m', hok, -⟩ := execute_undisturbed htruth hfail hnode hinterval harranged hs hsteady
      hfits
    cases (Prod.mk.inj (hstep.symm.trans hok)).1

/-- **What a run leaves that nothing disturbs**: it comes to its end, with the closed form of all
its submissions. -/
theorem run_undisturbed (htruth : setup.Truthful) (hfail : setup.failures = [])
    (hnode : script.node = Sequential.node setup) (hinterval : 0 < script.pollInterval)
    (chain : Table String Int) {first : List Value}
    (hknown : ∀ role ∈ first, ∃ a, script.address role = .ok a) {phases : List (Phase ℚ)}
    (harranged : script.Arranged (script.addresses first) [] (phases.flatMap Phase.steps))
    {c : Clock ℚ} (hsteady : c.Steady)
    (hfits : c.Fits ((phases.flatMap Phase.steps).map script.rounds).sum) :
    ∃ sent t, (script.startRoles .empty first >>= fun _ => script.run phases).runOn
        (.fresh (.ofNonces chain) c) = (.ok sent, t) ∧
      script.Undisturbed chain (script.addresses first)
        (submissions (phases.flatMap Phase.steps)) t.nonces t.world.node := by
  obtain ⟨table, m, hstart, hm, hclock⟩ := startRoles_undisturbed htruth hnode first .empty
    (s := .fresh (.ofNonces chain) c) hknown (.fresh chain)
  rcases hrun : (script.run phases).runOn m with ⟨out, t⟩
  have hsteady' : m.world.clock.Steady := by rw [hclock]; exact hsteady
  have hfits' : m.world.clock.Fits ((phases.flatMap Phase.steps).map script.rounds).sum := by
    rw [hclock]
    exact hfits
  obtain ⟨hout, ht⟩ := (walk_run hrun).undisturbed htruth hfail hnode hinterval harranged hm
    hsteady' hfits'
  cases out with
  | ok sent => exact ⟨sent, t, by rw [runOn_bind_ok hstart, hrun], ht⟩
  | error f => cases hout

theorem mem_senders {a : String} {xs : List Submit} :
    a ∈ script.senders xs ↔ script.sentFrom a xs ≠ [] := by
  simp [senders, addresses, sentFrom, List.filter_eq_nil_iff]

/-- **Submissions from different addresses commute.**  Take two runs on a node that takes nonces in
sequence, lets nothing fail and is used by nobody else, each with some roles started first, in any
phases and with any barriers that are not strict in between.  If the submissions from each address
are the same in the same order, both runs come to their ends, and the node has taken the same from
each address and is at the same nonce.  What is tracked for an address is the same as well, unless
it was started in one of the runs only and sends nothing. -/
theorem submissions_commute (htruth : setup.Truthful) (hfail : setup.failures = [])
    (hnode : script.node = Sequential.node setup) (hinterval : 0 < script.pollInterval)
    (chain : Table String Int) {first first' : List Value}
    (hknown : ∀ role ∈ first, ∃ a, script.address role = .ok a)
    (hknown' : ∀ role ∈ first', ∃ a, script.address role = .ok a) {phases phases' : List (Phase ℚ)}
    (harranged : script.Arranged (script.addresses first) [] (phases.flatMap Phase.steps))
    (harranged' : script.Arranged (script.addresses first') [] (phases'.flatMap Phase.steps))
    (hsame : ∀ a, script.sentFrom a (submissions (phases.flatMap Phase.steps)) =
      script.sentFrom a (submissions (phases'.flatMap Phase.steps)))
    {c c' : Clock ℚ} (hsteady : c.Steady) (hsteady' : c'.Steady)
    (hfits : c.Fits ((phases.flatMap Phase.steps).map script.rounds).sum)
    (hfits' : c'.Fits ((phases'.flatMap Phase.steps).map script.rounds).sum) :
    ∃ sent t sent' t',
      (script.startRoles .empty first >>= fun _ => script.run phases).runOn
        (.fresh (.ofNonces chain) c) = (.ok sent, t) ∧
      (script.startRoles .empty first' >>= fun _ => script.run phases').runOn
        (.fresh (.ofNonces chain) c') = (.ok sent', t') ∧
      ∀ a, takenFrom a t.world.node = takenFrom a t'.world.node ∧
        next a t.world.node = next a t'.world.node ∧
        ((a ∈ script.addresses first ↔ a ∈ script.addresses first') ∨
            script.sentFrom a (submissions (phases.flatMap Phase.steps)) ≠ [] →
          t.nonces.get? (.text a) = t'.nonces.get? (.text a)) := by
  obtain ⟨sent, t, hrun, ht⟩ := run_undisturbed htruth hfail hnode hinterval chain hknown harranged
    hsteady hfits
  obtain ⟨sent', t', hrun', ht'⟩ := run_undisturbed htruth hfail hnode hinterval chain hknown'
    harranged' hsteady' hfits'
  have hnext : ∀ a, next a t.world.node = next a t'.world.node := fun a => by
    rw [ht.pool, ht'.pool, hsame]
  refine ⟨sent, t, sent', t', hrun, hrun', fun a => ⟨?_, hnext a, fun htracked => ?_⟩⟩
  · rw [ht.ledger, ht'.ledger, hsame]
  · have hiff : a ∈ script.addresses first ++ script.senders (submissions
        (phases.flatMap Phase.steps)) ↔ a ∈ script.addresses first' ++ script.senders (submissions
          (phases'.flatMap Phase.steps)) := by
      rw [List.mem_append, List.mem_append, mem_senders, mem_senders, ← hsame]
      tauto
    rw [ht.tracker, ht'.tracker, hnext]
    simp only [hiff]

/-- Three roles of two accounts, on a node that includes after four reads. -/
def crossing : Script State ℚ where
  node := Sequential.node { includeAfter := 4 }
  accounts := ⟨[("root", ⟨"a", true⟩), ("owner", ⟨"a", true⟩), ("user", ⟨"b", true⟩)]⟩
  barrierTimeout := 1
  pollInterval := 1 / 2

set_option maxRecDepth 10000 in
/-- All accounts started, and the user's submission last; no account started, and the user's
submission first, with two barriers for it. -/
theorem submissions_commute_crossing :
    let remark (role : String) : Submit :=
      ⟨.text role, "System", "remark", .given (.text role), .null⟩
    let wait (timeout : Option ℚ) : Step ℚ := .barrier ⟨"user", timeout, .null⟩
    let phases : List (Phase ℚ) := [⟨"one", [.submit (remark "root"), .submit (remark "owner")]⟩,
      ⟨"two", [.submit (remark "user")]⟩]
    let phases' : List (Phase ℚ) := [⟨"all", [.submit (remark "user"), wait (some 0),
      .submit (remark "root"), wait none, .submit (remark "owner")]⟩]
    let s : Session State ℚ := .fresh (.ofNonces ⟨[("a", 5)]⟩) { now := 0 }
    let t := ((crossing.start >>= fun _ => crossing.run phases).runOn s).2
    let t' := ((crossing.startRoles .empty [] >>= fun _ => crossing.run phases').runOn s).2
    (∀ a, takenFrom a t.world.node = takenFrom a t'.world.node) ∧
      t.nonces.get? "b" = t'.nonces.get? "b" ∧ t'.nonces.get? "a" = some 7 ∧
      (takenFrom "a" t'.world.node).map Prod.fst = [5, 6] ∧ t'.world.clock.slept = [1 / 2] := by
  intro remark wait phases phases' s t t'
  have hroot : crossing.address "root" = .ok "a" := rfl
  have howner : crossing.address "owner" = .ok "a" := rfl
  have huser : crossing.address "user" = .ok "b" := rfl
  have hfixed : ∀ role, (remark role).Fixed := fun role make h => by cases h
  have hsent : "b" ∈ crossing.addresses [] ++ crossing.senders [remark "user"] := by decide +kernel
  have hsent' : "b" ∈ crossing.addresses [] ++ crossing.senders [remark "user", remark "root"] := by
    decide +kernel
  have harranged : crossing.Arranged (crossing.addresses (crossing.accounts.keys.map .text)) []
      (phases.flatMap Phase.steps) :=
    .submit hroot (hfixed _) (.submit howner (hfixed _) (.submit huser (hfixed _) .nil))
  have harranged' : crossing.Arranged (crossing.addresses []) [] (phases'.flatMap Phase.steps) :=
    .submit huser (hfixed _) (.barrier huser hsent rfl (.submit hroot (hfixed _)
      (.barrier huser hsent' rfl (.submit howner (hfixed _) .nil))))
  have hsame : ∀ a, crossing.sentFrom a (submissions (phases.flatMap Phase.steps)) =
      crossing.sentFrom a (submissions (phases'.flatMap Phase.steps)) := by
    intro a
    have hfrom : ∀ {role b : String}, crossing.address role = .ok b →
        (crossing.address (remark role).account).toOption = some b :=
      fun haddr => congrArg Except.toOption haddr
    show [remark "root", remark "owner", remark "user"].filter _ =
      [remark "user", remark "root", remark "owner"].filter _
    simp only [List.filter_cons, List.filter_nil, hfrom hroot, hfrom howner, hfrom huser]
    by_cases ha : "a" = a
    · subst ha
      rfl
    · simp [ha]
  have hsteady : s.world.clock.Steady := rfl
  have hfits : ∀ n : ℕ, n ≤ 5000 → s.world.clock.Fits n := fun n hn => by
    rw [Clock.Fits]
    exact (Nat.zero_add n).trans_le hn
  have htruth : ({ includeAfter := 4 } : Setup ℚ).Truthful := ⟨rfl, rfl, rfl⟩
  obtain ⟨sent, u, sent', u', hrun, hrun', hboth⟩ := submissions_commute htruth rfl rfl
    (by norm_num [crossing]) ⟨[("a", 5)]⟩ (known_keys crossing) (by simp) harranged harranged' hsame
    hsteady hsteady (hfits _ (by decide +kernel)) (hfits _ (by decide +kernel))
  have ht : t = u := congrArg Prod.snd hrun
  have ht' : t' = u' := congrArg Prod.snd hrun'
  refine ⟨fun a => ?_, ?_, by decide +kernel, by decide +kernel, by decide +kernel⟩
  · rw [ht, ht']
    exact (hboth a).1
  · rw [ht, ht']
    exact (hboth "b").2.2 (Or.inr (mem_senders.mp (by decide +kernel)))

set_option maxRecDepth 10000 in
/-- One submission of root, with all accounts started before it and with none: the user, who sends
nothing, is tracked in the first of the runs only. -/
theorem idle_tracked_only_if_started :
    let phases : List (Phase ℚ) :=
      [⟨"one", [.submit ⟨"root", "System", "remark", .absent, .null⟩]⟩]
    let s : Session State ℚ := .fresh (.ofNonces ⟨[("a", 5)]⟩) { now := 0 }
    let run := (crossing.start >>= fun _ => crossing.run phases).runOn s
    let run' := (crossing.run phases).runOn s
    run.1.isOk = true ∧ run'.1.isOk = true ∧
      ¬ ∀ a, run.2.nonces.get? (.text a) = run'.2.nonces.get? (.text a) := by
  intro phases s run run'
  refine ⟨by decide +kernel, by decide +kernel, fun hsame => ?_⟩
  have hstarted : run.2.nonces.get? (.text "b") = some 0 := by decide +kernel
  have hidle : run'.2.nonces.get? (.text "b") = none := by decide +kernel
  rw [hsame "b", hidle] at hstarted
  cases hstarted

end Script

end Campaign
