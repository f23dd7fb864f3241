import Campaign.Proofs.Steps
import Mathlib.Logic.Relation

/-!
# The moves of a session

Whatever is asked of a session, it goes through moves of eight kinds, and `Session.Move` lists them:
a notice, the passing of time, a look at a nonce, the composing of a call, the signing of an
extrinsic, its refusal, its acceptance, and the tracking of an account.  An extrinsic is only ever
attempted with the nonce that is tracked for its address, and an account is only tracked while
nothing has been attempted from it.

`Script.Reaches` are the sessions that a caller can bring about, with any requests in any order,
each of which may fail.  `moves_of_reaches` turns them into moves, so that an invariant of runs
needs one case for each kind of move and no look at the steps and phases that runs are made of.
-/

namespace Campaign

open Act

variable {ν τ : Type}

namespace Session

/-- **What can happen to a session**, one thing at a time. -/
inductive Move (node : Node ν τ) (s : Session ν τ) : Session ν τ → Prop
  | note (n : Notice τ) (plain : (Event.noticed n).tracked? = none) : Move node s (s.noted n)
  | pass (c : Clock τ) : Move node s { s with world := { s.world with clock := c } }
  | look {a : String} {answer : Except Fault (Option Value)} {n : ν}
      (h : (node.query s.world.clock.now "System" "Account" (.list [.text a])).runOn s.world.node =
        (answer, n)) : Move node s (s.after n (.look a answer))
  | compose {pallet function params : Value} {answer : Except Fault Value} {n : ν}
      (h : (node.compose pallet function params).runOn s.world.node = (answer, n)) :
      Move node s (s.after n (.composed pallet function params answer))
  | sign {e : Extrinsic} {answer : Except Fault Unit} {n : ν}
      (due : s.nonces.get? (.text e.address) = some e.nonce)
      (h : (node.sign e).runOn s.world.node = (answer, n)) :
      Move node s (s.after n (.signed e answer))
  | refuse {e : Extrinsic} {f : Fault} {n : ν}
      (due : s.nonces.get? (.text e.address) = some e.nonce)
      (h : (node.submit e).runOn s.world.node = (.error f, n)) :
      Move node s (s.after n (.submitted e (.error f)))
  | accept {e : Extrinsic} {hash : Option String} {n : ν} (role : Value) (call : String)
      (due : s.nonces.get? (.text e.address) = some e.nonce)
      (h : (node.submit e).runOn s.world.node = (.ok hash, n)) :
      Move node s ((s.after n (.submitted e (.ok hash))).taking e role call hash)
  | track {a : String} {answer : Except Fault (Option Value)} {n : ν} {v : Int}
      (fresh : s.nonces.get? (.text a) = none ∨ History.Unattempted a s.world.journal)
      (h : (node.query s.world.clock.now "System" "Account" (.list [.text a])).runOn s.world.node =
        (answer, n))
      (hv : answer.bind Client.nonceOf = .ok v) :
      Move node s ((s.after n (.look a answer)).tracking a v)

/-- Any number of moves. -/
abbrev Moves (node : Node ν τ) : Session ν τ → Session ν τ → Prop :=
  Relation.ReflTransGen (Move node)

/-! ### Actions on the world -/

/-- A relation on sessions as one on their worlds, whatever else the sessions hold. -/
def Onto (R : Session ν τ → Session ν τ → Prop) (w v : World ν τ) : Prop :=
  ∀ nonces sent, R ⟨w, nonces, sent⟩ ⟨v, nonces, sent⟩

instance (R : Session ν τ → Session ν τ → Prop) [IsPreorder (Session ν τ) R] :
    IsPreorder (World ν τ) (Onto R) where
  refl _ _ _ := refl_of R _
  trans _ _ _ h g nonces sent := trans_of R (h nonces sent) (g nonces sent)

theorem keeps_inWorld {α : Type} {R : Session ν τ → Session ν τ → Prop} {act : Act (World ν τ) α}
    (h : Keeps (Onto R) act) : Keeps R (inWorld act) :=
  keeps_within fun s => h s.world s.nonces s.sent

variable {node : Node ν τ}

theorem moves_note {n : Notice τ} (plain : (Event.noticed n).tracked? = none) :
    Keeps (Onto (Moves node)) (World.note n) :=
  fun _ _ _ => .single (.note n plain)

theorem moves_sleep [Seconds τ] (length : τ) :
    Keeps (Onto (Moves node)) (World.sleep (ν := ν) length) := by
  intro w nonces sent
  obtain ⟨c, hc⟩ := World.sleep_clock length w
  rw [hc]
  exact .single (.pass c)

theorem moves_compose (pallet function params : Value) :
    Keeps (Onto (Moves node)) (Client.compose node pallet function params) := by
  intro w nonces sent
  rw [Client.compose, World.runOn_call]
  exact .single (.compose (s := ⟨w, nonces, sent⟩) rfl)

theorem moves_waitForNonce [Seconds τ] (a : String) (target : Int) (timeout interval : τ) :
    Keeps (Onto (Moves node))
      (Client.waitForNonce node (.text a) (.int target) timeout interval none) := by
  refine keeps_of fun w v out h => ?_
  rcases Client.waitForNonce_cases (R := Onto (Moves node))
    (fun n _ hn _ _ => .single (.note n hn.2)) (fun c _ _ _ => .single (.pass c))
    (fun _ _ _ hq _ _ _ => .single (.look hq)) h with
    ⟨-, m, answer, n, r, hm, hq, -, -, rfl⟩ | ⟨-, hR⟩
  · intro nonces sent
    exact ((hm nonces sent).tail (.look hq)).tail (.note _ rfl)
  · exact hR

/-! ### Tracking -/

theorem moves_startTracking {a : String} {s t : Session ν τ} {out : Except Fault Int}
    (fresh : s.nonces.get? (.text a) = none ∨ History.Unattempted a s.world.journal)
    (h : (startTracking node (.text a)).runOn s = (out, t)) : Moves node s t := by
  obtain ⟨answer, n, hq, hend⟩ := startTracking_cases h
  rcases hend with ⟨v, hv, -, rfl⟩ | ⟨f, -, -, rfl⟩
  · exact .single (.track fresh hq hv)
  · exact .single (.look hq)

theorem unattempted_of_startTracking {a b : String} {s t : Session ν τ} {out : Except Fault Int}
    (h : (startTracking node (.text a)).runOn s = (out, t))
    (hb : History.Unattempted b s.world.journal) : History.Unattempted b t.world.journal := by
  obtain ⟨answer, n, -, hend⟩ := startTracking_cases h
  rcases hend with ⟨v, -, -, rfl⟩ | ⟨f, -, -, rfl⟩
  · exact (History.unattempted_cons_of_none rfl).mpr
      ((History.unattempted_cons_of_none rfl).mpr hb)
  · exact (History.unattempted_cons_of_none rfl).mpr hb

end Session

namespace Script

open Session

variable {script : Script ν τ}

theorem moves_ensureTracked (a : String) : Keeps (Moves script.node) (script.ensureTracked a) := by
  refine keeps_of fun s t out h => ?_
  rcases ensureTracked_cases h with ⟨-, -, rfl⟩ | ⟨hnew, r, hstart, -⟩
  · exact .refl
  · refine moves_startTracking (Or.inl ?_) hstart
    simpa [Table.has] using hnew

theorem moves_composeCall (x : Submit) (params : Value) :
    Keeps (Onto (Moves script.node)) (script.composeCall x params) :=
  keeps_bind (moves_compose _ _ _) fun _ => keeps_ite (moves_compose _ _ _) (keeps_pure _)

theorem moves_prepare (x : Submit) : Keeps (Moves script.node) (script.prepare x) := by
  refine keeps_bind (keeps_ofExcept _) fun a => ?_
  refine keeps_bind (moves_ensureTracked a) fun _ => ?_
  refine keeps_bind keeps_get fun _ => ?_
  refine keeps_bind (keeps_ofExcept _) fun params => ?_
  refine keeps_bind (keeps_inWorld (moves_composeCall x params)) fun call => ?_
  refine keeps_bind (keeps_bind keeps_get fun _ => keeps_ofExcept _) fun nonce => ?_
  refine keeps_bind (keeps_inWorld (moves_note rfl)) fun _ => ?_
  exact keeps_pure _

theorem moves_send {x : Submit} {e : Extrinsic} {s t : Session ν τ}
    {out : Except Fault (Option String)} (due : s.nonces.get? (.text e.address) = some e.nonce)
    (h : (script.send x e).runOn s = (out, t)) : Moves script.node s t := by
  rcases send_cases due h with ⟨f, n, hs, -, rfl⟩ | ⟨n, hs, ⟨f, n', hsub, -, rfl⟩ |
    ⟨hash, n', hsub, -, rfl⟩⟩
  · exact .single (.sign due hs)
  · exact (Relation.ReflTransGen.single (.sign due hs)).tail (.refuse due hsub)
  · exact (Relation.ReflTransGen.single (.sign due hs)).tail
      (.accept x.account x.callName due hsub)

theorem moves_submit (x : Submit) : Keeps (Moves script.node) (script.submit x) := by
  refine keeps_of fun s t out hrun => ?_
  rw [submit_eq] at hrun
  rcases bind_cases hrun with ⟨e, m, hprep, hsend⟩ | ⟨f, hprep, -⟩
  · obtain ⟨-, due, -⟩ := prepare_ok hprep
    exact ((moves_prepare x).of_runOn hprep).trans (moves_send due hsend)
  · exact (moves_prepare x).of_runOn hprep

theorem moves_startRoles : ∀ (roles : List Value) (started : Table Value Int) {s t : Session ν τ}
    {out : Except Fault (Table Value Int)},
    (∀ role ∈ roles, ∀ a, script.address role = .ok a →
      History.Unattempted a s.world.journal) →
    (script.startRoles started roles).runOn s = (out, t) → Moves script.node s t := by
  intro roles
  induction roles with
  | nil =>
    intro started s t out _ h
    obtain ⟨-, rfl⟩ := Prod.mk.inj h
    exact .refl
  | cons role rest ih =>
    intro started s t out hfresh h
    -- one role: its address is looked up, read and tracked, and said
    have hone : ∀ m r, (script.startRole role).runOn s = (r, m) → Moves script.node s m ∧
        ∀ b, History.Unattempted b s.world.journal → History.Unattempted b m.world.journal := by
      intro m r hrole
      rcases bind_cases hrole with ⟨a, m₀, hkey, hrole⟩ | ⟨f, hkey, -⟩
      · rw [runOn_ofExcept] at hkey
        obtain ⟨haddr, rfl⟩ := Prod.mk.inj hkey
        have hfree := hfresh role (by simp) a haddr
        rcases bind_cases hrole with ⟨v, m₁, hstart, hrole⟩ | ⟨f, hstart, -⟩
        · rw [runOn_bind_ok (runOn_inWorld _ _)] at hrole
          obtain ⟨-, rfl⟩ := Prod.mk.inj hrole
          refine ⟨(moves_startTracking (Or.inr hfree) hstart).tail (.note _ rfl), fun b hb => ?_⟩
          exact (History.unattempted_cons_of_none rfl).mpr (unattempted_of_startTracking hstart hb)
        · exact ⟨moves_startTracking (Or.inr hfree) hstart,
            fun b hb => unattempted_of_startTracking hstart hb⟩
      · rw [runOn_ofExcept] at hkey
        obtain ⟨-, rfl⟩ := Prod.mk.inj hkey
        exact ⟨.refl, fun b hb => hb⟩
    rcases bind_cases h with ⟨v, m, hrole, h⟩ | ⟨f, hrole, -⟩
    · obtain ⟨hmoves, hkept⟩ := hone m _ hrole
      exact hmoves.trans
        (ih _ (fun r hr a ha => hkept a (hfresh r (by simp [hr]) a ha)) h)
    · exact (hone _ _ hrole).1

section

variable [Seconds τ]

theorem moves_wait (b : Barrier τ) : Keeps (Moves script.node) (script.wait b) := by
  refine keeps_of fun s t out h => ?_
  rcases wait_cases h with ⟨f, -, -, rfl⟩ | ⟨a, -, ⟨-, -, rfl⟩ |
    ⟨target, polled, w, -, hpoll, rfl, -⟩⟩
  · exact .refl
  · exact .refl
  · exact (moves_waitForNonce a target _ _).of_runOn hpoll s.nonces s.sent

theorem moves_execute (step : Step τ) : Keeps (Moves script.node) (script.execute step) := by
  cases step with
  | submit x => exact keeps_bind (moves_submit x) fun _ => keeps_pure _
  | barrier b => exact keeps_bind (moves_wait b) fun _ => keeps_pure _
  | pause seconds =>
    refine keeps_bind (keeps_inWorld ?_) fun _ => keeps_pure _
    exact keeps_bind (moves_note rfl) fun _ => moves_sleep seconds
  | other v => exact keeps_throw _

theorem moves_runPhase (phase : Phase τ) : Keeps (Moves script.node) (script.runPhase phase) := by
  refine keeps_bind (keeps_inWorld (moves_note rfl)) fun _ => ?_
  refine keeps_bind (keeps_runSteps (fun n _ plain => .single (.note n plain.2)) phase _ _ ?_)
    fun _ => keeps_inWorld (moves_note rfl)
  exact fun step _ => moves_execute step

theorem moves_run (phases : List (Phase τ)) : Keeps (Moves script.node) (script.run phases) :=
  keeps_run (fun n _ plain => .single (.note n plain.2)) phases
    fun _ _ step _ => moves_execute step

/-! ### Reachable sessions -/

/-- What a caller may ask of a script, beside starting it. -/
inductive Request (τ : Type) where
  | submit (x : Submit)
  | wait (b : Barrier τ)
  | execute (step : Step τ)
  | runPhase (phase : Phase τ)
  | run (phases : List (Phase τ))

/-- Does what a caller asks for. -/
def perform (script : Script ν τ) : Request τ → Act (Session ν τ) Unit
  | .submit x => do let _ ← script.submit x
  | .wait b => do let _ ← script.wait b
  | .execute step => do let _ ← script.execute step
  | .runPhase phase => script.runPhase phase
  | .run phases => do let _ ← script.run phases

/-- **The sessions that a caller can bring about**, with any requests in any order, each of which
may fail.  Roles are started before anything is sent from their accounts; requests may come at any
time. -/
inductive Reaches (script : Script ν τ) (s₀ : Session ν τ) : Session ν τ → Prop
  | refl : Reaches script s₀ s₀
  | start {s : Session ν τ} (roles : List Value) (h : Reaches script s₀ s)
      (fresh : ∀ role ∈ roles, ∀ a, script.address role = .ok a →
        History.Unattempted a s.world.journal) :
      Reaches script s₀ ((script.startRoles .empty roles).runOn s).2
  | perform {s : Session ν τ} (r : Request τ) (h : Reaches script s₀ s) :
      Reaches script s₀ ((script.perform r).runOn s).2
  | pass {s : Session ν τ} (c : Clock τ) (h : Reaches script s₀ s) :
      Reaches script s₀ { s with world := { s.world with clock := c } }

theorem moves_perform (r : Request τ) : Keeps (Moves script.node) (script.perform r) := by
  cases r with
  | submit x => exact keeps_bind (moves_submit x) fun _ => keeps_pure _
  | wait b => exact keeps_bind (moves_wait b) fun _ => keeps_pure _
  | execute step => exact keeps_bind (moves_execute step) fun _ => keeps_pure _
  | runPhase phase => exact moves_runPhase phase
  | run phases => exact keeps_bind (moves_run phases) fun _ => keeps_pure _

theorem moves_of_reaches {s₀ s : Session ν τ} (h : script.Reaches s₀ s) :
    Moves script.node s₀ s := by
  induction h with
  | refl => exact .refl
  | start roles _ fresh ih => exact ih.trans (moves_startRoles roles _ fresh rfl)
  | perform r _ ih => exact ih.trans (moves_perform r _)
  | pass c _ ih => exact ih.tail (.pass c)

end

end Script

end Campaign
