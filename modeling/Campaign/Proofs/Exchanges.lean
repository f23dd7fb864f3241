import Campaign.Proofs.Steps

/-!
# What has been asked of the tracked nonces

Four things are asked of the tracked nonces of a session: to track an address from its nonce on
chain, to take its next nonce, to peek at it, and whether it is tracked.  An `Exchange` is such a
request with its outcome, good or bad.  `Asked` are the exchanges that a session can have been
through, the latest first, with any node; between two of them time may pass and others may use the
node.

The exchanges alone tell what is tracked.  `expected?` reads it off them: the nonce that tracking of
an address last began with, and one more for each nonce taken since.

* `exchange_cases`: what an exchange can be and what it does to the session, with one case for each
  way it can end.
* `Conduct`: what an exchange leaves alone, and when it fails.
* `Recounts`: the tracked nonces are the expected ones, every outcome is the one that the exchanges
  before it call for, and the node was read once for each start and used for nothing else.
* `nonces_follow_exchanges`: **every session recounts its exchanges, and every next one conducts
  itself.**
-/

namespace Campaign

open Act

variable {ν τ : Type}

/-- What may be asked of the tracked nonces. -/
inductive Ask where
  /-- Track an address from its nonce on chain. -/
  | start (a : String)
  /-- The next nonce of an address, which moves on. -/
  | take (a : String)
  /-- The next nonce of an address, which stays. -/
  | peek (a : String)
  /-- Whether an address is tracked. -/
  | check (a : String)

/-- Something asked of the tracked nonces, with its outcome. -/
inductive Exchange where
  | started (a : String) (outcome : Except Fault Int)
  | took (a : String) (outcome : Except Fault Int)
  | peeked (a : String) (outcome : Except Fault Int)
  | checked (a : String) (outcome : Except Fault Bool)

namespace Exchange

/-- The address that was asked about. -/
def address : Exchange → String
  | .started a _ | .took a _ | .peeked a _ | .checked a _ => a

/-- Whether nothing came of it. -/
def failed : Exchange → Bool
  | .started _ outcome | .took _ outcome | .peeked _ outcome => !outcome.isOk
  | .checked _ outcome => !outcome.isOk

/-- The address that was to be tracked, and what its nonce was read as. -/
def start? : Exchange → Option (String × Except Fault Int)
  | .started a outcome => some (a, outcome)
  | _ => none

/-- The nonce that an address is tracked from since. -/
def begun? (a : String) : Exchange → Option Int
  | .started b (.ok v) => if b = a then some v else none
  | _ => none

/-- Whether a nonce of an address was to be taken. -/
def isTake (a : String) : Exchange → Bool
  | .took b _ => b = a
  | _ => false

/-- An exchange about one address neither tracks nor takes for another. -/
theorem idle_of_ne {a : String} (x : Exchange) (ha : a ≠ x.address) :
    x.isTake a = false ∧ x.begun? a = none := by
  cases x with
  | started b outcome =>
    have hb : b ≠ a := Ne.symm ha
    cases outcome <;> simp [isTake, begun?, hb]
  | took b outcome =>
    have hb : b ≠ a := Ne.symm ha
    simp [isTake, begun?, hb]
  | peeked _ _ | checked _ _ => exact ⟨rfl, rfl⟩

end Exchange

/-- The address whose nonce an event reads, and what it is read as. -/
def Event.read? : Event τ → Option (String × Except Fault Int)
  | .queried (.text "System") (.text "Account") (.list [.text a]) answer =>
    some (a, answer.bind Client.nonceOf)
  | _ => none

/-! ### What is expected -/

/-- Exchanges, the latest first. -/
abbrev Exchanges := List Exchange

namespace Exchanges

/-- The nonce that tracking of an address last began with. -/
def begun? (a : String) (past : Exchanges) : Option Int := past.findSome? (Exchange.begun? a)

/-- The exchanges since tracking of an address last began. -/
def since (a : String) (past : Exchanges) : Exchanges :=
  past.takeWhile fun x => (x.begun? a).isNone

/-- **The next nonce of an address**, if it is tracked: the one that tracking last began with, and
one more for each that was to be taken since. -/
def expected? (a : String) (past : Exchanges) : Option Int :=
  (begun? a past).map (· + ((since a past).countP (Exchange.isTake a) : Int))

/-- A beginning cuts off all that came before it; else one more nonce is taken, or none. -/
theorem expected?_cons (a : String) (x : Exchange) (past : Exchanges) :
    expected? a (x :: past) =
      (x.begun? a).or ((expected? a past).map (· + if x.isTake a then 1 else 0)) := by
  cases hx : x.begun? a with
  | some v => simp [expected?, begun?, since, hx]
  | none =>
    simp only [expected?, begun?, since, List.findSome?_cons, hx, List.takeWhile_cons,
      Option.isNone_none, if_true, List.countP_cons, Option.none_or, Option.map_map]
    congr 1
    funext v
    simp only [Function.comp_apply]
    split <;> simp [Int.add_assoc]

/-- What neither begins nor takes changes no expectation. -/
theorem expected?_append_of_idle {a : String} {new past : Exchanges}
    (hnew : ∀ x ∈ new, x.isTake a = false ∧ x.begun? a = none) :
    expected? a (new ++ past) = expected? a past := by
  induction new with
  | nil => rfl
  | cons x new ih =>
    obtain ⟨htake, hbegun⟩ := hnew x (by simp)
    rw [List.cons_append, expected?_cons, hbegun, htake, ih fun y hy => hnew y (by simp [hy])]
    simp

/-- There is a next nonce exactly when tracking has begun. -/
theorem expected?_isSome {a : String} {past : Exchanges} :
    (expected? a past).isSome ↔ ∃ v, .started a (.ok v) ∈ past := by
  rw [expected?, Option.isSome_map, begun?, List.findSome?_isSome_iff]
  constructor
  · rintro ⟨x, hx, hbegun⟩
    unfold Exchange.begun? at hbegun
    split at hbegun
    · rename_i b v
      split at hbegun
      · rename_i hb
        exact ⟨v, hb ▸ hx⟩
      · cases hbegun
    · cases hbegun
  · rintro ⟨v, hv⟩
    exact ⟨_, hv, by simp [Exchange.begun?]⟩

end Exchanges

open Exchanges

/-- What a request for a nonce comes to: the nonce that is due, or the complaint that the address is
not tracked. -/
def nonceDue (a : String) : Option Int → Except Fault Int
  | some n => .ok n
  | none => .error (.untracked a)

theorem nonceDue_eq_ok {a : String} {due : Option Int} {n : Int} :
    nonceDue a due = .ok n ↔ due = some n := by
  cases due <;> simp [nonceDue]

theorem nonceDue_refused {a : String} {due : Option Int} :
    (∃ f, nonceDue a due = .error f ∧ f.kind = "NonceTrackerError") ↔ due.isSome = false := by
  cases due <;> simp [nonceDue, Fault.kind]

/-- The outcome is the one that the exchanges before call for.  What a start comes to is for the
node to say. -/
def Exchange.Fits (earlier : Exchanges) : Exchange → Prop
  | .started _ _ => True
  | .took a outcome | .peeked a outcome => outcome = nonceDue a (expected? a earlier)
  | .checked a outcome => outcome = .ok (expected? a earlier).isSome

/-! ### One exchange -/

namespace Session

/-- Asks something of the tracked nonces. -/
def exchange (node : Node ν τ) (s : Session ν τ) : Ask → Exchange × Session ν τ
  | .start a => ((startTracking node (.text a)).runOn s).map (.started a) id
  | .take a => ((takeNonce (.text a)).runOn s).map (.took a) id
  | .peek a => ((peekNonce (.text a)).runOn s).map (.peeked a) id
  | .check a => (.checked a (s.nonces.contains (.text a)), s)

/-- **What an exchange can be, and what it does.** -/
inductive Exchanged (node : Node ν τ) (s : Session ν τ) : Exchange → Session ν τ → Prop
  | started {a : String} {answer : Except Fault (Option Value)} {n : ν} {v : Int}
      (h : (node.query s.world.clock.now "System" "Account" (.list [.text a])).runOn s.world.node =
        (answer, n))
      (hv : answer.bind Client.nonceOf = .ok v) :
      Exchanged node s (.started a (.ok v)) ((s.after n (.look a answer)).tracking a v)
  | notStarted {a : String} {answer : Except Fault (Option Value)} {n : ν} {f : Fault}
      (h : (node.query s.world.clock.now "System" "Account" (.list [.text a])).runOn s.world.node =
        (answer, n))
      (hf : answer.bind Client.nonceOf = .error f) :
      Exchanged node s (.started a (.error f)) (s.after n (.look a answer))
  | took {a : String} {n : Int} (h : s.nonces.get? (.text a) = some n) :
      Exchanged node s (.took a (.ok n)) { s with nonces := s.nonces.put (.text a) (n + 1) }
  | notTaken {a : String} (h : s.nonces.get? (.text a) = none) :
      Exchanged node s (.took a (.error (.untracked a))) s
  | peeked (a : String) : Exchanged node s (.peeked a (nonceDue a (s.nonces.get? (.text a)))) s
  | checked (a : String) : Exchanged node s (.checked a (.ok (s.nonces.has (.text a)))) s

/-- Every request comes to one of these. -/
theorem exchange_cases (node : Node ν τ) (s : Session ν τ) (q : Ask) :
    Exchanged node s (exchange node s q).1 (exchange node s q).2 := by
  cases q with
  | start a =>
    rcases hrun : (startTracking node (.text a)).runOn s with ⟨out, t⟩
    obtain ⟨answer, n, hq, ⟨v, hv, rfl, rfl⟩ | ⟨f, hf, rfl, rfl⟩⟩ := startTracking_cases hrun
    · simpa only [exchange, hrun] using .started hq hv
    · simpa only [exchange, hrun] using .notStarted hq hf
  | take a =>
    cases hget : s.nonces.get? (.text a) with
    | some n => simpa only [exchange, runOn_takeNonce hget] using .took hget
    | none =>
      have hpeek : (peekNonce (.text a)).runOn s = (.error (.untracked a), s) := by
        rw [runOn_peekNonce, hget]
      have htake : (takeNonce (.text a)).runOn s = (.error (.untracked a), s) :=
        runOn_bind_error hpeek
      simpa only [exchange, htake] using .notTaken hget
  | peek a =>
    have hpeek : (peekNonce (.text a)).runOn s = (nonceDue a (s.nonces.get? (.text a)), s) := by
      rw [runOn_peekNonce]
      cases s.nonces.get? (.text a) <;> rfl
    simpa only [exchange, hpeek] using .peeked a
  | check a => exact .checked a

/-- **The exchanges that a session can have been through**, the latest first, with the session that
is left.  Meanwhile time may pass, and others may use the node. -/
inductive Asked (node : Node ν τ) (s₀ : Session ν τ) : Exchanges → Session ν τ → Prop
  | nothing : Asked node s₀ [] s₀
  | ask {past : Exchanges} {s : Session ν τ} (q : Ask) (h : Asked node s₀ past s) :
      Asked node s₀ ((exchange node s q).1 :: past) (exchange node s q).2
  | meanwhile {past : Exchanges} {s : Session ν τ} (n : ν) (c : Clock τ)
      (h : Asked node s₀ past s) :
      Asked node s₀ past { s with world := { s.world with node := n, clock := c } }

/-! ### What an exchange leaves alone, and when it fails -/

/-- **How an exchange conducts itself.** -/
structure Conduct (node : Node ν τ) (s : Session ν τ) (x : Exchange) (t : Session ν τ) : Prop where
  /-- It concerns no other address. -/
  others : ∀ b, b ≠ x.address → t.nonces.get? (.text b) = s.nonces.get? (.text b)
  /-- If it fails, it leaves all tracked nonces as they were. -/
  failed : x.failed → t.nonces = s.nonces
  /-- A nonce is refused exactly where the address is not tracked. -/
  refused : ∀ a outcome, x = .took a outcome ∨ x = .peeked a outcome →
    ((∃ f, outcome = .error f ∧ f.kind = "NonceTrackerError") ↔
      s.nonces.has (.text a) = false)
  /-- A start queries the record of the address once. -/
  read : ∀ a outcome, x.start? = some (a, outcome) → ∃ answer,
    (node.query s.world.clock.now "System" "Account" (.list [.text a])).runOn s.world.node =
        (answer, t.world.node) ∧
      outcome = answer.bind Client.nonceOf ∧ t.world.clock = s.world.clock
  /-- Nothing else has to do with the world. -/
  unread : x.start? = none → t.world = s.world

variable {node : Node ν τ} {s t : Session ν τ} {x : Exchange} {past : Exchanges}

namespace Exchanged

/-- What an exchange does to a tracked nonce. -/
theorem get?_eq (h : Exchanged node s x t) (b : String) :
    t.nonces.get? (.text b) =
      (x.begun? b).or ((s.nonces.get? (.text b)).map (· + if x.isTake b then 1 else 0)) := by
  cases h with
  | @started a answer n v hq hv =>
    rw [tracking, Tracker.get?_put_text]
    by_cases hb : a = b <;> simp [Exchange.begun?, Exchange.isTake, hb, after]
  | @took a n hget =>
    rw [Tracker.get?_put_text]
    by_cases hb : a = b
    · subst hb
      simp [Exchange.begun?, Exchange.isTake, hget]
    · simp [Exchange.begun?, Exchange.isTake, hb]
  | @notTaken a hget =>
    -- one more than nothing is nothing
    by_cases hb : a = b
    · subst hb
      simp [Exchange.begun?, hget]
    · simp [Exchange.begun?, Exchange.isTake, hb]
  | _ => simp [Exchange.begun?, Exchange.isTake, after]

/-- No other address notices. -/
theorem others (h : Exchanged node s x t) {b : String} (hb : b ≠ x.address) :
    t.nonces.get? (.text b) = s.nonces.get? (.text b) := by
  obtain ⟨htake, hbegun⟩ := x.idle_of_ne hb
  rw [h.get?_eq, htake, hbegun]
  simp

/-- What comes of a request for a nonce. -/
theorem outcome_eq (h : Exchanged node s x t) {a : String} {outcome : Except Fault Int}
    (hx : x = .took a outcome ∨ x = .peeked a outcome) :
    outcome = nonceDue a (s.nonces.get? (.text a)) := by
  cases h with
  | took hget | notTaken hget =>
    obtain ⟨rfl, rfl⟩ : _ = a ∧ _ = outcome := by simpa using hx
    rw [hget]
    rfl
  | peeked b =>
    obtain ⟨rfl, rfl⟩ : _ = a ∧ _ = outcome := by simpa using hx
    rfl
  | _ => simp at hx

/-- An exchange fits the ones before it, if these tell what was tracked. -/
theorem fits (h : Exchanged node s x t)
    (hexpected : ∀ a, s.nonces.get? (.text a) = expected? a past) : x.Fits past := by
  cases hx : x with
  | started a outcome => trivial
  | took a outcome =>
    rw [Exchange.Fits, ← hexpected]
    exact h.outcome_eq (Or.inl hx)
  | peeked a outcome =>
    rw [Exchange.Fits, ← hexpected]
    exact h.outcome_eq (Or.inr hx)
  | checked a outcome =>
    subst hx
    cases h
    rw [Exchange.Fits, Table.has, hexpected]

/-- A start reads one nonce, and nothing else uses the node. -/
theorem reads (h : Exchanged node s x t) :
    (t.world.journal.filter Event.isOperation).map Event.read? =
      x.start?.toList.map some ++ (s.world.journal.filter Event.isOperation).map Event.read? := by
  cases h with
  | started hq hv =>
    rw [← hv]
    rfl
  | notStarted hq hf =>
    rw [← hf]
    rfl
  | _ => rfl

theorem conduct (h : Exchanged node s x t) : Conduct node s x t where
  others _ hb := h.others hb
  failed hfailed := by
    cases h with
    | started _ _ | took _ => cases hfailed
    | _ => rfl
  refused a outcome hx := by rw [h.outcome_eq hx, nonceDue_refused, Table.has]
  read a outcome hx := by
    cases h with
    | @started b answer n v hq hv | @notStarted b answer n v hq hv =>
      obtain ⟨rfl, rfl⟩ : b = a ∧ _ = outcome := by simpa [Exchange.start?] using hx
      exact ⟨answer, hq, hv.symm, rfl⟩
    | _ => cases hx
  unread hx := by
    cases h with
    | started _ _ | notStarted _ _ => cases hx
    | _ => rfl

end Exchanged

/-! ### The exchanges tell what is tracked -/

/-- **What a session has been through tells what it tracks**, and what came of each request. -/
structure Recounts (past : Exchanges) (s : Session ν τ) : Prop where
  /-- The tracked nonces are the expected ones. -/
  expected : ∀ a, s.nonces.get? (.text a) = expected? a past
  /-- Every outcome is the one that the exchanges before it call for. -/
  fits : ∀ x earlier, x :: earlier <:+ past → x.Fits earlier
  /-- The node was asked for one nonce in each start, in the same order and with the same outcome,
  and for nothing else. -/
  reads : (s.world.journal.filter Event.isOperation).map Event.read? =
    (past.filterMap Exchange.start?).map some

namespace Recounts

theorem nothing (n : ν) (c : Clock τ) : Recounts [] (Session.fresh n c) where
  expected _ := rfl
  fits x earlier h := by simp at h
  reads := rfl

/-- Every exchange keeps to what the ones before it tell. -/
theorem exchange (told : Recounts past s) (h : Exchanged node s x t) :
    Recounts (x :: past) t where
  expected a := by rw [h.get?_eq, told.expected, expected?_cons]
  fits y earlier hy := by
    -- the exchange itself, or one that has been told before
    rcases List.suffix_cons_iff.mp hy with heq | hpast
    · obtain ⟨rfl, rfl⟩ := List.cons.inj heq
      exact h.fits told.expected
    · exact told.fits y earlier hpast
  reads := by
    rw [h.reads, told.reads, ← List.map_append]
    cases hx : x.start? <;> simp [hx]

theorem of_asked {n : ν} {c : Clock τ} (h : Asked node (.fresh n c) past s) : Recounts past s := by
  induction h with
  | nothing => exact nothing n c
  | ask q _ ih => exact ih.exchange (exchange_cases node _ q)
  | meanwhile n' c' _ ih => exact ⟨ih.expected, ih.fits, ih.reads⟩

/-- An address is tracked exactly when tracking it has begun. -/
theorem has_iff (told : Recounts past s) (a : String) :
    s.nonces.has (.text a) = true ↔ ∃ v, .started a (.ok v) ∈ past := by
  rw [Table.has, told.expected, expected?_isSome]

/-- One nonce is taken after the other, whatever is asked of other addresses between them. -/
theorem consecutive (told : Recounts past s) {a : String} {first : Int}
    {second : Except Fault Int} {between earlier : Exchanges}
    (hpast : .took a second :: (between ++ .took a (.ok first) :: earlier) <:+ past)
    (hbetween : ∀ x ∈ between, x.isTake a = false ∧ x.begun? a = none) :
    second = .ok (first + 1) := by
  have hfirst : .ok first = nonceDue a (expected? a earlier) :=
    told.fits (.took a (.ok first)) earlier
      (((List.suffix_append between _).trans (List.suffix_cons _ _)).trans hpast)
  have hearlier : expected? a earlier = some first := nonceDue_eq_ok.mp hfirst.symm
  have hsecond : second = nonceDue a (expected? a (between ++ .took a (.ok first) :: earlier)) :=
    told.fits _ _ hpast
  rw [hsecond, expected?_append_of_idle hbetween, expected?_cons, hearlier]
  simp [Exchange.begun?, Exchange.isTake, nonceDue]

end Recounts

/-- **The tracked nonces follow from what has been asked of them**, with any node, whatever fails on
the way. -/
theorem nonces_follow_exchanges {n : ν} {c : Clock τ} (h : Asked node (.fresh n c) past s) :
    Recounts past s ∧
      (∀ a, s.nonces.has (.text a) = true ↔ ∃ v, .started a (.ok v) ∈ past) ∧
      (∀ a first second between earlier,
        .took a second :: (between ++ .took a (.ok first) :: earlier) <:+ past →
          (∀ x ∈ between, x.isTake a = false ∧ x.begun? a = none) → second = .ok (first + 1)) ∧
      ∀ q, Conduct node s (exchange node s q).1 (exchange node s q).2 := by
  have told : Recounts past s := .of_asked h
  exact ⟨told, told.has_iff, fun _ _ _ _ _ => told.consecutive,
    fun q => (exchange_cases node s q).conduct⟩

/-- A node that has its answers to nonce reads prepared, and does nothing else. -/
def prepared : Node (List (Except Fault Int)) Value where
  chain := "Prepared"
  version := .null
  query _ _ _ _ := fun answers =>
    match answers with
    | [] => .error (.interrupted "") []
    | .error f :: rest => .error f rest
    | .ok v :: rest => .ok (some (.object [("nonce", .int v)])) rest
  queryMap _ _ _ _ := throw (.interrupted "")
  compose _ _ _ := throw (.interrupted "")
  sign _ := throw (.interrupted "")
  submit _ := throw (.interrupted "")

/-- One read fails, and a later one sets the account back; between them a minute has passed. -/
theorem nonces_follow_exchanges_resynced :
    let begun := .fresh [.ok 5, .error (.foreign "ConnectionError" "lost")] { now := .int 0 }
    let past : Exchanges := [.peeked "a" (.ok 4), .took "a" (.ok 3), .started "a" (.ok 3),
      .checked "b" (.ok false), .took "b" (.error (.untracked "b")),
      .started "b" (.error (.foreign "ConnectionError" "lost")), .took "a" (.ok 6),
      .took "a" (.ok 5), .started "a" (.ok 5)]
    ∃ s, Asked prepared begun past s ∧ Recounts past s ∧
      s.nonces.get? "a" = some 4 ∧ s.nonces.has "b" = false := by
  intro begun past
  obtain ⟨s, h⟩ : ∃ s, Asked prepared begun past s :=
    ⟨_, (@Asked.nothing _ _ prepared begun)
      |>.ask (.start "a") |>.ask (.take "a") |>.ask (.take "a")
      |>.ask (.start "b") |>.ask (.take "b") |>.ask (.check "b")
      |>.meanwhile ([.ok 3] : List (Except Fault Int)) { now := (.int 60 : Value) }
      |>.ask (.start "a") |>.ask (.take "a") |>.ask (.peek "a")⟩
  obtain ⟨told, tracked, -, -⟩ := nonces_follow_exchanges h
  have hb : ¬ s.nonces.has "b" = true := by
    rw [tracked]
    simp [past]
  exact ⟨s, h, told, told.expected "a", by simpa using hb⟩

end Session

end Campaign
