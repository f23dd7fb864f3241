import Campaign.Proofs.Action
import Campaign.Session

/-!
# The tracked nonces

Every address is a text.  Tables of values are looked up by an equality that is none in general
(an integer may equal a float), but a text equals itself alone: `get?_put_text` is the law of a
tracker on addresses.  From it follows what tracking, peeking and taking do to a session.
-/

namespace Campaign

/-- A text equals only itself. -/
theorem Value.beq_text (v : Value) (a : String) : (v == .text a) = true ↔ v = .text a := by
  cases v <;> simp [BEq.beq, Value.equal, Value.number?]

theorem Value.keyable_text (a : String) : (Value.text a).keyable = .ok () := rfl

namespace Tracker

theorem find?_insert_text {α : Type} (a b : String) (v : α) : ∀ es : List (Value × α),
    Table.find? (.text b) (Table.insert (.text a) v es) =
      if a = b then some v else Table.find? (.text b) es := by
  intro es
  induction es with
  | nil =>
    simp only [Table.insert, Table.find?, Value.beq_text, Value.text.injEq]
  | cons e es ih =>
    obtain ⟨k, w⟩ := e
    rw [Table.insert]
    split
    · rename_i hk
      rw [Value.beq_text] at hk
      simp only [Table.find?, hk, Value.beq_text, Value.text.injEq]
      split <;> rfl
    · rename_i hk
      rw [Table.find?, Table.find?, ih]
      split
      · rename_i hb
        rw [Value.beq_text] at hk hb
        rw [if_neg (fun h => hk (by rw [hb, h]))]
      · rfl

/-- What is tracked for an address is found there, and no other address notices. -/
theorem get?_put_text (t : Tracker) (a b : String) (n : Int) :
    (t.put (.text a) n).get? (.text b) = if a = b then some n else t.get? (.text b) :=
  find?_insert_text a b n t.entries

end Tracker

namespace Session

variable {ν τ α : Type}

open Act

theorem runOn_inWorld (act : Act (World ν τ) α) (s : Session ν τ) :
    (inWorld act).runOn s = ((act.runOn s.world).1, { s with world := (act.runOn s.world).2 }) :=
  runOn_within _ _ act s

theorem runOn_track (a : String) (n : Int) (s : Session ν τ) :
    (track (.text a) n).runOn s = (.ok (), { s with nonces := s.nonces.put (.text a) n }) := rfl

theorem runOn_peekNonce (a : String) (s : Session ν τ) :
    (peekNonce (.text a)).runOn s =
      (match s.nonces.get? (.text a) with
        | some n => .ok n
        | none => .error (.untracked a), s) := by
  rw [peekNonce, runOn_bind, runOn_get]
  simp only [runOn_ofExcept]
  rw [Tracker.peek, Value.keyable_text]
  cases s.nonces.get? (.text a) <;> rfl

theorem peekNonce_ok {a : String} {n : Int} {s t : Session ν τ}
    (h : (peekNonce (.text a)).runOn s = (.ok n, t)) :
    s.nonces.get? (.text a) = some n ∧ t = s := by
  rw [runOn_peekNonce] at h
  cases hget : s.nonces.get? (.text a) with
  | none => simp [hget] at h
  | some m => simp_all

theorem runOn_takeNonce {a : String} {n : Int} {s : Session ν τ}
    (h : s.nonces.get? (.text a) = some n) :
    (takeNonce (.text a)).runOn s =
      (.ok n, { s with nonces := s.nonces.put (.text a) (n + 1) }) := by
  have hpeek : (peekNonce (.text a)).runOn s = (.ok n, s) := by rw [runOn_peekNonce, h]
  rw [takeNonce, runOn_bind_ok hpeek, runOn_bind_ok (runOn_track a (n + 1) s), runOn_pure]

end Session

end Campaign
