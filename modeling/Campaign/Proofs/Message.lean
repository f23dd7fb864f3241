import Campaign.Proofs.Action
import Campaign.Signature
import Mathlib.Data.List.Basic

/-!
# What the overlord signs

An overlord message is an account id and a byte for the purpose; metadata is a row of bytes after
its length.  The overlord has one key for both, and nothing in what it signs says which of the two
it is.  `bytes_eq_append_iff` compares the two layouts: a length that takes one byte and 32 bytes
after it fill the 33 bytes of a message, and no other metadata does.  From this
`metadata_doubles_as_message_iff` says when a signature over metadata is one for a purpose.

Two overlord messages are the same only for the same account id and the same purpose
(`overlordMessage_eq_iff`).
-/

namespace Campaign

/-! ### Signatures as text -/

theorem Text.Hex.marked_inj {bs cs : List UInt8} :
    Text.Hex.marked bs = Text.Hex.marked cs ↔ bs = cs := by
  constructor
  · intro h
    have hlists := congrArg String.toList h
    simp only [Text.Hex.marked, String.toList_append, String.toList_ofList,
      List.append_cancel_left_eq] at hlists
    have hdecoded := congrArg Text.Hex.decode? hlists
    rw [Text.Hex.decode?_encode, Text.Hex.decode?_encode] at hdecoded
    exact Option.some.inj hdecoded
  · rintro rfl
    rfl

namespace Key

theorem sign_inj {key : Key} {m m' : List UInt8} : key.sign m = key.sign m' ↔ m = m' := by
  simp [sign]

/-- A key's signature passes its check for the message that was signed, and for no other. -/
theorem verify_sign_iff {key : Key} {m m' : List UInt8} :
    key.verify m (key.sign m') = true ↔ key.verifies = true ∧ m' = m := by
  simp [verify, sign_inj]

end Key

/-! ### Lengths in compact form -/

namespace Scale

theorem length_little : ∀ width n : Nat, (little width n).length = width := by
  intro width
  induction width with
  | zero => exact fun _ => rfl
  | succ width ih => exact fun n => by rw [little, List.length_cons, ih]

theorem length_compact (n : Nat) : (compact n).length =
    if n < 64 then 1 else if n < 16384 then 2 else if n < 1073741824 then 4
    else byteCount n + 1 := by
  rw [compact]
  split_ifs <;> simp [length_little]

/-- **When a row of bytes after its length is 32 bytes and one more.** -/
theorem bytes_eq_append_iff {data id : List UInt8} {last : UInt8} (hid : id.length = 32) :
    bytes data = id ++ [last] ↔
      data.length = 32 ∧ id = 0x80 :: data.take 31 ∧ data.getLast? = some last := by
  have hcompact : compact 32 = [0x80] := by decide
  constructor
  · intro h
    have htotal : (compact data.length).length + data.length = 33 := by
      have hlength := congrArg List.length h
      simpa [bytes, hid] using hlength
    have hdata : data.length = 32 := by
      rw [length_compact] at htotal
      split_ifs at htotal <;> omega
    have hne : data ≠ [] := by
      rintro rfl
      cases hdata
    rw [bytes, hdata, hcompact, ← List.dropLast_append_getLast hne, List.dropLast_eq_take, hdata,
      ← List.append_assoc] at h
    obtain ⟨hinit, hlast⟩ := List.append_inj' h rfl
    refine ⟨hdata, hinit.symm, ?_⟩
    rw [List.getLast?_eq_getLast_of_ne_nil hne, List.singleton_inj.mp hlast]
  · rintro ⟨hdata, rfl, hlast⟩
    have hsplit : data = data.take 31 ++ [last] := by
      have hinit := List.dropLast_append_getLast? last hlast
      rw [List.dropLast_eq_take, hdata] at hinit
      exact hinit.symm
    rw [bytes, hdata, hcompact]
    exact congrArg (0x80 :: ·) hsplit

end Scale

/-! ### The two kinds of messages -/

namespace Signature

open Act

/-- The account id of a valid address. -/
def accountId? (address : Value) : Option (List UInt8) :=
  match content address with
  | .ok content => content.accountId.toOption
  | .error _ => none

theorem accountId?_eq_some {address : Value} {id : List UInt8} :
    accountId? address = some id ↔ ∃ c, content address = .ok c ∧ c.accountId = .ok id := by
  rw [accountId?]
  cases content address with
  | error f => simp
  | ok c => cases hid : c.accountId <;> simp [hid, Except.toOption]

theorem length_accountId? {address : Value} {id : List UInt8} (h : accountId? address = some id) :
    id.length = 32 := by
  obtain ⟨c, -, hid⟩ := accountId?_eq_some.mp h
  cases c with
  | hex text => cases hid
  | id bytes =>
    rw [Address.Content.accountId] at hid
    split at hid
    · rwa [← Except.ok.inj hid]
    · cases hid

/-- **There is a message just for a valid address and a purpose.** -/
theorem overlordMessage_ok {address purpose : Value} {message : List UInt8} :
    overlordMessage address purpose = .ok message ↔
      ∃ id, ∃ p : Purpose, accountId? address = some id ∧ Kind.ofValue purpose = .ok p ∧
        message = id ++ [p.index] := by
  constructor
  · intro h
    obtain ⟨c, hcontent, h⟩ := outcome_bind_ok.mp h
    obtain ⟨p, hpurpose, h⟩ := outcome_bind_ok.mp h
    obtain ⟨id, hid, h⟩ := outcome_bind_ok.mp h
    exact ⟨id, p, accountId?_eq_some.mpr ⟨c, hcontent, outcome_mapError_ok.mp hid⟩, hpurpose,
      (Except.ok.inj h).symm⟩
  · rintro ⟨id, p, haddress, hpurpose, rfl⟩
    obtain ⟨c, hcontent, hid⟩ := accountId?_eq_some.mp haddress
    refine outcome_bind_ok.mpr ⟨c, hcontent, outcome_bind_ok.mpr ⟨p, hpurpose, ?_⟩⟩
    exact outcome_bind_ok.mpr ⟨id, outcome_mapError_ok.mpr hid, rfl⟩

theorem ofValue_value (p : Purpose) : Kind.ofValue (.text (Kind.value p)) = .ok p := by
  cases p <;> rfl

/-- A purpose is read from its variant name only. -/
theorem ofValue_eq_ok {v : Value} {p : Purpose} :
    Kind.ofValue v = .ok p ↔ v = .text (Kind.value p) := by
  constructor
  · intro h
    cases v with
    | text s =>
      rw [Kind.ofValue] at h
      cases hfound : (Kind.ofText? s : Option Purpose) with
      | none =>
        rw [hfound] at h
        cases h
      | some q =>
        rw [hfound] at h
        obtain rfl : q = p := Except.ok.inj h
        have hname : Kind.value q = s := by simpa using List.find?_some hfound
        rw [hname]
    | _ => cases h
  · rintro rfl
    exact ofValue_value p

theorem index_inj {p q : Purpose} : p.index = q.index ↔ p = q := by
  cases p <;> cases q <;> decide

/-- **Messages are the same only for the same account id and purpose.** -/
theorem overlordMessage_eq_iff {id id' : List UInt8} {p q : Purpose} :
    id ++ [p.index] = id' ++ [q.index] ↔ id = id' ∧ p = q := by
  constructor
  · intro h
    obtain ⟨hid, hlast⟩ := List.append_inj' h rfl
    exact ⟨hid, index_inj.mp (List.singleton_inj.mp hlast)⟩
  · rintro ⟨rfl, rfl⟩
    rfl

/-- Metadata of 32 bytes that reads as a message for an account id and a purpose, once its length is
put in front. -/
def Doubles (data id : List UInt8) (p : Purpose) : Prop :=
  data.length = 32 ∧ id = 0x80 :: data.take 31 ∧ data.getLast? = some p.index

/-- **When a signature over metadata doubles as one for a purpose.**  What is signed for metadata
and what is signed for a valid address and a purpose are the same just if the metadata has 32 bytes,
the account id is `0x80` and the first 31 of them, and the last one is the index of the purpose.  So
it is with the signatures of any key; and other metadata, or other account ids, give a signature
that does not pass the check for the purpose either. -/
theorem metadata_doubles_as_message_iff {metadatum address purpose : Value} {data id : List UInt8}
    {p : Purpose} (hdata : metadataBytes metadatum = .ok data)
    (haddress : accountId? address = some id) (hpurpose : Kind.ofValue purpose = .ok p) :
    ∃ encoded message, metadata metadatum = .ok encoded ∧
      overlordMessage address purpose = .ok message ∧ (encoded = message ↔ Doubles data id p) ∧
      ∀ overlord : Key, ∃ signed signature, signMetadata overlord metadatum = .ok signed ∧
        signOverlordMessage overlord address purpose = .ok signature ∧
        (signed.signature = signature ↔ Doubles data id p) ∧
        (data.length ≠ 32 ∨ id.head? ≠ some 0x80 → signed.signature ≠ signature ∧
          overlord.verify message (overlord.sign encoded) = false) := by
  have hencoded : metadata metadatum = .ok (Scale.bytes data) := by
    rw [metadata, hdata]
    rfl
  have hmessage : overlordMessage address purpose = .ok (id ++ [p.index]) :=
    overlordMessage_ok.mpr ⟨id, p, haddress, hpurpose, rfl⟩
  have hiff : Scale.bytes data = id ++ [p.index] ↔ Doubles data id p :=
    Scale.bytes_eq_append_iff (length_accountId? haddress)
  refine ⟨_, _, hencoded, hmessage, hiff, fun overlord => ?_⟩
  have hsigned : signMetadata overlord metadatum = .ok
      ⟨Text.Hex.marked (overlord.sign (Scale.bytes data)), Text.Hex.marked (Scale.bytes data),
        overlord.verify (Scale.bytes data) (overlord.sign (Scale.bytes data))⟩ := by
    rw [signMetadata, hencoded]
    rfl
  have hsignature : signOverlordMessage overlord address purpose =
      .ok (Text.Hex.marked (overlord.sign (id ++ [p.index]))) := by
    rw [signOverlordMessage, hmessage]
    rfl
  have hsame : Text.Hex.marked (overlord.sign (Scale.bytes data)) =
      Text.Hex.marked (overlord.sign (id ++ [p.index])) ↔ Doubles data id p := by
    rw [Text.Hex.marked_inj, Key.sign_inj, hiff]
  refine ⟨_, _, hsigned, hsignature, hsame, fun hother => ?_⟩
  have hnot : ¬ Doubles data id p := by
    rintro ⟨hlength, rfl, -⟩
    rcases hother with h | h
    · exact h hlength
    · exact h rfl
  refine ⟨fun h => hnot (hsame.mp h), ?_⟩
  rw [Bool.eq_false_iff]
  exact fun h => hnot (hiff.mp (Key.verify_sign_iff.mp h).2)

/-- 32 bytes of metadata, signed as such, are a message for the account that they name. -/
theorem metadata_doubles_as_message_iff_named :
    ∃ encoded, metadata (.bytes (List.replicate 31 7 ++ [1])) = .ok encoded ∧
      overlordMessage (.text "5Exa5FAJJzhALQwBTqczC7q4ro6VHrjnwsqywmBAcT5HoxpY")
        (.text "BuyPrimeOriginOfShells") = .ok encoded := by
  have hdata : metadataBytes (.bytes (List.replicate 31 7 ++ [1])) =
      .ok (List.replicate 31 7 ++ [1]) := rfl
  have haddress : accountId? (.text "5Exa5FAJJzhALQwBTqczC7q4ro6VHrjnwsqywmBAcT5HoxpY") =
      some (0x80 :: List.replicate 31 7) := by decide +kernel
  have hpurpose : Kind.ofValue (.text "BuyPrimeOriginOfShells") = .ok Purpose.buyPrime := rfl
  obtain ⟨encoded, message, hencoded, hmessage, hiff, -⟩ :=
    metadata_doubles_as_message_iff hdata haddress hpurpose
  obtain rfl : encoded = message := hiff.mpr ⟨by decide, by decide, by decide⟩
  exact ⟨encoded, hencoded, hmessage⟩

end Signature

end Campaign
