import Campaign.Proofs.Base58
import Campaign.Proofs.Message
import Mathlib.Tactic.Set

/-!
# Addresses of accounts

An address text of an account is base58 of a network format, the 32 bytes of the account id, and two
bytes of a hash of both (`Address.IsOf`).  Reading takes just these texts for account ids
(`Address.accountId?_text`), whatever else an address may hold: the length tells how many bytes of
checksum there are, and with 32 bytes of id these are two (`Address.checksumLength?_account`).

`Address.isOf_write` is the round trip: what is written for a format and an id is an address of the
id.  So an overlord message has 32 bytes of an account id and one for the purpose, and the format
leaves no trace in it (`Signature.messages_tell_account_and_purpose`).
-/

namespace Campaign

namespace Address

/-! ### Formats -/

/-- A format is told by the first two bytes. -/
theorem format?_append : ∀ {data : List UInt8} (more : List UInt8), 2 ≤ data.length →
    format? (data ++ more) = format? data
  | _ :: _ :: _, _, _ => rfl

/-- A format has one or two bytes. -/
theorem length_format? : ∀ {data : List UInt8} {f format : Nat}, format? data = some (f, format) →
    (f = 1 ∨ f = 2) ∧ f ≤ data.length
  | [a], f, format, h => by
    rw [format?] at h
    split at h
    · cases h
    · obtain ⟨rfl, -⟩ := Prod.mk.inj (Option.some.inj h)
      exact ⟨Or.inl rfl, Nat.le_refl 1⟩
  | a :: b :: rest, f, format, h => by
    rw [format?] at h
    split at h
    · obtain ⟨rfl, -⟩ := Prod.mk.inj (Option.some.inj h)
      exact ⟨Or.inr rfl, Nat.le_add_left 2 _⟩
    · obtain ⟨rfl, -⟩ := Prod.mk.inj (Option.some.inj h)
      exact ⟨Or.inl rfl, Nat.le_add_left 1 _⟩

/-- **A format below 16384 is read back** from its bytes. -/
theorem format?_formatBytes {format : Nat} (hformat : format < 16384) {rest : List UInt8}
    (hrest : rest ≠ []) :
    format? (formatBytes format ++ rest) = some ((formatBytes format).length, format) := by
  rw [formatBytes]
  split
  · obtain ⟨b, rest, rfl⟩ := List.exists_cons_of_ne_nil hrest
    have hbyte : (UInt8.ofNat format).toNat = format % 256 := UInt8.toNat_ofNat'
    have hone : (UInt8.ofNat format).toNat / 64 % 2 ≠ 1 := by omega
    have hvalue : (UInt8.ofNat format).toNat = format := by omega
    rw [List.singleton_append, format?, if_neg hone, hvalue]
    rfl
  · -- Six bits in the first byte; in the second, two bits above the six highest.
    set middle := format % 256 / 4
    set high := format / 256
    set low := format % 4
    have hmiddle : middle < 64 := Nat.div_lt_of_lt_mul (Nat.mod_lt _ (by decide))
    have hhigh : high < 64 := Nat.div_lt_of_lt_mul hformat
    have hlow : low < 4 := Nat.mod_lt _ (by decide)
    have hparts : format = 256 * high + 4 * middle + low := by omega
    set a := UInt8.ofNat (64 + middle)
    set b := UInt8.ofNat (high + low * 64)
    have ha : a.toNat = 64 + middle :=
      UInt8.toNat_ofNat'.trans (Nat.mod_eq_of_lt (by omega))
    have hb : b.toNat = high + low * 64 :=
      UInt8.toNat_ofNat'.trans (Nat.mod_eq_of_lt (by omega))
    have htwo : a.toNat / 64 % 2 = 1 := by
      rw [ha, Nat.add_div_left _ (by decide), Nat.div_eq_of_lt hmiddle]
    have hvalue : a.toNat % 64 * 4 + b.toNat / 64 + b.toNat % 64 * 256 = format := by
      rw [ha, hb, hparts, Nat.add_mod_left, Nat.mod_eq_of_lt hmiddle,
        Nat.add_mul_div_right _ _ (by decide), Nat.div_eq_of_lt hhigh, Nat.add_mul_mod_self_right,
        Nat.mod_eq_of_lt hhigh]
      omega
    show format? (a :: b :: rest) = some (2, format)
    rw [format?, if_pos htwo, hvalue]

/-! ### Taking bytes apart -/

theorem length_checksum (body : List UInt8) : (checksum body).length = 64 :=
  Hash.Blake2b.length_digest _

/-- With 32 bytes of id there are two bytes of checksum. -/
theorem checksumLength?_account {f n : Nat} (hf : f = 1 ∨ f = 2) :
    checksumLength? f (f + 32 + n) = some n ↔ n = 2 := by
  constructor
  · intro h
    simp only [checksumLength?, List.mem_cons, List.not_mem_nil, or_false] at h
    split_ifs at h <;> simp only [Option.some.injEq] at h <;> omega
  · rintro rfl
    rcases hf with rfl | rfl <;> rfl

/-- What it takes for bytes to come apart. -/
theorem split_eq_ok {data id : List UInt8} : split data = .ok id ↔
    ∃ f format n, format? data = some (f, format) ∧ ¬ (format = 46 ∨ format = 47) ∧
      checksumLength? f data.length = some n ∧
      (checksum (data.take (data.length - n))).take n = data.drop (data.length - n) ∧
      (data.take (data.length - n)).drop f = id := by
  constructor
  · intro h
    rw [split] at h
    cases hformat : format? data with
    | none =>
      rw [hformat] at h
      cases h
    | some p =>
      obtain ⟨f, format⟩ := p
      rw [hformat] at h
      dsimp only at h
      split at h
      · cases h
      · rename_i hreserved
        cases hcount : checksumLength? f data.length with
        | none =>
          rw [hcount] at h
          cases h
        | some n =>
          rw [hcount] at h
          dsimp only at h
          split at h
          · rename_i hchecksum
            exact ⟨f, format, n, rfl, hreserved, hcount, hchecksum, Except.ok.inj h⟩
          · cases h
  · rintro ⟨f, format, n, hformat, hreserved, hcount, hchecksum, rfl⟩
    rw [split, hformat]
    dsimp only
    rw [if_neg hreserved, hcount]
    dsimp only
    rw [if_pos hchecksum]

/-- **The bytes of an address of an account**: a format that is not reserved, the id, and two bytes
of checksum. -/
theorem split_iff {data id : List UInt8} (hid : id.length = 32) : split data = .ok id ↔
    ∃ head format, format? (head ++ id) = some (head.length, format) ∧
      ¬ (format = 46 ∨ format = 47) ∧ data = head ++ id ++ (checksum (head ++ id)).take 2 := by
  rw [split_eq_ok]
  constructor
  · rintro ⟨f, format, n, hformat, hreserved, hcount, hchecksum, hlast⟩
    obtain ⟨hf, hlength⟩ := length_format? hformat
    -- The length of the id fixes the total, and the total how much of it is checksum.
    have htotal : data.length = f + 32 + n := by
      have hcut := congrArg List.length hlast
      rw [List.length_drop, List.length_take, hid] at hcut
      omega
    obtain rfl : n = 2 := (checksumLength?_account hf).mp (htotal ▸ hcount)
    set body := data.take (data.length - 2)
    have hdata : data = body ++ (checksum body).take 2 := by
      rw [hchecksum, List.take_append_drop]
    have hbody : body = body.take f ++ id := by
      rw [← hlast, List.take_append_drop]
    have hsize : body.length = f + 32 := by
      rw [List.length_take]
      omega
    have hhead : (body.take f).length = f := List.length_take_of_le (by omega)
    have hsame : format? data = format? body :=
      (congrArg format? hdata).trans (format?_append _ (by omega))
    refine ⟨body.take f, format, ?_, hreserved, by rwa [← hbody]⟩
    rw [← hbody, hhead, ← hsame, hformat]
  · rintro ⟨head, format, hformat, hreserved, rfl⟩
    obtain ⟨hf, -⟩ := length_format? hformat
    have hbody : (head ++ id).length = head.length + 32 := by rw [List.length_append, hid]
    have htwo : ((checksum (head ++ id)).take 2).length = 2 := by
      rw [List.length_take, length_checksum]
      rfl
    have hlength : (head ++ id ++ (checksum (head ++ id)).take 2).length =
        head.length + 32 + 2 := by
      rw [List.length_append, htwo, hbody]
    refine ⟨head.length, format, 2, ?_, hreserved, ?_, ?_, ?_⟩
    · rw [format?_append _ (by omega), hformat]
    · rw [hlength, (checksumLength?_account hf).mpr rfl]
    · rw [hlength, Nat.add_sub_cancel, List.take_left' hbody, List.drop_left' hbody]
    · rw [hlength, Nat.add_sub_cancel, List.take_left' hbody, List.drop_left]

/-! ### Address texts -/

theorem firstForeign?_eq_none : ∀ {cs : List Char} (i : Nat), (∀ c ∈ cs, c.toNat < 128) →
    firstForeign? i cs = none
  | [], _, _ => rfl
  | c :: cs, i, h => by
    rw [List.forall_mem_cons] at h
    rw [firstForeign?, if_pos h.1, firstForeign?_eq_none (i + 1) h.2]

/-- What it takes for a text to be taken apart. -/
theorem read_eq_id {text : String} {id : List UInt8} : read text = .ok (.id id) ↔
    text.startsWith "0x" = false ∧ ∃ data,
      Base58.decode (Text.dropEnd Text.isBlank text.toList) = .ok data ∧ split data = .ok id := by
  set cs := Text.dropEnd Text.isBlank text.toList with hcs
  constructor
  · intro h
    rw [read] at h
    split at h
    · cases h
    · rename_i hmark
      refine ⟨Bool.eq_false_iff.mpr hmark, ?_⟩
      split at h
      · cases h
      · dsimp only at h
        rw [← hcs] at h
        cases hforeign : firstForeign? 0 cs with
        | some found =>
          rw [hforeign] at h
          cases h
        | none =>
          rw [hforeign] at h
          cases hdata : Base58.decode cs with
          | error c =>
            rw [hdata] at h
            cases h
          | ok data =>
            rw [hdata] at h
            obtain ⟨_, hsplit, hid⟩ := Act.outcome_map_ok.mp h
            exact ⟨data, rfl, Content.id.inj hid ▸ hsplit⟩
  · rintro ⟨hmark, data, hdata, hsplit⟩
    have hne : ¬ text.isEmpty := by
      intro hempty
      have hnone : cs = [] := by
        rw [hcs, String.isEmpty_iff.mp hempty, String.toList_empty]
        rfl
      rw [hnone, Base58.decode_nil] at hdata
      obtain rfl : [] = data := Except.ok.inj hdata
      cases hsplit
    have hascii : firstForeign? 0 cs = none := firstForeign?_eq_none 0 fun c hc =>
      (Base58.plain_of_mem_alphabet (Base58.mem_alphabet_of_decode hdata c hc)).1
    rw [read, if_neg (by simp [hmark]), if_neg hne]
    dsimp only
    rw [← hcs, hascii, hdata]
    dsimp only
    rw [hsplit]
    rfl

/-- **A text that is an address of an account id**: base58 of a network format that is not reserved,
the 32 bytes of the id, and two bytes of the hash of both.  Blanks at its end do not count. -/
def IsOf (text : String) (id : List UInt8) : Prop :=
  text.startsWith "0x" = false ∧ id.length = 32 ∧ ∃ head format,
    format? (head ++ id) = some (head.length, format) ∧ ¬ (format = 46 ∨ format = 47) ∧
      Base58.decode (Text.dropEnd Text.isBlank text.toList) =
        .ok (head ++ id ++ (checksum (head ++ id)).take 2)

/-- **Reading takes just the addresses of accounts for account ids.** -/
theorem accountId?_text {text : String} {id : List UInt8} :
    Signature.accountId? (.text text) = some id ↔ IsOf text id := by
  have hread : Signature.accountId? (.text text) = some id ↔
      id.length = 32 ∧ read text = .ok (.id id) := by
    rw [Signature.accountId?_eq_some]
    constructor
    · rintro ⟨c, hcontent, hid⟩
      have hc : read text = .ok c := Act.outcome_mapError_ok.mp hcontent
      cases c with
      | hex text => cases hid
      | id bytes =>
        rw [Content.accountId] at hid
        split at hid
        · rename_i hlength
          rw [← Except.ok.inj hid]
          exact ⟨hlength, hc⟩
        · cases hid
    · rintro ⟨hlength, hc⟩
      exact ⟨.id id, Act.outcome_mapError_ok.mpr hc, if_pos hlength⟩
  rw [hread, read_eq_id, IsOf]
  constructor
  · rintro ⟨hid, hmark, data, hdata, hsplit⟩
    obtain ⟨head, format, hformat, hreserved, rfl⟩ := (split_iff hid).mp hsplit
    exact ⟨hmark, hid, head, format, hformat, hreserved, hdata⟩
  · rintro ⟨hmark, hid, head, format, hformat, hreserved, hdata⟩
    exact ⟨hid, hmark, _, hdata, (split_iff hid).mpr ⟨head, format, hformat, hreserved, rfl⟩⟩

/-- **What is written for a format and an id is an address of the id.** -/
theorem isOf_write {format : Nat} {id : List UInt8} (hid : id.length = 32)
    (hformat : format < 16384) (hreserved : ¬ (format = 46 ∨ format = 47)) :
    IsOf (write format id) id := by
  set data := formatBytes format ++ id ++ (checksum (formatBytes format ++ id)).take 2 with hdata
  have htext : (write format id).toList = Base58.encode data := String.toList_ofList
  have hplain : ∀ c ∈ Base58.encode data, c.toNat < 128 ∧ Text.isBlank c = false ∧ c ≠ '0' :=
    fun c hc => Base58.plain_of_mem_alphabet (Base58.mem_alphabet_of_encode data c hc)
  refine ⟨?_, hid, formatBytes format, format, ?_, hreserved, ?_⟩
  · rw [Bool.eq_false_iff]
    intro hmark
    have hzero : '0' ∈ (write format id).toList :=
      (String.startsWith_string_iff.mp hmark).subset (by decide)
    exact (hplain '0' (htext ▸ hzero)).2.2 rfl
  · refine format?_formatBytes hformat fun h => ?_
    rw [h] at hid
    cases hid
  · have hkeep : Text.dropEnd Text.isBlank (Base58.encode data) = Base58.encode data := by
      rw [Text.dropEnd, List.dropWhile_eq_self_iff.mpr, List.reverse_reverse]
      intro hlength
      have hmem := List.mem_reverse.mp (List.getElem_mem hlength)
      exact Bool.eq_false_iff.mp (hplain _ hmem).2.1
    rw [htext, hkeep, Base58.decode_encode]

end Address

namespace Signature

open Act

theorem index_eq_idxOf (p : Purpose) :
    p.index = UInt8.ofNat ((Kind.all : List Purpose).idxOf p) := by
  cases p <;> rfl

/-- There is a message just for an address of an account and the name of a purpose. -/
theorem overlordMessage_eq_ok {address purpose : Value} {message : List UInt8} :
    overlordMessage address purpose = .ok message ↔ ∃ text id, ∃ p : Purpose,
      address = .text text ∧ purpose = .text (Kind.value p) ∧ Address.IsOf text id ∧
        message = id ++ [UInt8.ofNat ((Kind.all : List Purpose).idxOf p)] := by
  rw [overlordMessage_ok]
  constructor
  · rintro ⟨id, p, haddress, hpurpose, rfl⟩
    cases address with
    | text text =>
      exact ⟨text, id, p, rfl, ofValue_eq_ok.mp hpurpose, Address.accountId?_text.mp haddress,
        by rw [index_eq_idxOf]⟩
    | _ => cases haddress
  · rintro ⟨text, id, p, rfl, rfl, hof, rfl⟩
    exact ⟨id, p, Address.accountId?_text.mpr hof, ofValue_value p, by rw [index_eq_idxOf]⟩

/-- **The network format leaves no trace in a message.** -/
theorem overlordMessage_write {format : Nat} {id : List UInt8} (p : Purpose) (hid : id.length = 32)
    (hformat : format < 16384) (hspirit : format ≠ 46) (hother : format ≠ 47) :
    overlordMessage (.text (Address.write format id)) (.text (Kind.value p)) =
      .ok (id ++ [UInt8.ofNat ((Kind.all : List Purpose).idxOf p)]) :=
  overlordMessage_eq_ok.mpr ⟨_, id, p, rfl, rfl,
    Address.isOf_write hid hformat (not_or.mpr ⟨hspirit, hother⟩), rfl⟩

/-- **Messages are told apart by account id and purpose.** -/
theorem overlordMessage_inj {address address' purpose purpose' : Value}
    {message message' : List UInt8} (h : overlordMessage address purpose = .ok message)
    (h' : overlordMessage address' purpose' = .ok message') :
    message = message' ↔ accountId? address = accountId? address' ∧ purpose = purpose' := by
  obtain ⟨id, p, hid, hp, rfl⟩ := overlordMessage_ok.mp h
  obtain ⟨id', p', hid', hp', rfl⟩ := overlordMessage_ok.mp h'
  have hsame : p = p' ↔ purpose = purpose' := by
    constructor
    · rintro rfl
      rw [ofValue_eq_ok.mp hp, ofValue_eq_ok.mp hp']
    · rintro rfl
      exact Except.ok.inj (hp.symm.trans hp')
  rw [overlordMessage_eq_iff, hid, hid', Option.some_inj, hsame]

/-- **Overlord messages tell the account id and the purpose, and nothing else.**  For each network
format below 16384 that is not reserved, the address written for an account id is good, and its
message is the id and the place of the purpose among the purposes.  Whatever the address and the
purpose are, there is either an error or such a message of 33 bytes, for an address of an account
and the name of a purpose.  So two messages are the same just for the same account id and the same
purpose. -/
theorem messages_tell_account_and_purpose :
    (∀ (format : Nat) (id : List UInt8) (p : Purpose), id.length = 32 → format < 16384 →
      format ≠ 46 → format ≠ 47 →
      overlordMessage (.text (Address.write format id)) (.text (Kind.value p)) =
        .ok (id ++ [UInt8.ofNat ((Kind.all : List Purpose).idxOf p)])) ∧
    (∀ address purpose : Value, (∃ f, overlordMessage address purpose = .error f) ∨
      ∃ text id message, ∃ p : Purpose, address = .text text ∧ Address.IsOf text id ∧
        accountId? address = some id ∧ purpose = .text (Kind.value p) ∧
        overlordMessage address purpose = .ok message ∧
        message = id ++ [UInt8.ofNat ((Kind.all : List Purpose).idxOf p)] ∧ message.length = 33) ∧
    (∀ (address address' purpose purpose' : Value) (message message' : List UInt8),
      overlordMessage address purpose = .ok message →
      overlordMessage address' purpose' = .ok message' →
      (message = message' ↔ accountId? address = accountId? address' ∧ purpose = purpose')) := by
  refine ⟨fun _ _ p => overlordMessage_write p, fun address purpose => ?_,
    fun _ _ _ _ _ _ => overlordMessage_inj⟩
  cases hmessage : overlordMessage address purpose with
  | error f => exact Or.inl ⟨f, rfl⟩
  | ok message =>
    obtain ⟨text, id, p, rfl, hpurpose, hof, hlast⟩ := overlordMessage_eq_ok.mp hmessage
    refine Or.inr ⟨text, id, message, p, rfl, hof, Address.accountId?_text.mpr hof, hpurpose, rfl,
      hlast, ?_⟩
    rw [hlast, List.length_append, hof.2.1]
    rfl

/-- An account id of zeros and a seven, with a format of one byte and with one of two. -/
theorem messages_tell_account_and_purpose_zeros :
    overlordMessage (.text "111111111111111111111111111111113UEE") (.text "RedeemSpirit") =
        .ok (List.replicate 31 0 ++ [7, 0]) ∧
      overlordMessage (.text "cnRVHUYq6zah5dwdxD7B3CehfyfREb21GXBwyqqwbneyJqoNs")
        (.text "BuyPrimeOriginOfShells") = .ok (List.replicate 31 0 ++ [7, 1]) := by
  have hone : Address.write 0 (List.replicate 31 0 ++ [7]) =
      "111111111111111111111111111111113UEE" := by decide +kernel
  have htwo : Address.write 69 (List.replicate 31 0 ++ [7]) =
      "cnRVHUYq6zah5dwdxD7B3CehfyfREb21GXBwyqqwbneyJqoNs" := by decide +kernel
  have hwrites := messages_tell_account_and_purpose.1
  rw [← hone, ← htwo]
  exact ⟨hwrites 0 _ .redeemSpirit (by decide) (by decide) (by decide) (by decide),
    hwrites 69 _ .buyPrime (by decide) (by decide) (by decide) (by decide)⟩

end Signature

end Campaign
