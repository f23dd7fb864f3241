import Campaign.Proofs.Message
import Mathlib.Algebra.Group.Nat.Defs
import Mathlib.Order.Nat
import Mathlib.Tactic.Set

/-!
# Metadata can be read back

Metadata is a row of bytes after its length in compact form.  The first byte of a compact length
says how many there are of it (`Scale.widthAfter`), and with that many the length can be read
(`Scale.lengthOf`).  So a length is told by its compact form, and where it ends is told by its first
byte.

* `Scale.split?_bytes`: **what was written is read back**, with nothing left over.
* `Scale.bytes_inj`: rows of bytes are told by what is written for them.
* `Scale.eq_of_bytes_prefix`: and nothing that is written begins with something else that is.

A text is written as its UTF-8 bytes, which tell the text (`utf8_inj`).
-/

namespace Campaign

/-! ### Bytes of a text -/

theorem byteArray_toList (bs : ByteArray) : bs.toList = bs.data.toList := by
  have hloop : ∀ (i : Nat) (done : List UInt8),
      ByteArray.toList.loop bs i done = done.reverse ++ bs.data.toList.drop i := by
    intro i done
    fun_induction ByteArray.toList.loop bs i done with
    | case1 i done hi ih =>
      have hlength : i < bs.data.toList.length := hi
      have hget : bs.get! i = bs.data.toList[i] := getElem!_pos bs.data i hi
      rw [ih, List.drop_eq_getElem_cons hlength, hget, List.reverse_cons, List.append_assoc]
      rfl
    | case2 i done hend =>
      have hlength : bs.data.toList.length ≤ i := Nat.le_of_not_lt hend
      rw [List.drop_eq_nil_of_le hlength, List.append_nil]
  exact hloop 0 []

/-- **A text is told by its UTF-8 bytes.** -/
theorem utf8_inj {s t : String} : s.toUTF8.toList = t.toUTF8.toList ↔ s = t := by
  constructor
  · intro h
    rw [byteArray_toList, byteArray_toList, Array.toList_inj] at h
    exact String.toByteArray_inj.mp (ByteArray.ext h)
  · rintro rfl
    rfl

/-! ### Lengths in compact form -/

namespace Scale

theorem ofLittle_little : ∀ width n : Nat, ofLittle (little width n) = n % 256 ^ width
  | 0, n => (Nat.mod_one n).symm
  | width + 1, n => by
    have hbyte : (UInt8.ofNat (n % 256)).toNat = n % 256 := by
      rw [UInt8.toNat_ofNat']
      omega
    rw [little, ofLittle, ofLittle_little width, hbyte, Nat.pow_succ', Nat.mod_mul]

/-- A number has room in its bytes. -/
theorem lt_pow_byteCount (n : Nat) : n < 256 ^ byteCount n := by
  have hbits : n < 2 ^ (n.log2 + 1) := Nat.lt_log2_self
  have hroom : 2 ^ (n.log2 + 1) ≤ 2 ^ (8 * byteCount n) :=
    Nat.pow_le_pow_right (by decide) (by rw [byteCount]; omega)
  rw [show 256 = 2 ^ 8 from rfl, ← Nat.pow_mul]
  exact hbits.trans_le hroom

/-- It does not fill more bytes than it has room in. -/
theorem byteCount_le {n width : Nat} (hn : n ≠ 0) (hroom : n < 256 ^ width) :
    byteCount n ≤ width := by
  have hbits : n.log2 < 8 * width := (Nat.log2_lt hn).mpr (by rwa [Nat.pow_mul])
  rw [byteCount]
  omega

theorem four_le_byteCount {n : Nat} (hn : 2 ^ 30 ≤ n) : 4 ≤ byteCount n := by
  have hlog : 30 ≤ n.log2 := (Nat.le_log2 (by omega)).mpr hn
  rw [byteCount]
  omega

/-- **What a compact length is**: below `2 ^ 30` the bytes of four times the number and a mark, else
a byte with the width and the bytes of the number. -/
theorem compact_cases (n : Nat) :
    (n < 2 ^ 30 ∧ ∃ w mark, (mark = 0 ∧ w = 0 ∨ mark = 1 ∧ w = 1 ∨ mark = 2 ∧ w = 3) ∧
      4 * n + mark < 256 ^ (w + 1) ∧ compact n = little (w + 1) (4 * n + mark)) ∨
    (2 ^ 30 ≤ n ∧ 4 ≤ byteCount n ∧
      compact n = UInt8.ofNat (4 * (byteCount n - 4) + 3) :: little (byteCount n) n) := by
  by_cases hone : n < 64
  · exact Or.inl ⟨by omega, 0, 0, by omega, by omega, by rw [compact, if_pos hone]; rfl⟩
  by_cases htwo : n < 16384
  · exact Or.inl ⟨by omega, 1, 1, by omega, by omega, by rw [compact, if_neg hone, if_pos htwo]⟩
  by_cases hfour : n < 1073741824
  · exact Or.inl ⟨by omega, 3, 2, by omega, by omega,
      by rw [compact, if_neg hone, if_neg htwo, if_pos hfour]⟩
  · exact Or.inr ⟨by omega, four_le_byteCount (by omega),
      by rw [compact, if_neg hone, if_neg htwo, if_neg hfour]⟩

/-- How many bytes of a compact length come after its first one. -/
def widthAfter (first : UInt8) : Nat :=
  match first.toNat % 4 with
  | 0 => 0
  | 1 => 1
  | 2 => 3
  | _ => first.toNat / 4 + 4

/-- The number in compact form, read back. -/
def lengthOf : List UInt8 → Nat
  | [] => 0
  | b :: rest => if b.toNat % 4 = 3 then ofLittle rest else ofLittle (b :: rest) / 4

/-- **The first byte of a compact length tells how many there are**, up to 67 bytes after it, and
the bytes tell the number. -/
theorem compact_spec (n : Nat) : ∃ b rest, compact n = b :: rest ∧ lengthOf (b :: rest) = n ∧
    (n < 256 ^ 67 → rest.length = widthAfter b) ∧
    (n < 2 ^ 30 → b.toNat % 4 ≠ 3) := by
  rcases compact_cases n with ⟨hn, w, mark, hmark, hfits, hcompact⟩ | ⟨hn, hwidth, hcompact⟩
  · set b := UInt8.ofNat ((4 * n + mark) % 256)
    have hhead : b.toNat % 4 = mark := by
      have hfirst : b.toNat = (4 * n + mark) % 256 % 256 := UInt8.toNat_ofNat'
      omega
    refine ⟨b, little w ((4 * n + mark) / 256), hcompact, ?_, fun _ => ?_, fun _ => by omega⟩
    · have hread := ofLittle_little (w + 1) (4 * n + mark)
      rw [Nat.mod_eq_of_lt hfits] at hread
      rw [lengthOf, if_neg (by omega), show b :: _ = little (w + 1) (4 * n + mark) from rfl, hread]
      omega
    · rw [length_little, widthAfter, hhead]
      rcases hmark with ⟨rfl, rfl⟩ | ⟨rfl, rfl⟩ | ⟨rfl, rfl⟩ <;> rfl
  · set b := UInt8.ofNat (4 * (byteCount n - 4) + 3)
    have hfirst : b.toNat = (4 * (byteCount n - 4) + 3) % 256 := UInt8.toNat_ofNat'
    have hhead : b.toNat % 4 = 3 := by omega
    refine ⟨b, little (byteCount n) n, hcompact, ?_, fun hmost => ?_, fun hless => by omega⟩
    · rw [lengthOf, if_pos hhead, ofLittle_little, Nat.mod_eq_of_lt (lt_pow_byteCount n)]
    · have hcount : byteCount n ≤ 67 := byteCount_le (Nat.ne_zero_of_lt hn) hmost
      rw [length_little, widthAfter, hhead]
      show byteCount n = b.toNat / 4 + 4
      omega

theorem compact_inj {m n : Nat} (h : compact m = compact n) : m = n := by
  obtain ⟨b, rest, hm, hreadm, -⟩ := compact_spec m
  obtain ⟨c, rest', hn, hreadn, -⟩ := compact_spec n
  rw [← hreadm, ← hreadn, ← hm, ← hn, h]

/-- Two compact lengths that begin the same way are the same. -/
theorem compact_eq_of_append {m n : Nat} (hm : m < 256 ^ 67) (hn : n < 256 ^ 67)
    {s t : List UInt8} (h : compact m ++ s = compact n ++ t) : m = n ∧ s = t := by
  obtain ⟨b, rest, hcm, -, hwm, -⟩ := compact_spec m
  obtain ⟨c, rest', hcn, -, hwn, -⟩ := compact_spec n
  have hlists : b :: (rest ++ s) = c :: (rest' ++ t) := by
    rw [hcm, hcn] at h
    exact h
  obtain ⟨rfl, htail⟩ := List.cons.inj hlists
  obtain ⟨rfl, rfl⟩ := List.append_inj htail (by rw [hwm hm, hwn hn])
  exact ⟨compact_inj (hcm.trans hcn.symm), rfl⟩

/-- A compact length is read back where it stands. -/
theorem compact?_append {n : Nat} (hn : n < 2 ^ 30) (rest : List UInt8) :
    compact? (compact n ++ rest) = some (n, rest) := by
  obtain ⟨b, tail, hcompact, hread, hwidth, hshort⟩ := compact_spec n
  have htail : tail.length = widthAfter b := hwidth (hn.trans (by decide))
  have hmark : b.toNat % 4 ≠ 3 := hshort hn
  have hlength : ofLittle (b :: tail) / 4 = n := by
    rwa [lengthOf, if_neg hmark] at hread
  have hsplit : b :: (tail ++ rest) = (b :: tail) ++ rest := rfl
  have hreads : ∀ width, width = tail.length + 1 →
      (if width = 0 ∨ (tail ++ rest).length + 1 < width then none
        else some (ofLittle ((b :: (tail ++ rest)).take width) / 4,
          (b :: (tail ++ rest)).drop width)) = some (n, rest) := by
    rintro width rfl
    have hcount : (b :: tail).length = tail.length + 1 := rfl
    rw [if_neg (by simp), hsplit, List.take_left' hcount, List.drop_left' hcount, hlength]
  rw [hcompact, List.cons_append, compact?]
  refine hreads _ ?_
  rw [htail, widthAfter]
  have hmarks : b.toNat % 4 = 0 ∨ b.toNat % 4 = 1 ∨ b.toNat % 4 = 2 := by omega
  rcases hmarks with h | h | h
  all_goals
    rw [h]
    rfl

/-- **A row of bytes is read back**, and what comes after it is left over. -/
theorem split?_bytes {data : List UInt8} (hdata : data.length < 2 ^ 30) (rest : List UInt8) :
    split? (bytes data ++ rest) = some (data, rest) := by
  rw [split?, bytes, List.append_assoc, compact?_append hdata]
  simp

/-- **What stands before a row of bytes**: one byte for a length below 64, two below 16384 and four
from there on, the least significant first, with the width in the two lowest bits. -/
structure Heads (header : List UInt8) (n : Nat) : Prop where
  one : n < 64 → header.length = 1 ∧ ofLittle header = 4 * n
  two : 64 ≤ n → n < 16384 → header.length = 2 ∧ ofLittle header = 4 * n + 1
  four : 16384 ≤ n → header.length = 4 ∧ ofLittle header = 4 * n + 2

theorem heads_compact {n : Nat} (hn : n < 2 ^ 30) : Heads (compact n) n := by
  refine ⟨fun hone => ?_, fun hone htwo => ?_, fun htwo => ?_⟩
  · rw [compact, if_pos hone, length_little, ofLittle_little]
    omega
  · rw [compact, if_neg (by omega), if_pos htwo, length_little, ofLittle_little]
    omega
  · rw [compact, if_neg (by omega), if_neg (by omega), if_pos (by omega), length_little,
      ofLittle_little]
    omega

/-! ### Rows of bytes -/

/-- Greater lengths take no fewer bytes. -/
theorem length_compact_mono {m n : Nat} (h : m ≤ n) : (compact m).length ≤ (compact n).length := by
  have hmost : byteCount m ≤ byteCount n := by
    rcases Nat.eq_zero_or_pos m with rfl | hm
    · exact Nat.le_add_left 1 _
    · exact byteCount_le hm.ne' (h.trans_lt (lt_pow_byteCount n))
  have hlong := four_le_byteCount (n := n)
  rw [length_compact, length_compact]
  split_ifs <;> omega

/-- Longer rows are written longer. -/
theorem length_bytes_lt {data more : List UInt8} (h : data.length < more.length) :
    (bytes data).length < (bytes more).length := by
  have hmono := length_compact_mono h.le
  rw [bytes, bytes, List.length_append, List.length_append]
  omega

/-- **Rows of bytes are told by what is written for them.** -/
theorem bytes_inj {data other : List UInt8} : bytes data = bytes other ↔ data = other := by
  constructor
  · intro h
    -- The totals tell the lengths, so no bound is needed for the compact form to be told apart.
    have hlength : data.length = other.length := by
      have hsame := congrArg List.length h
      rcases Nat.lt_trichotomy data.length other.length with hlt | heq | hgt
      · exact absurd hsame (length_bytes_lt hlt).ne
      · exact heq
      · exact absurd hsame (length_bytes_lt hgt).ne'
    rw [bytes, bytes, hlength] at h
    exact List.append_cancel_left h
  · rintro rfl
    rfl

/-- **Nothing that is written begins with something else that is.** -/
theorem eq_of_bytes_prefix {data other : List UInt8} (hother : other.length < 256 ^ 67)
    (h : bytes data <+: bytes other) : data = other := by
  have hshorter : data.length ≤ other.length := by
    by_contra hlonger
    exact absurd h.length_le (length_bytes_lt (Nat.lt_of_not_le hlonger)).not_ge
  obtain ⟨rest, hrest⟩ := h
  rw [bytes, bytes, List.append_assoc] at hrest
  obtain ⟨hlength, hdata⟩ := compact_eq_of_append (hshorter.trans_lt hother) hother hrest
  obtain rfl : rest = [] := by
    have htotal := congrArg List.length hdata
    rw [List.length_append] at htotal
    exact List.length_eq_zero_iff.mp (by omega)
  rwa [List.append_nil] at hdata

end Scale

/-! ### Metadata -/

namespace Signature

theorem metadata_ok {v : Value} {encoded : List UInt8} :
    metadata v = .ok encoded ↔ ∃ data, metadataBytes v = .ok data ∧ encoded = Scale.bytes data := by
  rw [metadata]
  cases metadataBytes v <;> simp [Except.map, eq_comm]

/-- Metadata is told by what is written for it. -/
theorem metadata_inj {v w : Value} :
    metadata v = metadata w ↔ metadataBytes v = metadataBytes w := by
  rw [metadata, metadata]
  cases metadataBytes v <;> cases metadataBytes w <;> simp [Except.map, Scale.bytes_inj]

/-- **Metadata can be read back**, whatever it is.  Fewer than `2 ^ 30` bytes are written after
their length in one, two or four bytes, and reading the length and as many bytes gives them back
with nothing left over.  A text is written as its UTF-8 bytes are.  So texts, and rows of bytes, are
told by what is written for them, and nothing that is written begins with something else that is,
for all lengths that have a compact form. -/
theorem metadata_reads_back :
    (∀ v data, metadataBytes v = .ok data → data.length < 2 ^ 30 → ∃ header,
      metadata v = .ok (header ++ data) ∧ Scale.Heads header data.length ∧
        Scale.split? (header ++ data) = some (data, [])) ∧
    (∀ text : String, metadata (.text text) = metadata (.bytes text.toUTF8.toList)) ∧
    (∀ text other : String, metadata (.text text) = metadata (.text other) ↔ text = other) ∧
    (∀ data other : List UInt8, metadata (.bytes data) = metadata (.bytes other) ↔ data = other) ∧
    ∀ v w encoded longer, metadata v = .ok encoded → metadata w = .ok longer →
      longer.length < 256 ^ 67 → encoded <+: longer → encoded = longer := by
  refine ⟨fun v data hdata hless => ?_, fun text => rfl, fun text other => ?_,
    fun data other => ?_, fun v w encoded longer hv hw hless hprefix => ?_⟩
  · refine ⟨Scale.compact data.length, metadata_ok.mpr ⟨data, hdata, rfl⟩,
      Scale.heads_compact hless, ?_⟩
    have hread := Scale.split?_bytes hless []
    rwa [List.append_nil] at hread
  · rw [metadata_inj, metadataBytes, metadataBytes, Except.ok.injEq, utf8_inj]
  · rw [metadata_inj, metadataBytes, metadataBytes, Except.ok.injEq]
  · obtain ⟨data, -, rfl⟩ := metadata_ok.mp hv
    obtain ⟨other, -, rfl⟩ := metadata_ok.mp hw
    have hother : other.length < 256 ^ 67 := by
      rw [Scale.bytes, List.length_append] at hless
      omega
    rw [Scale.eq_of_bytes_prefix hother hprefix]

/-- A text that begins with the mark for hexadecimal digits is written as the text it is, and has
one byte more than characters. -/
theorem metadata_reads_back_marked :
    ∃ header, metadata (.text "0x41é") = .ok (header ++ [48, 120, 52, 49, 195, 169]) ∧
      header.length = 1 ∧ Scale.ofLittle header = 24 ∧
      Scale.split? (header ++ [48, 120, 52, 49, 195, 169]) =
        some ([48, 120, 52, 49, 195, 169], []) := by
  have hdata : metadataBytes (.text "0x41é") = .ok [48, 120, 52, 49, 195, 169] :=
    congrArg Except.ok (by decide +kernel : "0x41é".toUTF8.toList = [48, 120, 52, 49, 195, 169])
  obtain ⟨header, hencoded, hheads, hread⟩ := metadata_reads_back.1 _ _ hdata (by decide)
  obtain ⟨hlength, hvalue⟩ := hheads.one (by decide)
  exact ⟨header, hencoded, hlength, hvalue, hread⟩

end Signature

end Campaign
