import Campaign.Hash.Blake2b
import Campaign.Text.Blank

/-!
# Addresses

An address is the base58 text of a network format (one byte below 64, two bytes from 64 on), an
account id, and the first bytes of a BLAKE2b hash of both as a checksum; how many depends on the
length. `Address.read` takes an address apart and `Address.write` puts one together.

A text that begins with `0x` is taken for an id that needs no decoding. Since that mark is not a
pair of hexadecimal digits, `Content.accountId` refuses it when the id is needed as bytes, as it
refuses an id that has not 32 bytes.
-/

namespace Campaign

/-! ## Base 58 -/

namespace Base58

/-- The 58 digits. -/
def alphabet : List Char := "123456789ABCDEFGHJKLMNPQRSTUVWXYZabcdefghijkmnopqrstuvwxyz".toList

/-- The number a digit stands for. -/
def value? (c : Char) : Option Nat := alphabet.findIdx? (· = c)

/-- The digit for a number below 58. -/
def digit (n : Nat) : Char := alphabet.getD n '1'

/-- The digits of a number to a base of at least two, the highest first; none for zero. -/
def digits (base n : Nat) : List Nat :=
  if 1 < base ∧ n ≠ 0 then digits base (n / base) ++ [n % base] else []
termination_by n
decreasing_by
  rename_i h
  exact Nat.div_lt_self (Nat.pos_of_ne_zero h.2) h.1

/-- The number with the given digits. -/
def ofDigits (base : Nat) (ds : List Nat) : Nat := ds.foldl (fun n d => base * n + d) 0

/-- Bytes as base58 text: a leading zero byte is a leading `1`. -/
def encode (data : List UInt8) : List Char :=
  let zeros := data.takeWhile (· = 0)
  zeros.map (fun _ => '1') ++ (digits 58 (ofDigits 256 (data.map UInt8.toNat))).map digit

/-- The numbers of all digits, or the first character that is none. -/
def values : List Char → Except Char (List Nat)
  | [] => .ok []
  | c :: cs =>
    match value? c with
    | none => .error c
    | some d => (values cs).map (d :: ·)

/-- The bytes of a base58 text, or its first character that is no digit. -/
def decode (cs : List Char) : Except Char (List UInt8) := do
  let ds ← values (cs.dropWhile (· = '1'))
  let zeros := cs.takeWhile (· = '1')
  return zeros.map (fun _ => 0) ++ (digits 256 (ofDigits 58 ds)).map UInt8.ofNat

end Base58

namespace Address

/-! ## Reading -/

/-- Why a text is no address, or its account id cannot be used. -/
inductive Error where
  | empty
  | notAscii (first last : Nat) (c : Char)
  | badCharacter (c : Char)
  | tooShort
  | reserved (format : Nat)
  | badLength
  | badChecksum
  | notHex (position : Nat)
  | notAccountId
  deriving DecidableEq, Repr

/-- What an address text holds. -/
inductive Content where
  | hex (text : String)
  | id (bytes : List UInt8)
  deriving DecidableEq, Repr

/-- The first run of characters beyond ASCII: where it begins and ends, and its first character. -/
def firstForeign? (i : Nat) : List Char → Option (Nat × Nat × Char)
  | [] => none
  | c :: cs =>
    if c.toNat < 128 then firstForeign? (i + 1) cs
    else some (i, i + (cs.takeWhile fun d => 128 ≤ d.toNat).length, c)

/-- The length of the network format and the format itself. -/
def format? : List UInt8 → Option (Nat × Nat)
  | [] => none
  | [a] => if a.toNat / 64 % 2 = 1 then none else some (1, a.toNat)
  | a :: b :: _ =>
    if a.toNat / 64 % 2 = 1 then
      some (2, a.toNat % 64 * 4 + b.toNat / 64 + b.toNat % 64 * 256)
    else some (1, a.toNat)

/-- How many bytes of checksum end an address of a total length, after a format of `f` bytes. -/
def checksumLength? (f total : Nat) : Option Nat :=
  if total ∈ [3, 4, 6, 10] then some 1
  else if total ∈ [5, 7, 11, 34 + f, 35 + f] then some 2
  else if total ∈ [8, 12] then some 3
  else if total ∈ [9, 13] then some 4
  else if 14 ≤ total ∧ total ≤ 17 then some (total - 9)
  else none

/-- The checksum of a format with its account id. -/
def checksum (body : List UInt8) : List UInt8 :=
  Hash.Blake2b.digest ("SS58PRE".toUTF8.toList ++ body)

/-- Takes the bytes of an address apart. -/
def split (data : List UInt8) : Except Error (List UInt8) :=
  match format? data with
  | none => .error .tooShort
  | some (f, format) =>
    if format = 46 ∨ format = 47 then .error (.reserved format)
    else
      match checksumLength? f data.length with
      | none => .error .badLength
      | some n =>
        let body := data.take (data.length - n)
        if (checksum body).take n = data.drop (data.length - n) then .ok (body.drop f)
        else .error .badChecksum

/-- Takes an address text apart. -/
def read (text : String) : Except Error Content :=
  if text.startsWith "0x" then .ok (.hex text)
  else if text.isEmpty then .error .empty
  else
    let cs := Text.dropEnd Text.isBlank text.toList
    match firstForeign? 0 cs with
    | some (first, last, c) => .error (.notAscii first last c)
    | none =>
      match Base58.decode cs with
      | .error c => .error (.badCharacter c)
      | .ok data => (split data).map .id

/-- Where a text with the mark for hexadecimal digits first fails to be a row of such digits: at its
first character beyond ASCII, else at the mark itself. -/
def hexFailure (text : String) : Nat :=
  match firstForeign? 0 text.toList with
  | some (first, _, _) => first
  | none => 1

/-- The 32 bytes of an account id. -/
def Content.accountId : Content → Except Error (List UInt8)
  | .hex text => .error (.notHex (hexFailure text))
  | .id bytes => if bytes.length = 32 then .ok bytes else .error .notAccountId

/-! ## Writing -/

/-- A network format below 16384 in one or two bytes. -/
def formatBytes (format : Nat) : List UInt8 :=
  if format < 64 then [UInt8.ofNat format]
  else [UInt8.ofNat (64 + format % 256 / 4), UInt8.ofNat (format / 256 + format % 4 * 64)]

/-- The address of an account id, with a checksum of two bytes. -/
def write (format : Nat) (id : List UInt8) : String :=
  let body := formatBytes format ++ id
  String.ofList (Base58.encode (body ++ (checksum body).take 2))

end Address

end Campaign
