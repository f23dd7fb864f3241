/-!
# Hexadecimal text

Numbers and bytes as lower-case hexadecimal digits. `decode?_encode` says that reading gives back
the bytes that were written; reading also takes upper-case digits.
-/

namespace Campaign.Text.Hex

/-- The digit for a number below 16. -/
def digit (n : Nat) : Char := if n < 10 then Char.ofNat (48 + n) else Char.ofNat (87 + n)

/-- The number a digit stands for, in either case. -/
def value? (c : Char) : Option Nat :=
  let n := c.toNat
  if 48 ≤ n && n ≤ 57 then some (n - 48)
  else if 97 ≤ n && n ≤ 102 then some (n - 87)
  else if 65 ≤ n && n ≤ 70 then some (n - 55)
  else none

/-- The last `width` hexadecimal digits of a number. -/
def padded : (width : Nat) → Nat → List Char
  | 0, _ => []
  | w + 1, n => padded w (n / 16) ++ [digit (n % 16)]

/-- Two digits a byte. -/
def encode : List UInt8 → List Char
  | [] => []
  | b :: bs => digit (b.toNat / 16) :: digit (b.toNat % 16) :: encode bs

/-- The bytes of a text of digit pairs. -/
def decode? : List Char → Option (List UInt8)
  | [] => some []
  | h :: l :: rest => do
    let high ← value? h
    let low ← value? l
    let bytes ← decode? rest
    return UInt8.ofNat (16 * high + low) :: bytes
  | [_] => none

/-- Bytes as text, after the mark that says so. -/
def marked (bytes : List UInt8) : String := "0x" ++ String.ofList (encode bytes)

theorem value?_digit : ∀ n < 16, value? (digit n) = some n := by decide

theorem decode?_encode (bs : List UInt8) : decode? (encode bs) = some bs := by
  induction bs with
  | nil => rfl
  | cons b bs ih =>
    have h := b.toNat_lt
    have hb : UInt8.ofNat (16 * (b.toNat / 16) + b.toNat % 16) = b := by
      rw [Nat.div_add_mod, UInt8.ofNat_toNat]
    simp only [encode, decode?, value?_digit _ (show b.toNat / 16 < 16 by omega),
      value?_digit _ (show b.toNat % 16 < 16 by omega), ih, Option.bind_eq_bind,
      Option.bind_some, hb]
    rfl

end Campaign.Text.Hex
