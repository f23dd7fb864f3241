/-!
# Compact lengths

The SCALE encoding of a row of bytes: its length in compact form, then the bytes. A compact length
takes one, two or four bytes, the least significant first, with the width in the two lowest bits;
from `2 ^ 30` on it is a count of bytes followed by the bytes. `Scale.split?` reads back what
`Scale.bytes` writes, and the rest behind it.
-/

namespace Campaign.Scale

/-- The lowest `width` bytes of a number, the least significant first. -/
def little : (width : Nat) → Nat → List UInt8
  | 0, _ => []
  | width + 1, n => UInt8.ofNat (n % 256) :: little width (n / 256)

/-- The number with the given bytes, the least significant first. -/
def ofLittle : List UInt8 → Nat
  | [] => 0
  | b :: bs => b.toNat + 256 * ofLittle bs

/-- The number of bytes that a number fills. -/
def byteCount (n : Nat) : Nat := n.log2 / 8 + 1

/-- A length in compact form. -/
def compact (n : Nat) : List UInt8 :=
  if n < 0x40 then little 1 (4 * n)
  else if n < 0x4000 then little 2 (4 * n + 1)
  else if n < 0x40000000 then little 4 (4 * n + 2)
  else
    let width := byteCount n
    UInt8.ofNat (4 * (width - 4) + 3) :: little width n

/-- A row of bytes after its length. -/
def bytes (data : List UInt8) : List UInt8 := compact data.length ++ data

/-- A compact length below `2 ^ 30` at the head, and the rest. -/
def compact? : List UInt8 → Option (Nat × List UInt8)
  | [] => none
  | b :: rest =>
    let width := match b.toNat % 4 with
      | 0 => 1
      | 1 => 2
      | 2 => 4
      | _ => 0
    if width = 0 ∨ rest.length + 1 < width then none
    else some (ofLittle ((b :: rest).take width) / 4, (b :: rest).drop width)

/-- A row of bytes with its length at the head, and the rest. -/
def split? (data : List UInt8) : Option (List UInt8 × List UInt8) := do
  let (n, rest) ← compact? data
  if n ≤ rest.length then some (rest.take n, rest.drop n) else none

end Campaign.Scale
