import Campaign.Draw.Twister
import Campaign.Fault
import Campaign.Hash.Sha512

/-!
# Seeds

A draw is made repeatable by a seed: a number, a text or bytes. Each gives a natural number, whose
32-bit words are the key of the generator. Without a seed the key is whatever the system gives, its
`entropy`.
-/

namespace Campaign.Draw.Seed

/-- The number whose bytes are given, the most significant first. -/
def ofBytes (data : List UInt8) : Nat := data.foldl (fun n b => 256 * n + b.toNat) 0

/-- The modulus of float residues, `2 ^ 61 - 1`. -/
def modulus : Nat := 0x1fffffffffffffff

/-- The residue of a float as a rational; since `2 ^ 61` is one, exponents count modulo 61. -/
def floatResidue (x : Float) : Int :=
  match Decimal.Binary64.parts? x with
  | none => if Decimal.Binary64.isNegative x then -314159 else 314159
  | some d =>
    let r : Nat := (d.mantissa <<< (d.exponent % 61).toNat) % modulus
    let signed := Decimal.signedNat d.negative r
    if signed = -1 then -2 else signed

/-- The number of a text's or of other bytes: the bytes with their hash behind them. -/
def ofContent (data : List UInt8) : Nat := ofBytes (data ++ Hash.Sha512.digest data)

/-- The 32-bit words of a number, the least significant first. -/
def words (n : Nat) : List UInt32 :=
  if n < 0x100000000 then [UInt32.ofNat n]
  else UInt32.ofNat (n % 0x100000000) :: words (n / 0x100000000)
termination_by n
decreasing_by omega

/-- The words that a value seeds with. -/
def key (entropy : List UInt32) : Value → Except Fault (List UInt32)
  | .null => .ok entropy
  | .bool b => .ok (words (if b then 1 else 0))
  | .int n => .ok (words n.natAbs)
  | .float x => .ok (words (floatResidue x % 0x10000000000000000).toNat)
  | .text s => .ok (words (ofContent s.toUTF8.toList))
  | .bytes data => .ok (words (ofContent data))
  | _ => .error .badSeed

/-- The generator of a seed. -/
def generator (entropy : List UInt32) (seed : Value) : Except Fault Twister :=
  (key entropy seed).map fun words => .ofKey words.toArray

end Campaign.Draw.Seed
