/-!
# 64-bit words

The initial state that SHA-512 and BLAKE2b share (the fractional parts of the square roots of the
first eight primes), rotation, and the two ways to write a word as eight bytes.
-/

namespace Campaign.Hash

/-- The initial eight words. -/
def initialWords : Vector UInt64 8 :=
  #v[0x6a09e667f3bcc908, 0xbb67ae8584caa73b, 0x3c6ef372fe94f82b, 0xa54ff53a5f1d36f1,
    0x510e527fade682d1, 0x9b05688c2b3e6c1f, 0x1f83d9abfb41bd6b, 0x5be0cd19137e2179]

/-- Rotation to the right. -/
def rotateRight (x : UInt64) (n : UInt64) : UInt64 := (x >>> n) ||| (x <<< (64 - n))

/-- The byte of a row at a place; zero past its end. -/
def byteAt (data : Array UInt8) (i : Nat) : UInt64 := (data[i]?.getD 0).toUInt64

/-- The word whose bytes begin at `i`, the least significant first. -/
def wordLittle (data : Array UInt8) (i : Nat) : UInt64 :=
  (List.range 8).foldr (fun j w => (w <<< 8) ||| byteAt data (i + j)) 0

/-- The word whose bytes begin at `i`, the most significant first. -/
def wordBig (data : Array UInt8) (i : Nat) : UInt64 :=
  (List.range 8).foldl (fun w j => (w <<< 8) ||| byteAt data (i + j)) 0

/-- The eight bytes of a word, the least significant first. -/
def bytesLittle (w : UInt64) : List UInt8 :=
  [w.toUInt8, (w >>> 8).toUInt8, (w >>> 16).toUInt8, (w >>> 24).toUInt8,
    (w >>> 32).toUInt8, (w >>> 40).toUInt8, (w >>> 48).toUInt8, (w >>> 56).toUInt8]

/-- The eight bytes of a word, the most significant first. -/
def bytesBig (w : UInt64) : List UInt8 := (bytesLittle w).reverse

end Campaign.Hash
