import Campaign.Hash.Words

/-!
# BLAKE2b

The unkeyed BLAKE2b hash of 64 bytes. The message is cut into blocks of 128 bytes, the last one
filled up with zeros; `length_digest` says that the hash always has 64 bytes.
-/

namespace Campaign.Hash.Blake2b

/-- The order in which the rounds take the words of a block. -/
def orders : Vector (Vector (Fin 16) 16) 10 :=
  #v[#v[0, 1, 2, 3, 4, 5, 6, 7, 8, 9, 10, 11, 12, 13, 14, 15],
    #v[14, 10, 4, 8, 9, 15, 13, 6, 1, 12, 0, 2, 11, 7, 5, 3],
    #v[11, 8, 12, 0, 5, 2, 15, 13, 10, 14, 3, 6, 7, 1, 9, 4],
    #v[7, 9, 3, 1, 13, 12, 11, 14, 2, 6, 5, 10, 4, 0, 15, 8],
    #v[9, 0, 5, 7, 2, 4, 10, 15, 14, 1, 11, 12, 6, 8, 3, 13],
    #v[2, 12, 6, 10, 0, 11, 8, 3, 4, 13, 7, 5, 15, 14, 1, 9],
    #v[12, 5, 1, 15, 14, 13, 4, 10, 0, 7, 6, 3, 9, 2, 8, 11],
    #v[13, 11, 7, 14, 12, 1, 3, 9, 5, 0, 15, 4, 8, 6, 2, 10],
    #v[6, 15, 14, 9, 11, 3, 0, 8, 12, 2, 13, 7, 1, 4, 10, 5],
    #v[10, 2, 8, 4, 7, 6, 1, 5, 15, 11, 9, 14, 3, 12, 13, 0]]

/-- Mixes two words of the block into four of the sixteen working words. -/
def mix (v : Vector UInt64 16) (a b c d : Fin 16) (x y : UInt64) : Vector UInt64 16 :=
  let va := v[a] + v[b] + x
  let vd := rotateRight (v[d] ^^^ va) 32
  let vc := v[c] + vd
  let vb := rotateRight (v[b] ^^^ vc) 24
  let va := va + vb + y
  let vd := rotateRight (vd ^^^ va) 16
  let vc := vc + vd
  let vb := rotateRight (vb ^^^ vc) 63
  (((v.set a va).set b vb).set c vc).set d vd

/-- One round: four columns, then four diagonals. -/
def round (m : Vector UInt64 16) (v : Vector UInt64 16) (s : Vector (Fin 16) 16) :
    Vector UInt64 16 :=
  let v := mix v 0 4 8 12 m[s[0]] m[s[1]]
  let v := mix v 1 5 9 13 m[s[2]] m[s[3]]
  let v := mix v 2 6 10 14 m[s[4]] m[s[5]]
  let v := mix v 3 7 11 15 m[s[6]] m[s[7]]
  let v := mix v 0 5 10 15 m[s[8]] m[s[9]]
  let v := mix v 1 6 11 12 m[s[10]] m[s[11]]
  let v := mix v 2 7 8 13 m[s[12]] m[s[13]]
  mix v 3 4 9 14 m[s[14]] m[s[15]]

/-- Stirs one block into the state; `count` bytes of the message end with it. -/
def compress (h : Vector UInt64 8) (block : Array UInt8) (count : Nat) (last : Bool) :
    Vector UInt64 8 :=
  let m : Vector UInt64 16 := Vector.ofFn fun i => wordLittle block (8 * i)
  let v : Vector UInt64 16 := h ++ initialWords
  let v := v.set 12 (v[12] ^^^ UInt64.ofNat count)
  let v := v.set 13 (v[13] ^^^ UInt64.ofNat (count >>> 64))
  let v := if last then v.set 14 (~~~v[14]) else v
  let v := (orders.toList ++ orders.toList.take 2).foldl (round m) v
  Vector.ofFn fun i : Fin 8 => h[i] ^^^ v[i.val] ^^^ v[i.val + 8]

/-- Stirs in the rest of the message, of at most `blocks + 1` blocks, after `count` bytes. -/
def absorb (h : Vector UInt64 8) (count : Nat) : (blocks : Nat) → List UInt8 → Vector UInt64 8
  | 0, data => compress h data.toArray (count + data.length) true
  | blocks + 1, data =>
    if data.length ≤ 128 then compress h data.toArray (count + data.length) true
    else absorb (compress h (data.take 128).toArray (count + 128) false) (count + 128) blocks
      (data.drop 128)

/-- The 64 bytes of the hash. -/
def digest (data : List UInt8) : List UInt8 :=
  let start := initialWords.mapIdx fun i w => if i = 0 then w ^^^ 0x01010040 else w
  (absorb start 0 (data.length / 128) data).toList.flatMap bytesLittle

theorem length_digest (data : List UInt8) : (digest data).length = 64 := by
  simp [digest, bytesLittle, List.length_flatMap, List.map_const']

end Campaign.Hash.Blake2b
