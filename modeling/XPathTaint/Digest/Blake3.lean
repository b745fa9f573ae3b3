-- BLAKE3, for texts of any length: chunks of 1024 bytes, each hashed in blocks of 64, and
-- a binary tree over the chunks whose root gives the digest.

namespace XPathTaint.Blake3

abbrev Words (n : Nat) := Vector UInt32 n

/-! ## Constants -/

def startWords : Words 8 :=
  #v[0x6A09E667, 0xBB67AE85, 0x3C6EF372, 0xA54FF53A, 0x510E527F, 0x9B05688C, 0x1F83D9AB,
    0x5BE0CD19]

/-- The order in which a round leaves the words of a block to the next one. -/
def permutation : Vector (Fin 16) 16 := #v[2, 6, 3, 10, 7, 0, 4, 13, 1, 11, 12, 5, 9, 14, 15, 8]

def chunkStart : UInt32 := 1
def chunkEnd : UInt32 := 2
def parent : UInt32 := 4
def root : UInt32 := 8

/-! ## Compression -/

def rotateRight (x n : UInt32) : UInt32 := (x >>> n) ||| (x <<< (32 - n))

/-- Mixes two words of a block into four words of the state. -/
def mix (v : Words 16) (a b c d : Fin 16) (x y : UInt32) : Words 16 :=
  let va := v[a] + v[b] + x
  let vd := rotateRight (v[d] ^^^ va) 16
  let vc := v[c] + vd
  let vb := rotateRight (v[b] ^^^ vc) 12
  let va := va + vb + y
  let vd := rotateRight (vd ^^^ va) 8
  let vc := vc + vd
  let vb := rotateRight (vb ^^^ vc) 7
  (((v.set a va).set b vb).set c vc).set d vd

/-- Mixes a block into the columns of the state, then into its diagonals. -/
def round (v m : Words 16) : Words 16 :=
  let v := mix v 0 4 8 12 m[0] m[1]
  let v := mix v 1 5 9 13 m[2] m[3]
  let v := mix v 2 6 10 14 m[4] m[5]
  let v := mix v 3 7 11 15 m[6] m[7]
  let v := mix v 0 5 10 15 m[8] m[9]
  let v := mix v 1 6 11 12 m[10] m[11]
  let v := mix v 2 7 8 13 m[12] m[13]
  mix v 3 4 9 14 m[14] m[15]

def rounds : Nat → Words 16 → Words 16 → Words 16
  | 0, v, _ => v
  | n + 1, v, m => rounds n (round v m) (permutation.map fun i => m[i])

/-- A block that is still to be compressed. -/
structure Block where
  chaining : Words 8
  words : Words 16
  counter : UInt64
  length : UInt32
  flags : UInt32

/-- The words that a block leaves behind. -/
def Block.compress (b : Block) : Words 8 :=
  let h := b.chaining
  let v : Words 16 :=
    #v[h[0], h[1], h[2], h[3], h[4], h[5], h[6], h[7], startWords[0], startWords[1],
      startWords[2], startWords[3], b.counter.toUInt32, (b.counter >>> 32).toUInt32, b.length,
      b.flags]
  let v := rounds 7 v b.words
  #v[v[0] ^^^ v[8], v[1] ^^^ v[9], v[2] ^^^ v[10], v[3] ^^^ v[11], v[4] ^^^ v[12],
    v[5] ^^^ v[13], v[6] ^^^ v[14], v[7] ^^^ v[15]]

/-! ## Chunks -/

/-- The word of four bytes, least significant first; missing bytes are zero. -/
def wordAt (bytes : List UInt8) (i : Nat) : UInt32 :=
  let byte (k : Nat) : UInt32 := ((bytes[4 * i + k]?).getD 0).toUInt32
  byte 0 ||| (byte 1 <<< 8) ||| (byte 2 <<< 16) ||| (byte 3 <<< 24)

def blockWords (bytes : List UInt8) : Words 16 := Vector.ofFn fun i => wordAt bytes i.val

/-- The last block of a chunk, after the others went into the chaining words. -/
def chunkFrom (counter : UInt64) :
    (fuel : Nat) → (flags : UInt32) → (chaining : Words 8) → List UInt8 → Block
  | 0, flags, chaining, bytes =>
    ⟨chaining, blockWords bytes, counter, bytes.length.toUInt32, flags ||| chunkEnd⟩
  | fuel + 1, flags, chaining, bytes =>
    if bytes.length ≤ 64 then
      ⟨chaining, blockWords bytes, counter, bytes.length.toUInt32, flags ||| chunkEnd⟩
    else
      let first : Block := ⟨chaining, blockWords (bytes.take 64), counter, 64, flags⟩
      chunkFrom counter fuel 0 first.compress (bytes.drop 64)

/-- A chunk of at most 1024 bytes has at most sixteen blocks. -/
def chunk (counter : UInt64) (bytes : List UInt8) : Block :=
  chunkFrom counter 16 chunkStart startWords bytes

/-! ## The tree -/

/-- The bytes of the left half: as many whole chunks as the largest power of two that
leaves something for the right half. -/
def leftLength (length : Nat) : Nat := 1024 <<< Nat.log2 ((length - 1) / 1024)

/-- The top block of a tree whose first chunk has number `counter`. Each level halves the
number of chunks. -/
def tree : (fuel : Nat) → (counter : Nat) → List UInt8 → Block
  | 0, counter, bytes => chunk counter.toUInt64 bytes
  | fuel + 1, counter, bytes =>
    if bytes.length ≤ 1024 then chunk counter.toUInt64 bytes
    else
      let n := leftLength bytes.length
      let left := (tree fuel counter (bytes.take n)).compress
      let right := (tree fuel (counter + n / 1024) (bytes.drop n)).compress
      ⟨startWords, left ++ right, 0, 64, parent⟩

/-! ## Digests -/

def byteHex (b : UInt32) : String :=
  let digit (n : UInt32) : Char := "0123456789abcdef".toList.getD n.toNat '0'
  String.ofList [digit ((b >>> 4) &&& 15), digit (b &&& 15)]

/-- The bytes of a word in base sixteen, least significant byte first. -/
def wordHex (w : UInt32) : String :=
  byteHex w ++ byteHex (w >>> 8) ++ byteHex (w >>> 16) ++ byteHex (w >>> 24)

/-- The digest of bytes in base sixteen. -/
def digest (bytes : List UInt8) : String :=
  let top := tree bytes.length 0 bytes
  String.join (({ top with flags := top.flags ||| root }.compress).toList.map wordHex)

def digestText (s : String) : String := digest s.toUTF8.toList

end XPathTaint.Blake3
