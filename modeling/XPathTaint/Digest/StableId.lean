-- Numbers that name a fact by its file, its place and its wording. The same fact has the
-- same number in every run.

namespace XPathTaint.StableId

/-! ## The mix -/

/-- The start of the mix. -/
def basis : UInt64 := 0xcbf29ce484222325

/-- The multiplier of the mix. -/
def prime : UInt64 := 0x100000001b3

/-- One byte mixed into a running number. -/
def mix (h : UInt64) (byte : UInt8) : UInt64 := (h ^^^ byte.toUInt64) * prime

/-- The bytes of a text mixed into a running number. -/
def mixText (h : UInt64) (s : String) : UInt64 := s.toUTF8.toList.foldl mix h

end XPathTaint.StableId

namespace XPathTaint

/-- The number of a fact: the bytes of path and wording mixed in this order, then
combined with line and column. Lines and columns below 2^32 do not overlap. -/
def stableId (path : String) (line column : Nat) (wording : String) : Nat :=
  let h := StableId.mixText (StableId.mixText StableId.basis path) wording
  (h ^^^ ((line.toUInt64 <<< 32) ||| column.toUInt64)).toNat

end XPathTaint
