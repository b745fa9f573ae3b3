import XPathTaint.Json.Reader

-- Decimal numbers in double precision: the finite number nearest to a decimal one, by its
-- bits.

namespace XPathTaint.Double

/-- The number nearest to `digits` times a power of ten; none where it is not finite. Both
zeros have the same bits. -/
def nearest? (minus : Bool) (digits : List Char) (power : Int) : Option UInt64 :=
  let m := Json.natOfDigits digits
  let scale : Int := (toString m).length + power
  if m = 0 || scale < -400 then some 0
  else if 400 < scale then none
  else
    let x := if 0 ≤ power then Float.ofScientific m false power.toNat
      else Float.ofScientific m true (-power).toNat
    if x.isFinite then some (if minus && x != 0 then -x else x).toBits else none

/-- A decimal number in its parts. -/
structure Decimal where
  whole : List Char
  fraction : List Char
  power : Int
  deriving Repr, DecidableEq, Inhabited

namespace Decimal

/-- Reads digits, a point with digits, and a power of ten; each part may be missing. -/
def read? (cs : List Char) : Option Decimal := do
  let whole := cs.takeWhile Char.isDigit
  let (fraction, rest) := match cs.drop whole.length with
    | '.' :: rest => (rest.takeWhile Char.isDigit, rest.dropWhile Char.isDigit)
    | rest => ([], rest)
  let (power, rest) ← match Json.readPower rest with
    | some ([], rest) => some ((0 : Int), rest)
    | some (_ :: '-' :: digits, rest) => some (-(Json.natOfDigits digits : Int), rest)
    | some (_ :: '+' :: digits, rest) => some ((Json.natOfDigits digits : Int), rest)
    | some (_ :: digits, rest) => some ((Json.natOfDigits digits : Int), rest)
    | none => none
  if rest.isEmpty then some ⟨whole, fraction, power⟩ else none

def nearest? (minus : Bool) (d : Decimal) : Option UInt64 :=
  Double.nearest? minus (d.whole ++ d.fraction) (d.power - d.fraction.length)

end Decimal

end XPathTaint.Double
