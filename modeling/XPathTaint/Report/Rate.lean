-- The share of files that could be read, in per cent with one decimal. It is computed in
-- binary numbers of 53 digits: each step is the fraction nearest to the exact result, and
-- only the last step rounds to a decimal.

namespace XPathTaint.Report

/-- A fraction that is not negative. -/
structure Fraction where
  num : Nat
  den : Nat
  deriving Repr, DecidableEq, Inhabited

namespace Fraction

def ofNat (n : Nat) : Fraction := ⟨n, 1⟩

/-- The nearest whole number; of two equally near ones the even one. -/
def nearest (x : Fraction) : Nat :=
  let whole := x.num / x.den
  let twice := 2 * (x.num % x.den)
  if twice > x.den || (twice == x.den && whole % 2 == 1) then whole + 1 else whole

/-- The fraction times a power of two. -/
def shift (x : Fraction) (places : Int) : Fraction :=
  if 0 ≤ places then ⟨x.num <<< places.toNat, x.den⟩ else ⟨x.num, x.den <<< (-places).toNat⟩

/-- The nearest fraction with 53 binary digits. -/
def toBinary (x : Fraction) : Fraction :=
  if x.num = 0 then x
  else
    let places : Int := 52 + (x.den.log2 : Int) - (x.num.log2 : Int)
    let y := x.shift places
    let places := if y.num < y.den <<< 52 then places + 1 else places
    (ofNat (x.shift places).nearest).shift (-places)

/-- The quotient of two fractions, of which the second is not zero. -/
def dividedBy (x y : Fraction) : Fraction := ⟨x.num * y.den, x.den * y.num⟩

def times (x : Fraction) (n : Nat) : Fraction := ⟨x.num * n, x.den⟩

end Fraction

/-- A part of a whole in tenths of a per cent; none of nothing. -/
def rateInTenths (part whole : Nat) : Nat :=
  if whole = 0 then 0
  else
    let ratio := ((Fraction.ofNat part).toBinary.dividedBy (Fraction.ofNat whole).toBinary).toBinary
    ((ratio.times 100).toBinary.times 10).nearest

def writtenRate (part whole : Nat) : String :=
  let tenths := rateInTenths part whole
  toString (tenths / 10) ++ "." ++ toString (tenths % 10) ++ "%"

end XPathTaint.Report
