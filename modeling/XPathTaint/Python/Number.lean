import XPathTaint.Python.Cursor

-- How far the operators and numbers of a program reach.

namespace XPathTaint.Python

/-! ## Digits -/

def isHexDigit (c : Char) : Bool :=
  c.isDigit || ('a' ≤ c && c ≤ 'f') || ('A' ≤ c && c ≤ 'F')

def isOctalDigit (c : Char) : Bool := '0' ≤ c && c ≤ '7'

def isBinaryDigit (c : Char) : Bool := c == '0' || c == '1'

/-- The length of runs of digits with one underscore behind any run. -/
def decimalLength : (digitBefore : Bool) → List Char → Nat
  | digitBefore, c :: rest =>
    if c.isDigit then decimalLength true rest + 1
    else if c == '_' && digitBefore then
      match rest with
      | d :: _ => if d.isDigit then decimalLength false rest + 1 else 1
      | [] => 1
    else 0
  | _, [] => 0

/-- The length of digits of a base, each run with one underscore before it if at all. -/
def basedLength (isDigit : Char → Bool) : List Char → Nat
  | [] => 0
  | '_' :: c :: rest => if isDigit c then basedLength isDigit rest + 2 else 0
  | c :: rest => if isDigit c then basedLength isDigit rest + 1 else 0

/-- The length of a mark among `marks`, one or nothing. -/
def oneOf (marks : List Char) : List Char → Nat
  | c :: _ => if marks.contains c then 1 else 0
  | [] => 0

/-- The length of a power of ten. -/
def exponentLength (cs : List Char) : Nat :=
  if oneOf ['e', 'E'] cs = 0 then 0
  else
    let sign := oneOf ['+', '-'] (cs.drop 1)
    let digits := decimalLength false (cs.drop (1 + sign))
    if digits = 0 then 0 else 1 + sign + digits

/-! ## Numbers -/

/-- A number in base sixteen, eight or two behind its mark. -/
def markedLength (cs : List Char) : Nat :=
  let digits := match cs with
    | '0' :: m :: rest =>
      if m == 'x' || m == 'X' then basedLength isHexDigit rest
      else if m == 'o' || m == 'O' then basedLength isOctalDigit rest
      else if m == 'b' || m == 'B' then basedLength isBinaryDigit rest
      else 0
    | _ => 0
  if digits = 0 then 0 else 2 + digits + oneOf ['l', 'L'] (cs.drop (2 + digits))

/-- A decimal number, whole or with a fraction or a power of ten. -/
def plainLength (cs : List Char) : Nat :=
  let whole := decimalLength false cs
  let fraction := match cs.drop whole with
    | '.' :: rest =>
      let digits := decimalLength false rest
      if whole = 0 && digits = 0 then 0 else 1 + digits
    | _ => 0
  let length := whole + fraction
  if length = 0 then 0
  else
    let length := length + exponentLength (cs.drop length)
    length + oneOf ['l', 'L', 'j', 'J'] (cs.drop length)

/-- The length of the number at the start of a text; nothing if there is none. -/
def numberLength (cs : List Char) : Nat :=
  max (markedLength cs) (plainLength cs)

/-! ## Operators -/

/-- A binary operator: its length and how tightly it binds. -/
def binaryOperator? : List Char → Option (Nat × Nat)
  | '*' :: '*' :: _ => some (2, 21)
  | '*' :: _ => some (1, 19)
  | '/' :: '/' :: _ => some (2, 19)
  | '/' :: _ => some (1, 19)
  | '%' :: _ => some (1, 19)
  | '@' :: _ => some (1, 19)
  | '+' :: _ => some (1, 18)
  | '-' :: _ => some (1, 18)
  | '<' :: '<' :: _ => some (2, 17)
  | '>' :: '>' :: _ => some (2, 17)
  | '^' :: _ => some (1, 16)
  | '&' :: _ => some (1, 15)
  | '|' :: _ => some (1, 14)
  | _ => none

/-- The length of a comparison that is written with signs. -/
def comparisonSign? : List Char → Option Nat
  | '=' :: '=' :: _ => some 2
  | '!' :: '=' :: _ => some 2
  | '<' :: '=' :: _ => some 2
  | '<' :: '>' :: _ => some 2
  | '>' :: '=' :: _ => some 2
  | '<' :: _ => some 1
  | '>' :: _ => some 1
  | _ => none

/-- The length of a sign that combines an operator with an assignment. -/
def augmentedSign? : List Char → Option Nat
  | '*' :: '*' :: '=' :: _ => some 3
  | '/' :: '/' :: '=' :: _ => some 3
  | '<' :: '<' :: '=' :: _ => some 3
  | '>' :: '>' :: '=' :: _ => some 3
  | c :: '=' :: _ => if "+-*/%@&|^".toList.contains c then some 2 else none
  | _ => none

end XPathTaint.Python
