import XPathTaint.Python.Cursor

-- Blanks, comments and line ends between the tokens of a program. Where a statement may
-- end, a line feed ends it. Elsewhere a line feed is a blank, but the text may not fall
-- back behind the indentation of the open block unless a bracket may be closed there.

namespace XPathTaint.Python

/-! ## What a line feed means -/

/-- What may follow at a place: the end of the statement, a closing bracket, or neither. -/
inductive Ending where
  | line
  | bracket
  | inner
  deriving Repr, DecidableEq, Inhabited

/-- The indentation of the open block, and what may follow the expression being read. -/
structure Layout where
  indent : Nat
  ending : Ending
  deriving Repr, DecidableEq, Inhabited

namespace Layout

def bracketed (l : Layout) : Layout := { l with ending := .bracket }

def inside (l : Layout) : Layout := { l with ending := .inner }

/-- Inside an interpolated string no indentation counts. -/
def embedded : Layout := { indent := 0, ending := .bracket }

end Layout

/-! ## Blanks -/

/-- Marks without width that are passed over together with all blanks behind them. -/
def isJoiner (c : Char) : Bool :=
  c == Char.ofNat 0xFEFF || c == Char.ofNat 0x2060 || c == Char.ofNat 0x200B

/-- The indentation after one more blank. -/
def widen (width : Nat) (c : Char) : Nat :=
  if c == ' ' then width + 1 else if c == '\t' then width + 8 else 0

/-- Blanks within a line; the last two take the indentation back to nothing. -/
def isLineBlank (c : Char) : Bool := c == ' ' || c == '\t' || c == '\r' || c == '\x0c'

def isStringQuote (c : Char) : Bool := c == '\"' || c == '\'' || c == '\x60'

/-- What the gap passes over: blanks, the rest of a comment, or the blanks behind a
joiner. -/
inductive GapPart where
  | blanks
  | comment
  | joined
  deriving Repr, DecidableEq, Inhabited

/-- How a gap between tokens is to be read. -/
structure GapRule where
  /-- The indentation behind which the text may not fall back. -/
  indent : Nat
  /-- Whether a string may stand there whatever its indentation. -/
  quote : Bool

/-- How many characters the gap before a token has, where no statement may end. `crossed`
tells whether a line feed was passed, `width` is the indentation since. -/
def gapLength (rule : GapRule) : GapPart → (crossed : Bool) → (width : Nat) → List Char → Option Nat
  | _, _, _, [] => if 0 < rule.indent then none else some 0
  | .comment, _, _, '\n' :: rest => (gapLength rule .blanks true 0 rest).map (· + 1)
  | .comment, _, _, _ :: rest => (gapLength rule .comment false 0 rest).map (· + 1)
  | .joined, _, _, '\n' :: rest => (gapLength rule .joined false 0 rest).map (· + 1)
  | .blanks, _, _, '\n' :: rest => (gapLength rule .blanks true 0 rest).map (· + 1)
  | part, crossed, width, '\\' :: '\n' :: rest =>
    (gapLength rule part crossed width rest).map (· + 2)
  | part, crossed, width, '\\' :: '\r' :: '\n' :: rest =>
    (gapLength rule part crossed width rest).map (· + 3)
  | part, crossed, width, c :: rest =>
    if isLineBlank c then (gapLength rule part crossed (widen width c) rest).map (· + 1)
    else if crossed && decide (width < rule.indent) && !(rule.quote && isStringQuote c) then none
    else if c == '#' then (gapLength rule .comment false 0 rest).map (· + 1)
    else if isJoiner c then (gapLength rule .joined false 0 rest).map (· + 1)
    else if c == '\\' then none
    else some 0

/-- How many characters the gap has where a statement may end: it stops at a line feed. -/
def lineGapLength : GapPart → List Char → Nat
  | _, [] => 0
  | .comment, '\n' :: _ => 0
  | .comment, _ :: rest => lineGapLength .comment rest + 1
  | .blanks, '\n' :: _ => 0
  | .joined, '\n' :: rest => lineGapLength .joined rest + 1
  | part, '\\' :: '\n' :: rest => lineGapLength part rest + 2
  | part, '\\' :: '\r' :: '\n' :: rest => lineGapLength part rest + 3
  | part, c :: rest =>
    if isLineBlank c then lineGapLength part rest + 1
    else if c == '#' then lineGapLength .comment rest + 1
    else if isJoiner c then lineGapLength .joined rest + 1
    else 0

namespace Reader

/-- Passes over the gap that a rule allows. -/
def gapBy (rule : GapRule) : Reader Unit := fun c =>
  (gapLength rule .blanks false 0 c.rest).map fun n => ((), c.skip n)

/-- The gap before an operand. `closable` tells whether a bracket may be closed there. -/
def operandGap (l : Layout) (closable : Bool) : Reader Unit :=
  gapBy { indent := if closable then 0 else l.indent, quote := true }

/-- The gap before a token that must follow. -/
def gap (l : Layout) : Reader Unit := gapBy { indent := l.indent, quote := false }

/-- The gap behind a finished operand, where an operator may follow. -/
def tailGap (l : Layout) : Reader Unit :=
  match l.ending with
  | .line => fun c => some ((), c.skip (lineGapLength .blanks c.rest))
  | .bracket => gapBy { indent := 0, quote := false }
  | .inner => gap l

/-- The gap behind a string, where another string may follow. -/
def stringGap (l : Layout) : Reader Unit :=
  match l.ending with
  | .inner => operandGap l false
  | _ => tailGap l

/-- The first comment between `start` and here, if one is there. -/
def commentSince (start : Cursor) : Reader (Option Span) := fun c =>
  let gap := takeBytes (c.pos - start.pos) start.rest
  let blanks := gap.takeWhile (· ≠ '#')
  match gap.drop blanks.length with
  | [] => some (none, c)
  | behind =>
    let first := start.skip blanks.length
    some (some (first.to (first.skip (behind.takeWhile (· ≠ '\n')).length)), c)

end Reader

end XPathTaint.Python
