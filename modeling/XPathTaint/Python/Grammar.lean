import XPathTaint.Python.Layout
import XPathTaint.Python.Tree

-- What the readers of expressions share: how an expression inside another is read, and
-- how tightly an operator must bind to belong to it.

namespace XPathTaint.Python

/-! ## Floors -/

/-- How tightly an operator must bind to belong to the expression being read: it belongs
if its own strength is above the floor. -/
abbrev Floor := Nat

namespace Floor

/-- Everything belongs. -/
def all : Floor := 0

/-- All but a conditional belongs. -/
def noConditional : Floor := 1

/-- All but a conditional belongs, also to the body of a `lambda` that starts here. -/
def loopSource : Floor := 2

/-- Neither a conditional nor an `as` belongs. -/
def noAlias : Floor := 3

def orOperand : Floor := 10
def andOperand : Floor := 11
def notOperand : Floor := 12

/-- Only what computes a value belongs: from here up neither `not` nor `lambda` starts an
expression, and the words are names. -/
def comparand : Floor := 13

def unaryOperand : Floor := 20

/-- Only members, subscripts and calls belong. -/
def primary : Floor := 22

end Floor

/-- How an expression inside another is read. `fuel` bounds the loops in between; each
level of nesting has one less. -/
structure Grammar where
  fuel : Nat
  expr : Layout → Floor → Reader Node

/-! ## Words -/

/-- Words that are values and never names. -/
def constantWords : List String := ["None", "True", "False"]

/-- Words that go on with an expression and do not start one behind a finished value. -/
def joiningWords : List String := ["and", "or", "not", "in", "is", "if", "else", "as", "for", "from"]

/-- Letters that may stand before the quote of a string. -/
def isStringLetter (c : Char) : Bool := "fFrRbBuU".toList.contains c

/-- Whether a string starts here, perhaps with letters before its quote. -/
def startsString (cs : List Char) : Bool :=
  match cs.dropWhile isStringLetter with
  | c :: _ => isStringQuote c
  | [] => false

/-- Whether a value may start here, behind a word that could itself be one. -/
def startsOperand (cs : List Char) : Bool :=
  match cs with
  | '.' :: '.' :: '.' :: _ => true
  | '.' :: c :: _ => c.isDigit
  | '*' :: '*' :: _ => false
  | '+' :: '=' :: _ => false
  | '-' :: '=' :: _ => false
  | '*' :: '=' :: _ => false
  | c :: _ =>
    if Text.isWordStart c then
      startsString cs || !joiningWords.contains (String.ofList (wordOf cs))
    else c.isDigit || isStringQuote c || "([\x7b+-~*".toList.contains c
  | [] => false

namespace Reader

/-- The place of a reader, to measure pieces from. -/
def here : Reader Cursor := fun c => some (c, c)

/-- Whether this character stands ahead; moves behind it if so. -/
def sign (ch : Char) : Reader Bool := fun c =>
  match c.rest with
  | a :: _ => if a == ch then some (true, c.next) else some (false, c)
  | [] => some (false, c)

/-- Reads this character. -/
def theSign (ch : Char) : Reader Unit := fun c =>
  match c.rest with
  | a :: _ => if a == ch then some ((), c.next) else none
  | [] => none

/-- Whether this word stands ahead; moves behind it if so. -/
def theWord (w : String) : Reader Bool := accepts (keyword w)

/-- The gap behind a comma, where the list may end. -/
def listGap (l : Layout) : Reader Unit :=
  match l.ending with
  | .line => tailGap l
  | .bracket => operandGap l true
  | .inner => operandGap l false

/-- Reads a colon that does not start `:=`. -/
def colon : Reader Unit := fun c =>
  match c.rest with
  | ':' :: '=' :: _ => none
  | ':' :: _ => some ((), c.next)
  | _ => none

/-- Reads an equals sign that does not start `==`. -/
def equals : Reader Unit := fun c =>
  match c.rest with
  | '=' :: '=' :: _ => none
  | '=' :: _ => some ((), c.next)
  | _ => none

end Reader

/-- The rest of a list behind its first item: items behind commas, the last comma bare if
need be. Gives the items, and the place behind the last token. -/
def moreItems (l : Layout) (item : Reader Node) : (fuel : Nat) → Reader (List Node × Bool)
  | 0 => pure ([], false)
  | fuel + 1 => do
    let comma ← Reader.accepts do Reader.tailGap l; Reader.theSign ','
    if !comma then pure ([], false)
    else
      match ← Reader.optionally do Reader.listGap l; item with
      | none => pure ([], true)
      | some node => do
        let (rest, _) ← moreItems l item fuel
        pure (node :: rest, true)

/-- One item, or several as a sequence. -/
def itemOrSequence (l : Layout) (fuel : Nat) (item : Reader Node) : Reader Node := do
  let start ← Reader.here
  let first ← item
  let (rest, listed) ← moreItems l item fuel
  if listed then pure (.group (← Reader.since start) .sequence (first :: rest)) else pure first

/-- An expression, or several with commas between them. -/
def expressions (g : Grammar) (l : Layout) : Reader Node :=
  itemOrSequence l g.fuel (g.expr l .all)

/-- `yield`, with what it hands out. -/
def yielding (g : Grammar) (l : Layout) : Reader Node := do
  let start ← Reader.here
  Reader.keyword "yield"
  let source ← Reader.accepts do Reader.tailGap l; Reader.keyword "from"
  if source then
    Reader.operandGap l false
    let value ← g.expr l .all
    pure (.group (← Reader.since start) .other [value])
  else
    let value ← Reader.optionally do Reader.tailGap l; expressions g l
    pure (.group (← Reader.since start) .other value.toList)

end XPathTaint.Python
