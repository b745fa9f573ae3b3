-- Places in a YAML text and the classes of characters that its rules speak of. Line ends
-- are one character each: before a text is read, its other ways to end a line become line
-- feeds.

namespace XPathTaint.Yaml

/-! ## Characters -/

/-- Characters that a YAML text may hold. -/
def isAllowed (c : Char) : Bool :=
  let n := c.toNat
  n == 9 || n == 10 || n == 13 || (32 ≤ n && n ≤ 126) || n == 0x85 ||
    (0xA0 ≤ n && n ≤ 0xFFFD) || 0x10000 ≤ n

/-- Line ends that stay as they are in the text of a scalar. -/
def isKeptBreak (c : Char) : Bool := c.toNat == 0x2028 || c.toNat == 0x2029

def isBreak (c : Char) : Bool := c == '\n' || isKeptBreak c

def isBlank (c : Char) : Bool := c == ' ' || c == '\t'

def isMark (c : Char) : Bool := c.toNat == 0xFEFF

/-- Characters of names: those of handles, anchors and directives. -/
def isNameChar (c : Char) : Bool := c.isAlphanum || c == '_' || c == '-'

/-- The text with a line feed for each line end that is not kept. -/
def unifyBreaks : List Char → List Char
  | [] => []
  | '\r' :: '\n' :: rest => '\n' :: unifyBreaks rest
  | c :: rest =>
    (if c == '\r' || c.toNat == 0x85 then '\n' else c) :: unifyBreaks rest

/-! ## Places -/

/-- What is left of a text, and line and column from 0. -/
structure Cursor where
  rest : List Char
  line : Nat
  column : Nat
  deriving Repr, DecidableEq, Inhabited

namespace Cursor

/-- The start of a text, behind a byte order mark. -/
def ofText (text : String) : Cursor :=
  let chars := unifyBreaks text.toList
  ⟨if chars.head?.any isMark then chars.tail else chars, 0, 0⟩

/-- The place behind the next character. -/
def next (c : Cursor) : Cursor :=
  match c.rest with
  | [] => c
  | ch :: rest => if isBreak ch then ⟨rest, c.line + 1, 0⟩ else ⟨rest, c.line, c.column + 1⟩

/-- The place behind the next `n` characters. -/
def skip (c : Cursor) : Nat → Cursor
  | 0 => c
  | n + 1 => c.next.skip n

/-- The longest piece of characters of a class, and the place behind it. -/
def span (c : Cursor) (isMember : Char → Bool) : List Char × Cursor :=
  let piece := c.rest.takeWhile isMember
  (piece, c.skip piece.length)

def skipWhile (c : Cursor) (isMember : Char → Bool) : Cursor := (c.span isMember).2

/-- The character `n` places ahead. -/
def ahead? (c : Cursor) (n : Nat) : Option Char := c.rest[n]?

def atEnd (c : Cursor) : Bool := c.rest.isEmpty

/-- Whether the character `n` places ahead is one of a class. -/
def ahead (c : Cursor) (n : Nat) (isMember : Char → Bool) : Bool := (c.ahead? n).any isMember

/-- Whether a blank, a line end or the end of the text is `n` places ahead. -/
def gapAhead (c : Cursor) (n : Nat) : Bool :=
  match c.ahead? n with
  | none => true
  | some ch => isBlank ch || isBreak ch

/-- The place behind blanks and a comment, if a line ends there. -/
def skipToLineEnd? (c : Cursor) : Option Cursor :=
  let c := c.skipWhile isBlank
  let c := if c.ahead? 0 == some '#' then c.skipWhile (!isBreak ·) else c
  if c.atEnd || c.ahead 0 isBreak then some c else none

/-- Whether a line starts here with three of a character and a gap. -/
def startsMarker (c : Cursor) (ch : Char) : Bool :=
  c.column == 0 && [ch, ch, ch].isPrefixOf c.rest && c.gapAhead 3

/-- Whether a document starts or ends here. -/
def atDocumentMarker (c : Cursor) : Bool := c.startsMarker '-' || c.startsMarker '.'

end Cursor

end XPathTaint.Yaml
