import XPathTaint.Text.WordChars

-- A place in a text that is being read, pieces of text between two places, and readers:
-- functions from a place to a value and a later place that may also refuse.

namespace XPathTaint.Python

/-! ## Places -/

/-- What is left of a text, the offset in bytes, and line and column from 1. -/
structure Cursor where
  rest : List Char
  pos : Nat
  line : Nat
  column : Nat
  deriving Inhabited

namespace Cursor

def ofText (text : String) : Cursor := ⟨text.toList, 0, 1, 1⟩

/-- The place behind the next character. -/
def next (c : Cursor) : Cursor :=
  match c.rest with
  | [] => c
  | '\n' :: rest => ⟨rest, c.pos + 1, c.line + 1, 1⟩
  | ch :: rest => ⟨rest, c.pos + ch.utf8Size, c.line, c.column + ch.utf8Size⟩

/-- The place behind the next `n` characters. -/
def skip (c : Cursor) : Nat → Cursor
  | 0 => c
  | n + 1 => c.next.skip n

end Cursor

/-- A piece of a text: its first byte, the byte behind it, its place and its wording. -/
structure Span where
  pos : Nat
  stop : Nat
  line : Nat
  column : Nat
  text : String
  deriving Repr, DecidableEq, Inhabited

/-- The characters that fill a number of bytes. -/
def takeBytes (n : Nat) : List Char → List Char
  | [] => []
  | c :: rest => if n = 0 then [] else c :: takeBytes (n - c.utf8Size) rest

/-- The piece between two places of one text. -/
def Cursor.to (start stop : Cursor) : Span :=
  { pos := start.pos, stop := stop.pos, line := start.line, column := start.column,
    text := String.ofList (takeBytes (stop.pos - start.pos) start.rest) }

/-! ## Readers -/

/-- Reads a value and moves on, or refuses. -/
abbrev Reader := StateT Cursor Option

namespace Reader

def refuse {α : Type} : Reader α := fun _ => none

/-- The characters ahead. -/
def ahead : Reader (List Char) := fun c => some (c.rest, c)

/-- The value of a reader, or nothing without moving. -/
def optionally {α : Type} (p : Reader α) : Reader (Option α) := fun c =>
  match p c with
  | some (a, after) => some (some a, after)
  | none => some (none, c)

/-- Whether a reader accepts; moves behind what it read if so. -/
def accepts {α : Type} (p : Reader α) : Reader Bool := fun c =>
  match p c with
  | some (_, after) => some (true, after)
  | none => some (false, c)

/-- Whether a reader would accept; does not move. -/
def foresees {α : Type} (p : Reader α) : Reader Bool := fun c => some ((p c).isSome, c)

/-- The value of a reader; does not move. -/
def glimpse {α : Type} (p : Reader α) : Reader (Option α) := fun c =>
  some ((p c).map (·.1), c)

/-- Refuses unless a condition holds. -/
def require (condition : Bool) : Reader Unit := if condition then pure () else refuse

/-- Moves on by a number of characters. -/
def forward (n : Nat) : Reader Unit := fun c => some ((), c.skip n)

/-- The piece from `start` to here. -/
def since (start : Cursor) : Reader Span := fun c => some (start.to c, c)

/-- Reads exactly these characters. -/
def exactly (mark : String) : Reader Unit := fun c =>
  let chars := mark.toList
  if chars.isPrefixOf c.rest then some ((), c.skip chars.length) else none

end Reader

/-! ## Words -/

/-- The word that starts a text, if one does. -/
def wordOf (cs : List Char) : List Char :=
  match cs with
  | [] => []
  | c :: _ => if Text.isWordStart c then cs.takeWhile Text.isWordPart else []

/-- The word ahead, empty if there is none; does not move. -/
def Reader.wordAhead : Reader String := fun c => some (String.ofList (wordOf c.rest), c)

/-- Reads any word. -/
def Reader.word : Reader Span := fun c =>
  match wordOf c.rest with
  | [] => none
  | w => let after := c.skip w.length; some (c.to after, after)

/-- Reads this word and not a longer one. -/
def Reader.keyword (w : String) : Reader Unit := fun c =>
  let found := wordOf c.rest
  if found = w.toList then some ((), c.skip found.length) else none

end XPathTaint.Python
