import XPathTaint.Json.Reader
import XPathTaint.Yaml.Cursor

-- The texts of scalars: plain, quoted and block scalars. Line ends inside plain and quoted
-- ones fold to a blank, or to as many line feeds as there are empty lines. Each reader
-- refuses a text that is not well formed.

namespace XPathTaint.Yaml

/-! ## Gaps -/

/-- What stands between two words of a scalar: blanks, or line ends with blanks that do not
count. -/
structure Gap where
  /-- Set behind a line end. -/
  broken : Bool
  /-- Blanks before any line end, the last one first. -/
  blanks : List Char
  firstBreak : List Char
  /-- The other line ends, the last one first. -/
  moreBreaks : List Char
  deriving Repr, DecidableEq, Inhabited

namespace Gap

def empty : Gap := ⟨false, [], [], []⟩

/-- Behind a line end that was escaped. -/
def escaped : Gap := ⟨true, [], [], []⟩

/-- The text of a gap, folded. -/
def folded (g : Gap) : List Char :=
  let more := g.moreBreaks.reverse
  if !g.broken then g.blanks.reverse
  else if g.firstBreak == ['\n'] then (if more.isEmpty then [' '] else more)
  else g.firstBreak ++ more

/-- Reads on over blanks and line ends. Behind a line end a tab left of column `limit` is
refused. -/
def read? (limit : Nat) : (fuel : Nat) → Gap → Cursor → Option (Gap × Cursor)
  | 0, _, _ => none
  | fuel + 1, g, c =>
    match c.rest with
    | [] => some (g, c)
    | ch :: _ =>
      if isBlank ch then
        if g.broken && ch == '\t' && c.column < limit then none
        else read? limit fuel (if g.broken then g else { g with blanks := ch :: g.blanks }) c.next
      else if isBreak ch then
        let g := if g.broken then { g with moreBreaks := ch :: g.moreBreaks }
          else { g with broken := true, blanks := [], firstBreak := [ch] }
        read? limit fuel g c.next
      else some (g, c)

end Gap

/-! ## Plain scalars -/

/-- What came of reading the characters of a scalar up to a gap or its end. -/
inductive Word where
  | refused
  | read (seen : List Char) (c : Cursor)

/-- Marks that end a plain scalar inside brackets. -/
def isFlowMark (c : Char) : Bool := c == ',' || c == '[' || c == ']' || c == '\x7b' || c == '\x7d'

/-- Reads characters of a plain scalar up to a gap or a mark, those seen in reverse. -/
def readPlainWord (inFlow : Bool) : (fuel : Nat) → List Char → Cursor → Word
  | 0, _, _ => .refused
  | fuel + 1, seen, c =>
    match c.rest with
    | [] => .read seen c
    | ch :: _ =>
      if isBlank ch || isBreak ch then .read seen c
      else if inFlow && ch == ':' && c.ahead 1 (fun d => isFlowMark d || d == '?') then .refused
      else if (ch == ':' && c.gapAhead 1) || (inFlow && isFlowMark ch) then .read seen c
      else readPlainWord inFlow fuel (ch :: seen) c.next

/-- A plain scalar from a place on, those characters seen in reverse. Lines that go on must
reach column `limit` unless brackets are open. Also says whether a line ended behind it. -/
def readPlain (inFlow : Bool) (limit : Nat) :
    (fuel : Nat) → List Char → Gap → Cursor → Option (List Char × Bool × Cursor)
  | 0, _, _, _ => none
  | fuel + 1, seen, gap, c =>
    if c.atDocumentMarker || c.ahead? 0 == some '#' then some (seen, gap.broken, c)
    else
      match readPlainWord inFlow (c.rest.length + 1) [] c with
      | .refused => none
      | .read word c' =>
        let (seen, gap) := if word.isEmpty then (seen, gap)
          else (word ++ (gap.folded.reverse ++ seen), Gap.empty)
        if c'.ahead 0 (fun ch => isBlank ch || isBreak ch) then
          match Gap.read? limit (c'.rest.length + 1) gap c' with
          | none => none
          | some (gap, c'') =>
            if !inFlow && c''.column < limit then some (seen, gap.broken, c'')
            else readPlain inFlow limit fuel seen gap c''
        else some (seen, gap.broken, c')

/-! ## Quoted scalars -/

/-- The character of an escape of one letter. -/
def escapedChar? : Char → Option Char
  | '0' => some (Char.ofNat 0)
  | 'a' => some (Char.ofNat 7)
  | 'b' => some (Char.ofNat 8)
  | 't' => some '\t'
  | '\t' => some '\t'
  | 'n' => some '\n'
  | 'v' => some (Char.ofNat 11)
  | 'f' => some (Char.ofNat 12)
  | 'r' => some '\r'
  | 'e' => some (Char.ofNat 27)
  | ' ' => some ' '
  | '\"' => some '\"'
  | '/' => some '/'
  | '\\' => some '\\'
  | 'N' => some (Char.ofNat 0x85)
  | '_' => some (Char.ofNat 0xA0)
  | 'L' => some (Char.ofNat 0x2028)
  | 'P' => some (Char.ofNat 0x2029)
  | _ => none

/-- How many digits in base sixteen follow the letter of an escape. -/
def escapeDigits? : Char → Option Nat
  | 'x' => some 2
  | 'u' => some 4
  | 'U' => some 8
  | _ => none

/-- The character that digits in base sixteen stand for. -/
def charOfDigits? (digits : List Char) : Option Char := do
  let values ← digits.mapM Json.hexDigit?
  let n := values.foldl (fun n d => n * 16 + d) 0
  if n.isValidChar then some (Char.ofNat n) else none

/-- An escape behind its backslash: its character and the place behind it. -/
def readEscape? (c : Cursor) : Option (Char × Cursor) := do
  let letter ← c.ahead? 0
  match escapeDigits? letter with
  | some count =>
    let digits := c.next.rest.take count
    if digits.length = count then some (← charOfDigits? digits, c.skip (count + 1)) else none
  | none => some (← escapedChar? letter, c.next)

/-- What came of reading the characters of a quoted scalar up to a gap or its end; the flag
tells that an escaped line end was read. -/
inductive QuotedWord where
  | refused
  | read (seen : List Char) (escapedBreak : Bool) (c : Cursor)

def readQuotedWord (single : Bool) : (fuel : Nat) → List Char → Cursor → QuotedWord
  | 0, _, _ => .refused
  | fuel + 1, seen, c =>
    match c.rest with
    | [] => .read seen false c
    | ch :: _ =>
      if isBlank ch || isBreak ch then .read seen false c
      else if single && ch == '\'' && c.ahead? 1 == some '\'' then
        readQuotedWord single fuel ('\'' :: seen) (c.skip 2)
      else if ch == (if single then '\'' else '\"') then .read seen false c
      else if !single && ch == '\\' then
        if c.ahead 1 isBreak then .read seen true (c.skip 2)
        else
          match readEscape? c.next with
          | some (char, c') => readQuotedWord single fuel (char :: seen) c'
          | none => .refused
      else readQuotedWord single fuel (ch :: seen) c.next

/-- A quoted scalar behind its first quote, those characters seen in reverse. -/
def readQuoted (single : Bool) : (fuel : Nat) → List Char → Cursor → Option (List Char × Cursor)
  | 0, _, _ => none
  | fuel + 1, seen, c =>
    if c.atDocumentMarker || c.atEnd then none
    else
      match readQuotedWord single (c.rest.length + 1) seen c with
      | .refused => none
      | .read seen escapedBreak c =>
        if c.ahead? 0 == some (if single then '\'' else '\"') then some (seen, c.next)
        else
          let gap := if escapedBreak then Gap.escaped else Gap.empty
          match Gap.read? 0 (c.rest.length + 1) gap c with
          | none => none
          | some (gap, c) => readQuoted single fuel (gap.folded.reverse ++ seen) c

/-! ## Block scalars -/

/-- What becomes of the line ends behind a block scalar. -/
inductive Chomping where
  | clip
  | strip
  | keep
  deriving Repr, DecidableEq, Inhabited

def chomping? (c : Cursor) : Option Chomping :=
  match c.ahead? 0 with
  | some '+' => some .keep
  | some '-' => some .strip
  | _ => none

/-- The header behind the first mark: what becomes of the last line ends, the indentation
if it is given, and the place behind them. The indentation is one digit other than zero. -/
def readHeader? (c : Cursor) : Option (Chomping × Option Nat × Cursor) :=
  let chomping := chomping? c
  let c := if chomping.isSome then c.next else c
  match c.ahead? 0 with
  | some d =>
    if d.isDigit then
      if d == '0' then none
      else
        let c := c.next
        let later := if chomping.isSome then none else chomping? c
        some ((chomping.or later).getD .clip, some (d.toNat - '0'.toNat),
          if later.isSome then c.next else c)
    else some (chomping.getD .clip, none, c)
  | none => some (chomping.getD .clip, none, c)

/-- Reads indentation and empty lines. While the indentation is not known, the deepest one
is measured; a tab in place of a blank is refused. -/
def readIndents (indent : Option Nat) :
    (fuel : Nat) → (deepest : Nat) → (breaks : List Char) → Cursor →
      Option (Nat × List Char × Cursor)
  | 0, _, _, _ => none
  | fuel + 1, deepest, breaks, c =>
    let room := match indent with
      | some n => n - c.column
      | none => c.rest.length
    let c := c.skip ((c.rest.take room).takeWhile (· == ' ')).length
    let deepest := max deepest c.column
    if c.ahead? 0 == some '\t' && indent.all (c.column < ·) then none
    else
      match c.rest with
      | [] => some (deepest, breaks, c)
      | ch :: _ =>
        if isBreak ch then readIndents indent fuel deepest (ch :: breaks) c.next
        else some (deepest, breaks, c)

/-- The state between two lines of a block scalar: the text so far, the last line end and
the empty lines behind it, all in reverse, and whether the last line started with a
blank. -/
structure BlockText where
  seen : List Char
  lineEnd : List Char
  emptyLines : List Char
  startsBlank : Bool

/-- Reads the lines of a block scalar that stand at its indentation. -/
def readLines (literal : Bool) (indent : Nat) :
    (fuel : Nat) → BlockText → Cursor → Option (BlockText × Cursor)
  | 0, _, _ => none
  | fuel + 1, t, c =>
    if c.column == indent && !c.atEnd then
      let blank := c.ahead 0 isBlank
      let folds := !literal && t.lineEnd == ['\n'] && !t.startsBlank && !blank
      let between := if folds then (if t.emptyLines.isEmpty then [' '] else t.emptyLines)
        else t.emptyLines ++ t.lineEnd
      let (line, c) := c.span (!isBreak ·)
      let seen := line.reverse ++ (between ++ t.seen)
      let lineEnd := c.rest.take 1
      match readIndents (some indent) (c.rest.length + 1) 0 [] c.next with
      | none => none
      | some (_, emptyLines, c) => readLines literal indent fuel ⟨seen, lineEnd, emptyLines, blank⟩ c
    else some (t, c)

/-- A block scalar behind its mark, where the collection around it is indented by `outer`,
-1 outside of all. -/
def readBlock? (literal : Bool) (outer : Int) (c : Cursor) : Option (List Char × Cursor) := do
  let (chomping, given, c) ← readHeader? c
  let c ← c.skipToLineEnd?
  let c := c.next
  let fuel := c.rest.length + 1
  let known := given.map fun n => if 0 ≤ outer then outer.toNat + n else n
  let (deepest, emptyLines, c) ← readIndents known fuel 0 [] c
  let indent := known.getD (max (max deepest (outer + 1).toNat) 1)
  let (t, c) ← readLines literal indent fuel ⟨[], [], emptyLines, false⟩ c
  let seen := match chomping with
    | .strip => t.seen
    | .clip => t.lineEnd ++ t.seen
    | .keep => t.emptyLines ++ (t.lineEnd ++ t.seen)
  some (seen.reverse, c)

end XPathTaint.Yaml
