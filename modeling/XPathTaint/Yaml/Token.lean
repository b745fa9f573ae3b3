import XPathTaint.Yaml.Scalar

-- Tokens of a YAML text. Indentation becomes tokens that open and close collections, and
-- a key that is only known by the colon behind it gets its token where it started.

namespace XPathTaint.Yaml

inductive Token where
  | version (major minor : Nat)
  | handle (handle : String) (meaning : String)
  | documentStart
  | documentEnd
  | blockSequenceStart
  | blockMappingStart
  | blockEnd
  | flowSequenceStart
  | flowSequenceEnd
  | flowMappingStart
  | flowMappingEnd
  | blockEntry
  | flowEntry
  | key
  | value
  | reference (name : String)
  | anchor (name : String)
  | tag (handle : String) (suffix : String)
  | scalar (text : String) (isPlain : Bool)
  deriving Repr, DecidableEq, Inhabited

/-! ## Tags and directives -/

/-- Marks that a tag may hold besides names; brackets and commas only where `wide`. -/
def isTagChar (wide : Bool) (c : Char) : Bool :=
  isNameChar c || ";/?:@&=+$.!~*'()".toList.contains c || (wide && ",[]".toList.contains c)

/-- The bytes that escapes of three characters write, and the place behind them. -/
def readEscapedBytes : (fuel : Nat) → Cursor → Option (List UInt8 × Cursor)
  | 0, _ => none
  | fuel + 1, c =>
    if c.ahead? 0 == some '%' then do
      let high ← (c.ahead? 1).bind Json.hexDigit?
      let low ← (c.ahead? 2).bind Json.hexDigit?
      let (bytes, c) ← readEscapedBytes fuel (c.skip 3)
      some (UInt8.ofNat (high * 16 + low) :: bytes, c)
    else some ([], c)

/-- The rest of a tag; escaped characters are read as what they stand for. -/
def readTagText (wide : Bool) : (fuel : Nat) → Cursor → Option (List Char × Cursor)
  | 0, _ => none
  | fuel + 1, c =>
    if c.ahead? 0 == some '%' then do
      let (bytes, c) ← readEscapedBytes (c.rest.length + 1) c
      let piece ← String.fromUTF8? ⟨bytes.toArray⟩
      let (more, c) ← readTagText wide fuel c
      some (piece.toList ++ more, c)
    else
      let (piece, c') := c.span (isTagChar wide)
      if piece.isEmpty then some ([], c)
      else (readTagText wide fuel c').map fun (more, c) => (piece ++ more, c)

/-- A handle: a mark, perhaps with a name and a second mark behind it. -/
def readHandle? (c : Cursor) : Option (String × Cursor) :=
  if c.ahead? 0 == some '!' then
    let (name, c) := c.next.span isNameChar
    if c.ahead? 0 == some '!' then some ("!" ++ String.ofList name ++ "!", c.next)
    else some ("!" ++ String.ofList name, c)
  else none

/-- A tag in one of its three forms: in angle brackets, with a handle of its own, or local.
A local tag without a name is the lone mark. -/
def readTag? (inFlow : Bool) (c : Cursor) : Option (Token × Cursor) := do
  let (token, c) ←
    if c.ahead? 1 == some '<' then do
      let (text, c) ← readTagText true (c.rest.length + 1) (c.skip 2)
      if text.isEmpty || c.ahead? 0 != some '>' then none
      else some (Token.tag "" (String.ofList text), c.next)
    else do
      let (handle, c) ← readHandle? c
      let (text, c) ← readTagText false (c.rest.length + 1) c
      if 1 < handle.length && handle.toList.getLast? == some '!' then
        if text.isEmpty then none else some (Token.tag handle (String.ofList text), c)
      else
        let suffix := String.ofList (handle.toList.drop 1 ++ text)
        some (if suffix.isEmpty then Token.tag "" "!" else Token.tag "!" suffix, c)
  if c.gapAhead 0 || (inFlow && c.ahead? 0 == some ',') then some (token, c) else none

/-- A number of at most nine digits. -/
def readVersionNumber? (c : Cursor) : Option (Nat × Cursor) :=
  let (digits, c) := c.span Char.isDigit
  if digits.isEmpty || 9 < digits.length then none else some (Json.natOfDigits digits, c)

/-- A directive behind its mark: a version, or the meaning of a handle. -/
def readDirective? (c : Cursor) : Option (Token × Cursor) := do
  let (name, c) := c.span isNameChar
  if !c.gapAhead 0 then none
  let c := c.skipWhile isBlank
  let (token, c) ←
    match String.ofList name with
    | "YAML" => do
      let (major, c) ← readVersionNumber? c
      if c.ahead? 0 != some '.' then none
      let (minor, c) ← readVersionNumber? c.next
      some (Token.version major minor, c)
    | "TAG" => do
      let (handle, c) ← readHandle? c
      if handle != "!" && handle.toList.getLast? != some '!' then none
      if !c.ahead 0 isBlank then none
      let (text, c) ← readTagText true (c.rest.length + 1) (c.skipWhile isBlank)
      if text.isEmpty || !c.gapAhead 0 then none
      some (Token.handle handle (String.ofList text), c)
    | _ => none
  some (token, ← c.skipToLineEnd?)

/-- The name of an anchor or a reference behind its mark. -/
def readAnchorName? (c : Cursor) : Option (String × Cursor) :=
  let (name, c) := c.span isNameChar
  let ends := c.gapAhead 0 || c.ahead 0 ("?:,]\x7d%@\x60".toList.contains ·)
  if name.isEmpty || !ends then none else some (String.ofList name, c)

/-! ## The state of reading tokens -/

/-- A place where a key may have started. A required one must turn out to be a key. -/
structure PossibleKey where
  required : Bool
  /-- The number of tokens before it. -/
  index : Nat
  line : Nat
  column : Nat
  deriving Repr, DecidableEq, Inhabited

/-- How many columns a key that is known by its colon may take. -/
def maxKeyLength : Nat := 1024

structure Scanner where
  cursor : Cursor
  tokens : Array Token
  /-- How many brackets are open. -/
  flow : Nat
  /-- The column of the innermost collection by indentation, -1 outside of all. -/
  indent : Int
  /-- The columns of those around it, innermost first. -/
  outer : List Int
  /-- Whether a key may start here. -/
  keyAllowed : Bool
  /-- The possible keys of each open bracket, innermost first, and of the text outside. -/
  keys : List (Option PossibleKey)
  deriving Inhabited

namespace Scanner

def ofText (text : String) : Scanner :=
  { cursor := .ofText text, tokens := #[], flow := 0, indent := -1, outer := [],
    keyAllowed := true, keys := [none] }

def inFlow (s : Scanner) : Bool := 0 < s.flow

def push (s : Scanner) (t : Token) : Scanner := { s with tokens := s.tokens.push t }

/-- The state behind `n` characters that are a token. -/
def take (s : Scanner) (n : Nat) (t : Token) : Scanner :=
  { s.push t with cursor := s.cursor.skip n }

/-! ## Collections by indentation -/

/-- Opens a collection where the text is indented deeper than before. -/
def openBlock (s : Scanner) (column : Nat) (index : Nat) (t : Token) : Scanner :=
  if !s.inFlow && s.indent < column then
    { s with indent := column, outer := s.indent :: s.outer,
             tokens := s.tokens.insertIdxIfInBounds index t }
  else s

/-- Closes the collections that stand right of a column. -/
def closeFrom (column : Int) (tokens : Array Token) :
    (indent : Int) → (outer : List Int) → Array Token × Int × List Int
  | indent, [] => (tokens, indent, [])
  | indent, next :: outer =>
    if column < indent then closeFrom column (tokens.push .blockEnd) next outer
    else (tokens, indent, next :: outer)

def closeBlocks (s : Scanner) (column : Int) : Scanner :=
  if s.inFlow then s
  else
    let (tokens, indent, outer) := closeFrom column s.tokens s.indent s.outer
    { s with tokens, indent, outer }

/-! ## Possible keys -/

/-- Gives up the possible key of the innermost bracket, unless it is required. -/
def dropKey? (s : Scanner) : Option Scanner :=
  match s.keys with
  | some k :: rest => if k.required then none else some { s with keys := none :: rest }
  | _ => some s

/-- Notes that a key may start here. -/
def noteKey? (s : Scanner) : Option Scanner :=
  if s.keyAllowed then do
    let s ← s.dropKey?
    let column := s.cursor.column
    let k : PossibleKey := ⟨!s.inFlow && s.indent == column, s.tokens.size, s.cursor.line, column⟩
    some { s with keys := some k :: s.keys.tail }
  else some s

/-- Gives up the possible keys that the text has gone too far from: a key stands on one
line and is not too long. -/
def expireKeys? (s : Scanner) : Option Scanner := do
  let expire (slot : Option PossibleKey) : Option (Option PossibleKey) :=
    match slot with
    | some k =>
      if k.line < s.cursor.line || k.column + maxKeyLength < s.cursor.column then
        if k.required then none else some none
      else some slot
    | none => some none
  some { s with keys := ← s.keys.mapM expire }

/-! ## Tokens -/

/-- The state behind blanks, comments and line ends. A tab counts as a blank where no
indentation is measured; behind a line end outside brackets a key may start. -/
def skipGaps (s : Scanner) : (fuel : Nat) → Scanner
  | 0 => s
  | fuel + 1 =>
    let c := s.cursor
    let c := if c.column == 0 && c.ahead 0 isMark then c.next else c
    let c := c.skipWhile fun ch => ch == ' ' || ((s.inFlow || !s.keyAllowed) && ch == '\t')
    let c := if c.ahead? 0 == some '#' then c.skipWhile (!isBreak ·) else c
    if c.ahead 0 isBreak then
      { s with cursor := c.next, keyAllowed := s.keyAllowed || !s.inFlow }.skipGaps fuel
    else { s with cursor := c }

/-- A token outside of all collections at the start of a line. -/
def readOutside? (s : Scanner) (read : Scanner → Option Scanner) : Option Scanner := do
  let s ← (s.closeBlocks (-1)).dropKey?
  read { s with keyAllowed := false }

def openFlow? (s : Scanner) (t : Token) : Option Scanner := do
  let s ← s.noteKey?
  some ({ s with keys := none :: s.keys, flow := s.flow + 1, keyAllowed := true }.take 1 t)

def closeFlow? (s : Scanner) (t : Token) : Option Scanner := do
  let s ← s.dropKey?
  let s := if s.inFlow then { s with keys := s.keys.tail, flow := s.flow - 1 } else s
  some ({ s with keyAllowed := false }.take 1 t)

def readFlowEntry? (s : Scanner) : Option Scanner := do
  let s ← s.dropKey?
  some ({ s with keyAllowed := true }.take 1 .flowEntry)

/-- Outside brackets an entry, a key or a value may stand only where a key may start. -/
def openHere? (s : Scanner) (t : Token) : Option Scanner :=
  if s.inFlow then some s
  else if s.keyAllowed then some (s.openBlock s.cursor.column s.tokens.size t)
  else none

def readBlockEntry? (s : Scanner) : Option Scanner := do
  let s ← (← s.openHere? .blockSequenceStart).dropKey?
  some ({ s with keyAllowed := true }.take 1 .blockEntry)

def readKey? (s : Scanner) : Option Scanner := do
  let s ← (← s.openHere? .blockMappingStart).dropKey?
  some ({ s with keyAllowed := !s.inFlow }.take 1 .key)

/-- A colon makes a key of what may have been one, or stands for a value without key. -/
def readValue? (s : Scanner) : Option Scanner :=
  match s.keys with
  | some k :: rest =>
    let s := { s with tokens := s.tokens.insertIdxIfInBounds k.index .key, keys := none :: rest,
                      keyAllowed := false }
    some ((s.openBlock k.column k.index .blockMappingStart).take 1 .value)
  | _ => do
    let s ← s.openHere? .blockMappingStart
    some ({ s with keyAllowed := !s.inFlow }.take 1 .value)

/-- A token that may be or start a key; none may start right behind it. -/
def readNode? (s : Scanner) (read : Cursor → Option (Token × Cursor)) : Option Scanner := do
  let s ← s.noteKey?
  let (t, c) ← read s.cursor
  some { s.push t with cursor := c, keyAllowed := false }

def readNamed (make : String → Token) (c : Cursor) : Option (Token × Cursor) :=
  (readAnchorName? c.next).map fun (name, c) => (make name, c)

def readQuotedToken (single : Bool) (c : Cursor) : Option (Token × Cursor) :=
  (readQuoted single (c.rest.length + 1) [] c.next).map fun (seen, c) =>
    (.scalar (String.ofList seen.reverse) false, c)

def readPlain? (s : Scanner) : Option Scanner := do
  let s ← s.noteKey?
  let limit := (s.indent + 1).toNat
  let (seen, broken, c) ← Yaml.readPlain s.inFlow limit (s.cursor.rest.length + 1) [] .empty s.cursor
  some { s.push (.scalar (String.ofList seen.reverse) true) with cursor := c, keyAllowed := broken }

def readBlockScalar? (s : Scanner) (literal : Bool) : Option Scanner := do
  let s ← s.dropKey?
  let (text, c) ← readBlock? literal s.indent s.cursor.next
  some { s.push (.scalar (String.ofList text) false) with cursor := c, keyAllowed := true }

/-- Marks that start no plain scalar. -/
def startMarks : List Char := "-?:,[]\x7b\x7d#&*!|>'\"%@\x60".toList

/-- The token that starts with a character, behind all gaps. -/
def readToken? (s : Scanner) (ch : Char) : Option Scanner :=
  let gapNext := s.cursor.gapAhead 1
  let flowOrGap := s.inFlow || gapNext
  if s.cursor.column == 0 && ch == '%' then
    s.readOutside? fun s => do
      let (t, c) ← readDirective? s.cursor.next
      some { s.push t with cursor := c }
  else if s.cursor.startsMarker '-' then s.readOutside? fun s => some (s.take 3 .documentStart)
  else if s.cursor.startsMarker '.' then s.readOutside? fun s => some (s.take 3 .documentEnd)
  else if ch == '[' then s.openFlow? .flowSequenceStart
  else if ch == '\x7b' then s.openFlow? .flowMappingStart
  else if ch == ']' then s.closeFlow? .flowSequenceEnd
  else if ch == '\x7d' then s.closeFlow? .flowMappingEnd
  else if ch == ',' then s.readFlowEntry?
  else if ch == '-' && gapNext then s.readBlockEntry?
  else if ch == '?' && flowOrGap then s.readKey?
  else if ch == ':' && flowOrGap then s.readValue?
  else if ch == '*' then s.readNode? (readNamed .reference)
  else if ch == '&' then s.readNode? (readNamed .anchor)
  else if ch == '!' then s.readNode? (readTag? s.inFlow)
  else if ch == '|' && !s.inFlow then s.readBlockScalar? true
  else if ch == '>' && !s.inFlow then s.readBlockScalar? false
  else if ch == '\'' then s.readNode? (readQuotedToken true)
  else if ch == '\"' then s.readNode? (readQuotedToken false)
  else if (!startMarks.contains ch && !isBlank ch) || (ch == '-' && !s.cursor.ahead 1 isBlank) ||
      (!s.inFlow && (ch == '?' || ch == ':') && !gapNext) then
    s.readPlain?
  else none

/-- Reads on to the end of the text. -/
def readAll? (s : Scanner) : (fuel : Nat) → Option (List Token)
  | 0 => none
  | fuel + 1 => do
    let s ← (s.skipGaps (s.cursor.rest.length + 1)).expireKeys?
    let s := s.closeBlocks s.cursor.column
    match s.cursor.rest with
    | [] => do
      let s ← (s.closeBlocks (-1)).dropKey?
      some s.tokens.toList
    | ch :: _ => do
      let s ← s.readToken? ch
      s.readAll? fuel

end Scanner

/-- The tokens of a text. A text with a character that is not allowed has none. -/
def Token.ofText? (text : String) : Option (List Token) :=
  if text.toList.all isAllowed then
    let s := Scanner.ofText text
    s.readAll? (s.cursor.rest.length + 1)
  else none

end XPathTaint.Yaml
