import XPathTaint.Python.Grammar
import XPathTaint.Python.Number

-- String literals: the letters before the quote, escapes, and values put into the text
-- between braces, which are expressions of their own.

namespace XPathTaint.Python

/-! ## Styles -/

/-- How a string is written. -/
structure StringStyle where
  quote : Char
  triple : Bool
  raw : Bool
  bytes : Bool
  format : Bool
  deriving Repr, DecidableEq, Inhabited

/-- The style that the letters and quotes at the start of a string say, and how many
characters say it. -/
def stringStyle? (cs : List Char) : Option (StringStyle × Nat) :=
  let letters := cs.takeWhile isStringLetter
  let has (small capital : Char) := letters.contains small || letters.contains capital
  match cs.drop letters.length with
  | q :: rest =>
    if isStringQuote q then
      let triple := q != '\x60' && [q, q].isPrefixOf rest
      some ({ quote := q, triple, raw := has 'r' 'R', bytes := has 'b' 'B',
              format := has 'f' 'F' }, letters.length + if triple then 3 else 1)
    else none
  | [] => none

/-! ## Escapes -/

/-- Whether a text starts with at least `n` characters of a class. -/
def startsWith (isMember : Char → Bool) (n : Nat) (cs : List Char) : Bool :=
  n ≤ ((cs.take n).filter isMember).length

/-- The length of what a backslash takes with it: what an escape names, a line end, or
nothing. -/
def escapeLength : List Char → Nat
  | 'u' :: rest => if startsWith isHexDigit 4 rest then 5 else 0
  | 'U' :: rest => if startsWith isHexDigit 8 rest then 9 else 0
  | 'x' :: rest => if startsWith isHexDigit 2 rest then 3 else 0
  | 'N' :: '\x7b' :: rest =>
    let name := rest.takeWhile (· ≠ '\x7d')
    if name.isEmpty || name.length = rest.length then 0 else name.length + 3
  | '\n' :: _ => 1
  | '\r' :: '\n' :: _ => 2
  | c :: rest =>
    if "'\"abfrntv\\".toList.contains c then 1
    else if startsWith Char.isDigit 3 (c :: rest) then 3
    else 0
  | [] => 0

/-- The length of what a backslash takes with it in a raw string: a quote or a backslash,
and a line end. -/
def rawEscapeLength (quote : Char) (cs : List Char) : Nat :=
  let mark := match cs with
    | c :: _ => if c == quote || c == '\\' then 1 else 0
    | [] => 0
  match cs.drop mark with
  | '\r' :: '\n' :: _ => mark + 2
  | '\r' :: _ => mark + 1
  | '\n' :: _ => mark + 1
  | _ => mark

/-! ## Values in a text -/

/-- What may stand between braces: a value, several, or `yield`. -/
def interpolated (g : Grammar) : Reader Node := do
  if (← Reader.wordAhead) = "yield" then yielding g .embedded else expressions g .embedded

mutual

/-- A value between braces, and the values in its format. -/
def interpolation (g : Grammar) : (fuel : Nat) → Reader (Node × List Node)
  | 0 => Reader.refuse
  | fuel + 1 => do
    Reader.theSign '\x7b'
    let start ← Reader.here
    Reader.operandGap .embedded true
    let lead ← Reader.commentSince start
    let value ← interpolated g
    Reader.tailGap .embedded
    let _ ← Reader.accepts do Reader.equals; Reader.tailGap .embedded
    let _ ← Reader.accepts do
      Reader.theSign '!'
      match ← Reader.ahead with
      | c :: _ => Reader.require (c.isLower)
      | [] => Reader.refuse
      Reader.forward 1
      Reader.tailGap .embedded
    let formats ← (do if ← Reader.sign ':' then formatValues g fuel else pure [])
    Reader.tailGap .embedded
    Reader.theSign '\x7d'
    match lead with
    | none => pure (value, formats)
    | some comment => pure (.hidden comment value, formats)

/-- The values in a format, up to the brace that closes it. -/
def formatValues (g : Grammar) : (fuel : Nat) → Reader (List Node)
  | 0 => Reader.refuse
  | fuel + 1 => do
    match ← Reader.ahead with
    | [] => Reader.refuse
    | '\x7d' :: _ => pure []
    | '\x7b' :: _ =>
      let (value, formats) ← interpolation g fuel
      pure (value :: formats ++ (← formatValues g fuel))
    | '\n' :: _ => Reader.forward 1; formatValues g fuel
    | cs =>
      Reader.forward (cs.takeWhile fun c => c ≠ '\x7b' ∧ c ≠ '\x7d' ∧ c ≠ '\n').length
      formatValues g fuel

end

/-! ## Literals -/

/-- The rest of a string up to its closing quote: the values in it, and those in their
formats. A line feed may stand in a short string only where a piece of it starts anew. -/
def stringRest (g : Grammar) (style : StringStyle) :
    (fuel : Nat) → (fresh : Bool) → Reader (List Node × List Node)
  | 0, _ => Reader.refuse
  | fuel + 1, fresh => do
    match ← Reader.ahead with
    | [] => Reader.refuse
    | c :: rest =>
      if c == '\x00' then Reader.refuse
      else if style.format && (c == '\x7b' || c == '\x7d') then
        if rest.head? = some c then
          Reader.forward 2
          stringRest g style fuel true
        else if c == '\x7b' then
          let (value, formats) ← interpolation g fuel
          let (values, more) ← stringRest g style fuel true
          pure (value :: values, formats ++ more)
        else Reader.refuse
      else if c == '\\' then
        if style.raw then
          Reader.forward (1 + rawEscapeLength style.quote rest)
          stringRest g style fuel fresh
        else if style.bytes && (rest.head?.any fun e => e == 'N' || e == 'u' || e == 'U') then
          Reader.require (2 ≤ rest.length)
          Reader.forward 3
          stringRest g style fuel false
        else
          Reader.forward (1 + escapeLength rest)
          stringRest g style fuel true
      else if c == style.quote then
        if !style.triple then
          Reader.forward 1
          pure ([], [])
        else if [c, c].isPrefixOf rest then
          Reader.forward 3
          pure ([], [])
        else
          Reader.forward (if rest.head? = some c then 2 else 1)
          stringRest g style fuel true
      else if c == '\n' && !fresh && !style.triple then Reader.refuse
      else
        Reader.forward 1
        stringRest g style fuel false

/-- One string literal. -/
def stringLiteral (g : Grammar) : Reader Node := do
  let start ← Reader.here
  match stringStyle? start.rest with
  | none => Reader.refuse
  | some (style, n) => do
    Reader.forward n
    let (values, formats) ← stringRest g style g.fuel true
    pure (.string (← Reader.since start) values formats)

/-- String literals one behind the other, after the first. -/
def moreStrings (g : Grammar) (l : Layout) : (fuel : Nat) → Reader (List Node)
  | 0 => pure []
  | fuel + 1 => do
    match ← Reader.optionally do Reader.stringGap l; stringLiteral g with
    | none => pure []
    | some part => do pure (part :: (← moreStrings g l fuel))

/-- A string literal with those that follow it. -/
def stringValue (g : Grammar) (l : Layout) : Reader Node := do
  let start ← Reader.here
  let first ← stringLiteral g
  match ← moreStrings g l g.fuel with
  | [] => pure first
  | rest => pure (.strings (← Reader.since start) (first :: rest))

end XPathTaint.Python
