import XPathTaint.Text.Double
import XPathTaint.Toml.Value

-- Reads TOML texts. Each reader takes what is left of the text, and gives a value and the
-- rest, or refuses.

namespace XPathTaint.Toml

/-! ## Blanks and comments -/

def isBlank (c : Char) : Bool := c == ' ' || c == '\t'

def skipBlanks (cs : List Char) : List Char := cs.dropWhile isBlank

/-- Characters that may stand in comments and strings. -/
def isPrintable (c : Char) : Bool := c == '\t' || (32 ≤ c.toNat && c.toNat != 127)

def skipComment : List Char → List Char
  | '#' :: rest => rest.dropWhile isPrintable
  | rest => rest

/-- The rest behind a line end, if one is next. -/
def lineEnd? : List Char → Option (List Char)
  | '\n' :: rest => some rest
  | '\r' :: '\n' :: rest => some rest
  | _ => none

/-- The rest behind blanks, a comment and the end of the line or of the text. -/
def endLine? (cs : List Char) : Option (List Char) :=
  match skipComment (skipBlanks cs) with
  | [] => some []
  | rest => lineEnd? rest

/-- Blanks, comments and line ends, as they may stand between the items of an array. -/
def skipLines : (fuel : Nat) → List Char → List Char
  | 0, cs => cs
  | fuel + 1, cs =>
    let rest := skipComment (skipBlanks cs)
    match lineEnd? rest with
    | some rest => skipLines fuel rest
    | none => rest

/-! ## Strings -/

/-- The character of an escape of one letter. -/
def escapedChar? : Char → Option Char
  | 'b' => some '\x08'
  | 't' => some '\t'
  | 'n' => some '\n'
  | 'f' => some '\x0c'
  | 'r' => some '\r'
  | '\"' => some '\"'
  | '\\' => some '\\'
  | _ => none

/-- The character of a number of digits in base sixteen, and the rest. -/
def readCode? (count : Nat) (cs : List Char) : Option (Char × List Char) := do
  let digits ← (cs.take count).mapM Json.hexDigit?
  let n := digits.foldl (fun n d => n * 16 + d) 0
  if digits.length = count ∧ n.isValidChar then some (Char.ofNat n, cs.drop count) else none

/-- An escape behind its backslash. -/
def readEscape? : List Char → Option (Char × List Char)
  | 'u' :: rest => readCode? 4 rest
  | 'U' :: rest => readCode? 8 rest
  | c :: rest => (escapedChar? c).map fun char => (char, rest)
  | [] => none

/-- A string in double quotes behind the first one. -/
def readBasic : (fuel : Nat) → List Char → Option (List Char × List Char)
  | 0, _ => none
  | fuel + 1, cs =>
    match cs with
    | '\"' :: rest => some ([], rest)
    | '\\' :: rest => do
      let (c, rest) ← readEscape? rest
      let (more, rest) ← readBasic fuel rest
      some (c :: more, rest)
    | c :: rest =>
      if isPrintable c then (readBasic fuel rest).map fun (more, rest) => (c :: more, rest) else none
    | [] => none

/-- A string in single quotes behind the first one. -/
def readLiteral (cs : List Char) : Option (List Char × List Char) :=
  let text := cs.takeWhile fun c => isPrintable c && c != '\''
  match cs.drop text.length with
  | '\'' :: rest => some (text, rest)
  | _ => none

def skipBlankLines : List Char → List Char
  | [] => []
  | '\r' :: '\n' :: rest => skipBlankLines rest
  | c :: rest => if isBlank c || c == '\n' then skipBlankLines rest else c :: rest

/-- The rest behind a backslash that ends a line: all blanks and line ends are passed. -/
def skipEscapedLines? (cs : List Char) : Option (List Char) :=
  (lineEnd? (skipBlanks cs)).map skipBlankLines

/-- A string of several lines behind its first three quotes. Up to two quotes may stand
before the last three. -/
def readLong (quote : Char) (escapes : Bool) : (fuel : Nat) → List Char → Option (List Char × List Char)
  | 0, _ => none
  | fuel + 1, cs =>
    let quotes := min (cs.takeWhile (· == quote)).length 5
    if 3 ≤ quotes then some (List.replicate (quotes - 3) quote, cs.drop quotes)
    else
      match lineEnd? cs with
      | some rest => (readLong quote escapes fuel rest).map fun (more, rest) => ('\n' :: more, rest)
      | none =>
        match cs with
        | [] => none
        | c :: rest =>
          if escapes && c == '\\' then
            match skipEscapedLines? rest with
            | some rest => readLong quote escapes fuel rest
            | none => do
              let (c, rest) ← readEscape? rest
              let (more, rest) ← readLong quote escapes fuel rest
              some (c :: more, rest)
          else if isPrintable c then
            (readLong quote escapes fuel rest).map fun (more, rest) => (c :: more, rest)
          else none

/-- A string of one line in either kind of quotes. -/
def readShortString? : List Char → Option (List Char × List Char)
  | '\"' :: rest => readBasic (rest.length + 1) rest
  | '\'' :: rest => readLiteral rest
  | _ => none

/-- A string of any kind; a line end right behind three quotes does not count. -/
def readString? : List Char → Option (List Char × List Char)
  | '\"' :: '\"' :: '\"' :: rest =>
    readLong '\"' true (rest.length + 1) ((lineEnd? rest).getD rest)
  | '\'' :: '\'' :: '\'' :: rest =>
    readLong '\'' false (rest.length + 1) ((lineEnd? rest).getD rest)
  | cs => readShortString? cs

/-! ## Keys -/

def isKeyChar (c : Char) : Bool := c.isAlphanum || c == '_' || c == '-'

/-- A key without dots. -/
def readSimpleKey? (cs : List Char) : Option (String × List Char) :=
  match readShortString? cs with
  | some (key, rest) => some (String.ofList key, rest)
  | none =>
    let key := cs.takeWhile isKeyChar
    if key.isEmpty then none else some (String.ofList key, cs.drop key.length)

/-- Keys with dots between them and blanks around each. -/
def readKey : (fuel : Nat) → List Char → Option (List String × List Char)
  | 0, _ => none
  | fuel + 1, cs => do
    let (key, rest) ← readSimpleKey? (skipBlanks cs)
    match skipBlanks rest with
    | '.' :: rest => (readKey fuel rest).map fun (keys, rest) => (key :: keys, rest)
    | rest => some ([key], rest)

/-- How deep arrays, tables in braces and keys may nest. -/
def maxNesting : Nat := 80

def readKey? (cs : List Char) : Option (List String × List Char) :=
  (readKey (cs.length + 1) cs).bind fun found =>
    if found.1.length < maxNesting then some found else none

/-! ## Numbers and dates -/

/-- Digits without the underscores between them; each must stand between two digits. -/
def plainDigits? (isMember : Char → Bool) : List Char → Option (List Char)
  | [] => none
  | [c] => if isMember c then some [c] else none
  | c :: '_' :: rest => if isMember c then (plainDigits? isMember rest).map (c :: ·) else none
  | c :: rest => if isMember c then (plainDigits? isMember rest).map (c :: ·) else none

/-- The number of digits in a base. -/
def readBase? (base : Nat) (cs : List Char) : Option Nat := do
  let isMember (c : Char) : Bool := (Json.hexDigit? c).any (· < base)
  let digits ← plainDigits? isMember cs
  let values ← digits.mapM Json.hexDigit?
  some (values.foldl (fun n d => n * base + d) 0)

/-- A sign and what stands behind it; the flag tells a minus sign. -/
def splitSign : List Char → Bool × List Char
  | '-' :: rest => (true, rest)
  | '+' :: rest => (false, rest)
  | rest => (false, rest)

/-- Decimal digits that start with no zero unless they are one. -/
def wholeDigits? (cs : List Char) : Option (List Char) :=
  match cs with
  | '0' :: _ :: _ => none
  | _ => plainDigits? Char.isDigit cs

/-- Whether a whole number fits into a signed word of 64 bits. -/
def fitsWord (n : Int) : Bool := decide (Int64.minValue.toInt ≤ n ∧ n ≤ Int64.maxValue.toInt)

def readInt? (cs : List Char) : Option Int := do
  let n : Int ← match cs with
    | '0' :: 'x' :: digits => (readBase? 16 digits).map (fun n => (n : Int))
    | '0' :: 'o' :: digits => (readBase? 8 digits).map (fun n => (n : Int))
    | '0' :: 'b' :: digits => (readBase? 2 digits).map (fun n => (n : Int))
    | cs =>
      let (minus, digits) := splitSign cs
      (wholeDigits? digits).map fun ds =>
        let n : Int := Json.natOfDigits ds
        if minus then -n else n
  if fitsWord n then some n else none

def infinityBits : UInt64 := 0x7FF0000000000000
def minusInfinityBits : UInt64 := 0xFFF0000000000000
def nanBits : UInt64 := 0x7FF8000000000000

/-- The exponent of a number behind its letter, without underscores. -/
def exponentDigits? (cs : List Char) : Option (List Char) :=
  match cs with
  | '+' :: rest => (plainDigits? Char.isDigit rest).map ('+' :: ·)
  | '-' :: rest => (plainDigits? Char.isDigit rest).map ('-' :: ·)
  | rest => plainDigits? Char.isDigit rest

/-- A number with a point, an exponent or both, or one of the special ones. Only below zero
may it be too large. -/
def readFloat? (cs : List Char) : Option UInt64 := do
  let (minus, body) := splitSign cs
  if body == ['i', 'n', 'f'] then some (if minus then minusInfinityBits else infinityBits)
  else if body == ['n', 'a', 'n'] then some nanBits
  else
    let isExp (c : Char) : Bool := c == 'e' || c == 'E'
    let mantissa := body.takeWhile (!isExp ·)
    let whole := mantissa.takeWhile (· != '.')
    let ds ← wholeDigits? whole
    let fraction ← match mantissa.drop whole.length with
      | [] => some []
      | _ :: rest => plainDigits? Char.isDigit rest
    let exponent ← match body.drop mantissa.length with
      | [] => some []
      | _ :: rest => (exponentDigits? rest).map ('e' :: ·)
    if fraction.isEmpty && exponent.isEmpty then none
    let point := if fraction.isEmpty then [] else '.' :: fraction
    let d ← Double.Decimal.read? (ds ++ point ++ exponent)
    match d.nearest? minus with
    | some bits => some bits
    | none => if minus then some minusInfinityBits else none

/-- A number of exactly so many digits. -/
def fixedDigits? (count : Nat) (cs : List Char) : Option (Nat × List Char) :=
  let digits := cs.take count
  if digits.length = count && digits.all Char.isDigit then
    some (Json.natOfDigits digits, cs.drop count)
  else none

def expect? (c : Char) : List Char → Option (List Char)
  | d :: rest => if d == c then some rest else none
  | [] => none

def daysIn (year month : Nat) : Nat :=
  if month = 2 then
    if year % 4 = 0 ∧ (year % 100 ≠ 0 ∨ year % 400 = 0) then 29 else 28
  else if [4, 6, 9, 11].contains month then 30 else 31

/-- The rest behind a date. -/
def skipDate? (cs : List Char) : Option (List Char) := do
  let (year, cs) ← fixedDigits? 4 cs
  let (month, cs) ← fixedDigits? 2 (← expect? '-' cs)
  let (day, cs) ← fixedDigits? 2 (← expect? '-' cs)
  if 1 ≤ month ∧ month ≤ 12 ∧ 1 ≤ day ∧ day ≤ daysIn year month then some cs else none

/-- The rest behind a time of day. A minute may have a leap second. -/
def skipTime? (cs : List Char) : Option (List Char) := do
  let (hour, cs) ← fixedDigits? 2 cs
  let (minute, cs) ← fixedDigits? 2 (← expect? ':' cs)
  let (second, cs) ← fixedDigits? 2 (← expect? ':' cs)
  if hour < 24 ∧ minute < 60 ∧ second ≤ 60 then
    match cs with
    | '.' :: rest =>
      if rest.head?.any Char.isDigit then some (rest.dropWhile Char.isDigit) else none
    | cs => some cs
  else none

/-- Whether a text is the offset of a time zone, or nothing. -/
def isOffset (cs : List Char) : Bool :=
  match cs with
  | [] => true
  | ['Z'] => true
  | ['z'] => true
  | sign :: rest => (sign == '+' || sign == '-') && (do
      let (hour, rest) ← fixedDigits? 2 rest
      let (minute, rest) ← fixedDigits? 2 (← expect? ':' rest)
      some (decide (hour < 24 ∧ minute < 60) && rest.isEmpty)) == some true

/-- Whether a text is a date, a time of day, or both. -/
def isDateText (cs : List Char) : Bool :=
  match skipDate? cs with
  | some [] => true
  | some (c :: rest) =>
    (c == 'T' || c == 't' || c == ' ') && (skipTime? rest).any isOffset
  | none => skipTime? cs == some []

def isWordChar (c : Char) : Bool := isKeyChar c || c == '+' || c == '.' || c == ':'

/-- A value without quotes or brackets. A date may go on with a time behind a blank. -/
def readWord? (cs : List Char) : Option (Value × List Char) :=
  let word := cs.takeWhile isWordChar
  let rest := cs.drop word.length
  let longer := match rest with
    | ' ' :: more => word ++ ' ' :: more.takeWhile isWordChar
    | _ => word
  if word.isEmpty then none
  else if word == "true".toList then some (.bool true, rest)
  else if word == "false".toList then some (.bool false, rest)
  else
    match readInt? word, readFloat? word with
    | some n, _ => some (.int n, rest)
    | none, some bits => some (.float bits, rest)
    | none, none =>
      if isDateText longer then some (.date (String.ofList longer), cs.drop longer.length)
      else if isDateText word then some (.date (String.ofList word), rest)
      else none

/-! ## Values -/

mutual

/-- A value; arrays and tables in braces nest no deeper than `depth`. -/
def readValue (depth : Nat) : (fuel : Nat) → List Char → Option (Value × List Char)
  | 0, _ => none
  | fuel + 1, cs =>
    match cs with
    | '[' :: rest =>
      match depth with
      | 0 => none
      | depth + 1 =>
        (readItems depth fuel (skipLines (rest.length + 1) rest)).map
          fun (items, rest) => (.array items, rest)
    | '\x7b' :: rest =>
      match depth with
      | 0 => none
      | depth + 1 =>
        match skipBlanks rest with
        | '\x7d' :: rest => some (.table [], rest)
        | rest => (readPairs depth fuel [] rest).map
            fun (members, rest) => (.table (memberValues members), rest)
    | '\"' :: _ => (readString? cs).map fun (s, rest) => (.string (String.ofList s), rest)
    | '\'' :: _ => (readString? cs).map fun (s, rest) => (.string (String.ofList s), rest)
    | _ => readWord? cs

/-- The items of an array up to its end; a comma may stand behind the last one. -/
def readItems (depth : Nat) : (fuel : Nat) → List Char → Option (List Value × List Char)
  | 0, _ => none
  | fuel + 1, cs =>
    match cs with
    | ']' :: rest => some ([], rest)
    | cs => do
      let (item, rest) ← readValue depth fuel cs
      match skipLines (rest.length + 1) rest with
      | ',' :: rest => do
        let (items, rest) ← readItems depth fuel (skipLines (rest.length + 1) rest)
        some (item :: items, rest)
      | ']' :: rest => some ([item], rest)
      | _ => none

/-- The pairs of a table in braces up to its end. -/
def readPairs (depth : Nat) :
    (fuel : Nat) → Members → List Char → Option (Members × List Char)
  | 0, _, _ => none
  | fuel + 1, members, cs => do
    let (key, rest) ← readKey? cs
    let (value, rest) ← readValue depth fuel (skipBlanks (← expect? '=' rest))
    let members ← Members.setValue? key value members
    match skipBlanks rest with
    | ',' :: rest => readPairs depth fuel members rest
    | '\x7d' :: rest => some (members, rest)
    | _ => none

end

/-! ## Documents -/

/-- What is read so far: the whole table, and the keys of the open header. -/
structure Document where
  members : Members
  header : List String

namespace Document

/-- Sets a key in the table of the open header. -/
def setValue? (d : Document) (key : List String) (v : Value) : Option Document := do
  let members ← Members.change? false (fun _ inner => Members.setValue? key v inner)
    d.header .given d.members
  some { d with members }

/-- A line that is neither blank nor a comment: a header, or a key and its value. -/
def readLine? (d : Document) (cs : List Char) : Option (Document × List Char) :=
  match cs with
  | '[' :: '[' :: rest => do
    let (key, rest) ← readKey? rest
    let rest ← expect? ']' (← expect? ']' rest)
    some (⟨← Members.startRow? key d.members, key⟩, rest)
  | '[' :: rest => do
    let (key, rest) ← readKey? rest
    let rest ← expect? ']' rest
    some (⟨← Members.startTable? key d.members, key⟩, rest)
  | cs => do
    let (key, rest) ← readKey? cs
    let rest ← expect? '=' rest
    let (value, rest) ← readValue (maxNesting - 1) (2 * rest.length + 2) (skipBlanks rest)
    some (← d.setValue? key value, rest)

/-- Reads lines up to the end of the text. -/
def readAll (d : Document) : (fuel : Nat) → List Char → Option Document
  | 0, _ => none
  | fuel + 1, cs =>
    match skipLines (cs.length + 1) cs with
    | [] => some d
    | cs => do
      let (d, rest) ← d.readLine? cs
      readAll d fuel (← endLine? rest)

end Document

/-- The members of the table that a text writes. -/
def read? (text : String) : Option (List (String × Value)) :=
  let chars := text.toList
  let chars := if chars.head?.any (·.toNat == 0xFEFF) then chars.tail else chars
  (Document.readAll ⟨[], []⟩ (chars.length + 1) chars).map fun d => memberValues d.members

end XPathTaint.Toml
