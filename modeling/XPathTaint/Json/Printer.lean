import XPathTaint.Json.Value
import XPathTaint.Text.Quoted

-- JSON text: on one line, or spread over lines with two blanks for each level. Both
-- forms keep the order of members and write the same strings and numbers.

namespace XPathTaint.Json

/-! ## Strings and numbers -/

/-- Four digits in base sixteen. -/
def hexQuad (n : Nat) : String :=
  let digits := Text.hexDigits n
  String.ofList (List.replicate (4 - digits.length) '0') ++ digits

/-- One character inside a string. -/
def escapedChar (c : Char) : String :=
  match c with
  | '\"' => "\\\""
  | '\\' => "\\\\"
  | '\n' => "\\n"
  | '\r' => "\\r"
  | '\t' => "\\t"
  | '\x08' => "\\b"
  | '\x0c' => "\\f"
  | c => if c.toNat < 32 then "\\u" ++ hexQuad c.toNat else c.toString

def writtenString (s : String) : String :=
  "\"" ++ String.join (s.toList.map escapedChar) ++ "\""

def Number.written : Number → String
  | .whole n => toString n
  | .negative n => "-" ++ toString n
  | .decimal text => text

/-! ## One line -/

mutual

def compact : Json → String
  | .null => "null"
  | .bool b => if b then "true" else "false"
  | .number n => n.written
  | .string s => writtenString s
  | .array items => "[" ++ ",".intercalate (compactItems items) ++ "]"
  | .object members => "\x7b" ++ ",".intercalate (compactMembers members) ++ "\x7d"

def compactItems : List Json → List String
  | [] => []
  | j :: rest => compact j :: compactItems rest

def compactMembers : List (String × Json) → List String
  | [] => []
  | (name, j) :: rest => (writtenString name ++ ":" ++ compact j) :: compactMembers rest

end

/-! ## Many lines -/

/-- Pieces between an opening and a closing mark, each on its own line one level in; the
two marks alone when there is no piece. -/
def spread (opening closing indent : String) (pieces : List String) : String :=
  if pieces.isEmpty then opening ++ closing
  else
    let inner := "\n" ++ indent ++ "  "
    opening ++ inner ++ ("," ++ inner).intercalate pieces ++ "\n" ++ indent ++ closing

mutual

/-- The text of a value whose first line is already indented. -/
def prettyAt (indent : String) : Json → String
  | .null => "null"
  | .bool b => if b then "true" else "false"
  | .number n => n.written
  | .string s => writtenString s
  | .array items => spread "[" "]" indent (prettyItems (indent ++ "  ") items)
  | .object members =>
    spread "\x7b" "\x7d" indent (prettyMembers (indent ++ "  ") members)

def prettyItems (indent : String) : List Json → List String
  | [] => []
  | j :: rest => prettyAt indent j :: prettyItems indent rest

def prettyMembers (indent : String) : List (String × Json) → List String
  | [] => []
  | (name, j) :: rest =>
    (writtenString name ++ ": " ++ prettyAt indent j) :: prettyMembers indent rest

end

def pretty (j : Json) : String := prettyAt "" j

end XPathTaint.Json
