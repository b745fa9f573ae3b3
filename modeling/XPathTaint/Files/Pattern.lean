-- Patterns for whole paths: sequences of characters and wildcards, their text as regular
-- expressions, and which paths they match. Globs are read as patterns.

namespace XPathTaint

/-- A piece of a pattern. -/
inductive PatternStep where
  | char (c : Char)
  /-- One character other than a line feed. -/
  | one
  /-- Any number of characters other than line feeds. -/
  | run
  /-- Any number of characters other than slashes. -/
  | segmentRun
  deriving Repr, DecidableEq, Inhabited

abbrev Pattern := List PatternStep

/-! ## Text -/

/-- Characters that mean something else in a regular expression unless escaped. -/
def regexMarks : List Char := ['.', '(', ')', '+', '|', '^', '$', '\x7b', '\x7d', '\\']

def PatternStep.written : PatternStep → String
  | char c => if regexMarks.contains c then "\\" ++ c.toString else c.toString
  | one => "."
  | run => ".*"
  | segmentRun => "[^/]*"

/-- The regular expression of a pattern, bound to both ends of a text. -/
def Pattern.written (p : Pattern) : String := "^" ++ String.join (p.map PatternStep.written) ++ "$"

/-! ## Matching -/

namespace PatternStep

/-- Whether a step takes a character. -/
def accepts : PatternStep → Char → Bool
  | char c, d => d == c
  | one, d => d != '\n'
  | run, d => d != '\n'
  | segmentRun, d => d != '/'

/-- Whether a step takes any number of characters, not just one. -/
def repeats : PatternStep → Bool
  | char _ => false
  | one => false
  | run => true
  | segmentRun => true

/-- For each rest of a text, the longest first, whether the step and what follows it match
the rest; `after` says the same of what follows alone. -/
def row (s : PatternStep) : List Char → List Bool → List Bool
  | [], after => [s.repeats && after.headD false]
  | c :: cs, after =>
    let later := s.row cs after.tail
    let next := if s.repeats then later else after.tail
    ((s.repeats && after.headD false) || (s.accepts c && next.headD false)) :: later

end PatternStep

namespace Pattern

/-- For each rest of a text, the longest first, whether the pattern matches it. -/
def row : Pattern → List Char → List Bool
  | [], text => text.map (fun _ => false) ++ [true]
  | s :: p, text => s.row text (row p text)

/-- Whether a pattern matches the whole of a text. -/
def matches? (p : Pattern) (text : String) : Bool := (row p text.toList).headD false

/-! ## Globs -/

/-- The steps of a glob, read from the left: a pair of stars goes before a single one. -/
def ofGlobChars : List Char → Pattern
  | [] => []
  | '*' :: '*' :: rest => .run :: ofGlobChars rest
  | '*' :: rest => .segmentRun :: ofGlobChars rest
  | '?' :: rest => .one :: ofGlobChars rest
  | c :: rest => .char c :: ofGlobChars rest

/-- The pattern of a glob. Brackets have no meaning and are refused. -/
def ofGlob? (glob : String) : Option Pattern :=
  let chars := glob.toList
  if chars.contains '[' || chars.contains ']' then none else some (ofGlobChars chars)

/-- The pattern of an exclusion: a glob, where a final slash stands for all that lies
below. -/
def ofExclusion? (text : String) : Option Pattern :=
  if text.toList.getLast? == some '/' then ofGlob? (text ++ "**") else ofGlob? text

end Pattern

end XPathTaint
