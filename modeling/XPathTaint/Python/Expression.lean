import XPathTaint.Python.Atoms

-- Expressions. An operand is read, then the operators behind it that bind more tightly
-- than the floor; each level of nesting reads through a grammar with less fuel.

namespace XPathTaint.Python

/-! ## Parameters -/

/-- Whether a comment stands in a bracket before its first part: only blanks and comments do. -/
def startsWithComment (bracket first : Span) : Bool :=
  (bracket.text.toList.takeWhile (· ≠ '#')).length < first.pos - bracket.pos

/-- The name that a parameter has: the first one in it, unless a comment stands before that. -/
def parameterName : Node → Option String
  | .name s => some s.text
  | .member _ object _ => parameterName object
  | .subscript _ value _ => parameterName value
  | .call _ func _ => parameterName func
  | .paren _ none inner => parameterName inner
  | .starred _ none inner => parameterName inner
  | .group s _ (first :: _) => if startsWithComment s first.span then none else parameterName first
  | _ => none

/-- A parameter: its name if it has one, and its default. -/
structure Param where
  name : Option String
  value : Option Node

/-- Reads one parameter; `typed` reads the colon and type that may follow a name. -/
def parameter (g : Grammar) (l : Layout) (typed : Reader Unit) : Reader Param := do
  match ← Reader.ahead with
  | '/' :: _ => Reader.forward 1; pure ⟨none, none⟩
  | '*' :: _ =>
    let pairs := (← Reader.ahead).take 2 = ['*', '*']
    Reader.forward (if pairs then 2 else 1)
    let behind ← Reader.here
    let target ← Reader.optionally do
      Reader.operandGap l (!pairs)
      let lead ← Reader.commentSince behind
      let value ← simpleTarget g l
      let _ ← Reader.accepts typed
      pure (if lead.isSome then none else parameterName value)
    match target with
    | some name => pure ⟨name, none⟩
    | none => Reader.require !pairs; pure ⟨none, none⟩
  | cs =>
    let name ← (do
      if cs.head? = some '(' then
        pure (parameterName (← bracketed g l '(' ')' (targetItem g [] g.fuel l.bracketed)))
      else
        let word ← Reader.word
        let _ ← Reader.accepts typed
        pure (some word.text))
    let value ← Reader.optionally do
      Reader.tailGap l
      Reader.equals
      Reader.operandGap l false
      g.expr l .all
    pure ⟨name, value⟩

/-- Parameters with commas between them; `isEnd` sees the end of the list. -/
def moreParameters (l : Layout) (one : Reader Param) : (fuel : Nat) → Reader (List Param)
  | 0 => pure []
  | fuel + 1 => do
    let comma ← Reader.accepts do Reader.tailGap l; Reader.theSign ','
    if !comma then pure []
    else
      match ← Reader.optionally do Reader.listGap l; one with
      | none => pure []
      | some param => do pure (param :: (← moreParameters l one fuel))

def parameters (g : Grammar) (l : Layout) (typed : Reader Unit) : Reader (List Param) := do
  let one := parameter g l typed
  let first ← one
  pure (first :: (← moreParameters l one g.fuel))

def paramNames (params : List Param) : List String := params.filterMap (·.name)

def paramDefaults (params : List Param) : List Node := params.filterMap (·.value)

/-! ## Operands -/

/-- `lambda`, whose body takes in everything that the floor does not keep out. -/
def lambdaValue (g : Grammar) (l : Layout) (floor : Floor) : Reader Node := do
  let start ← Reader.here
  let inner := l.inside
  Reader.keyword "lambda"
  Reader.gap inner
  let params ← (do
    if (← Reader.ahead).head? = some ':' then pure []
    else
      let params ← parameters g inner Reader.refuse
      Reader.gap inner
      pure params)
  Reader.theSign ':'
  Reader.operandGap inner false
  let body ← g.expr l (if floor = .loopSource then .loopSource else .all)
  pure (.lambda (← Reader.since start) (paramNames params) (paramDefaults params) body)

/-- A value whose only part is the operand behind a sign or word of `n` characters. -/
def prefixed (g : Grammar) (l : Layout) (n : Nat) : Reader Node := do
  let start ← Reader.here
  Reader.forward n
  Reader.operandGap l false
  let value ← g.expr l .unaryOperand
  pure (.group (← Reader.since start) .other [value])

/-- A word: `await` with its operand, a constant or a name. -/
def wordValue (g : Grammar) (l : Layout) : Reader Node := do
  let start ← Reader.here
  let word ← Reader.word
  let awaits ← Reader.foresees do
    Reader.require (word.text = "await")
    Reader.tailGap l
    Reader.require (startsOperand (← Reader.ahead))
  if awaits then
    Reader.operandGap l false
    let value ← g.expr l .unaryOperand
    pure (.group (← Reader.since start) .other [value])
  else if constantWords.contains word.text then pure (.constant word)
  else pure (.name word)

/-- A value without operators behind it. -/
def atom (g : Grammar) (l : Layout) : Reader Node := do
  let cs ← Reader.ahead
  let start ← Reader.here
  if startsString cs then stringValue g l
  else
    match cs with
    | '(' :: _ => parenthesized g l
    | '[' :: _ => listDisplay g l
    | '\x7b' :: _ => braced g l
    | '+' :: _ => prefixed g l 1
    | '-' :: _ => prefixed g l 1
    | '~' :: _ => prefixed g l 1
    | '*' :: '*' :: _ => Reader.refuse
    | '*' :: _ => starOf l (simpleTarget g l)
    | '.' :: '.' :: '.' :: _ => Reader.forward 3; pure (.constant (← Reader.since start))
    | cs =>
      let n := numberLength cs
      if n = 0 then wordValue g l
      else
        Reader.forward n
        pure (.constant (← Reader.since start))

/-! ## Operators -/

/-- Members, items and calls behind a value that started at `start`. -/
def trailers (g : Grammar) (l : Layout) (start : Cursor) : (fuel : Nat) → Node → Reader Node
  | 0, value => pure value
  | fuel + 1, value => do
    let trailer ← Reader.optionally do
      Reader.tailGap l
      match ← Reader.ahead with
      | '.' :: _ =>
        Reader.forward 1
        Reader.gap l
        let attr ← Reader.word
        pure (.member (← Reader.since start) value attr.text)
      | '(' :: _ =>
        let args ← arguments g l true
        pure (.call (← Reader.since start) value args)
      | '[' :: _ =>
        let found ← indices g l
        pure (.subscript (← Reader.since start) value found)
      | _ => Reader.refuse
    match trailer with
    | none => pure value
    | some value => trailers g l start fuel value

/-- Binary operators above the floor behind a value that started at `start`. -/
def binaryTail (g : Grammar) (l : Layout) (floor : Floor) (start : Cursor) :
    (fuel : Nat) → Node → Reader Node
  | 0, value => pure value
  | fuel + 1, value => do
    let combined ← Reader.optionally do
      Reader.tailGap l
      match binaryOperator? (← Reader.ahead) with
      | none => Reader.refuse
      | some (n, strength) => do
        Reader.require (floor < strength)
        Reader.forward n
        Reader.operandGap l false
        let right ← g.expr l (if strength = 21 then .unaryOperand else strength)
        pure (.group (← Reader.since start) .other [value, right])
    match combined with
    | none => pure value
    | some value => binaryTail g l floor start fuel value

/-- A comparison written with signs or words. -/
def comparison (l : Layout) : Reader Unit := do
  match comparisonSign? (← Reader.ahead) with
  | some n => Reader.forward n
  | none =>
    match ← Reader.wordAhead with
    | "in" => Reader.keyword "in"
    | "not" =>
      Reader.keyword "not"
      Reader.gap l.inside
      Reader.keyword "in"
    | "is" =>
      Reader.keyword "is"
      let _ ← Reader.accepts do Reader.gap l.inside; Reader.keyword "not"
    | _ => Reader.refuse

/-- The values that a value is compared with, one after the other. -/
def comparands (g : Grammar) (l : Layout) : (fuel : Nat) → Reader (List Node)
  | 0 => pure []
  | fuel + 1 => do
    let right ← Reader.optionally do
      Reader.tailGap l
      comparison l
      Reader.operandGap l false
      g.expr l .comparand
    match right with
    | none => pure []
    | some node => do pure (node :: (← comparands g l fuel))

/-- One of `and`, `or`, `as` and `if` above the floor, behind a value that started at
`start`, with its right side. -/
def joined (g : Grammar) (l : Layout) (floor : Floor) (start : Cursor) (value : Node) :
    Reader Node := do
  Reader.tailGap l
  let right (word : String) (rightFloor : Floor) : Reader Node := do
    Reader.keyword word
    Reader.operandGap l false
    g.expr l rightFloor
  match ← Reader.wordAhead with
  | "and" =>
    Reader.require (floor < .andOperand)
    let second ← right "and" .andOperand
    pure (.group (← Reader.since start) .shortCircuit [value, second])
  | "or" =>
    Reader.require (floor < .orOperand)
    let second ← right "or" .orOperand
    pure (.group (← Reader.since start) .shortCircuit [value, second])
  | "as" =>
    Reader.require (floor < .noAlias)
    let target ← right "as" .noAlias
    pure (.aliased (← Reader.since start) value target.span target)
  | "if" =>
    Reader.require (floor = .all)
    Reader.keyword "if"
    Reader.operandGap l false
    let condition ← g.expr l.inside .all
    Reader.gap l.inside
    Reader.keyword "else"
    Reader.operandGap l false
    let other ← g.expr l .all
    pure (.group (← Reader.since start) .conditional [value, condition, other])
  | _ => Reader.refuse

def joinedTail (g : Grammar) (l : Layout) (floor : Floor) (start : Cursor) :
    (fuel : Nat) → Node → Reader Node
  | 0, value => pure value
  | fuel + 1, value => do
    match ← Reader.optionally (joined g l floor start value) with
    | none => pure value
    | some value => joinedTail g l floor start fuel value

/-! ## Expressions -/

/-- A name, `:=` and the value that it gets. -/
def walrusValue (g : Grammar) (l : Layout) : Reader Node := do
  let start ← Reader.here
  let target ← Reader.word
  Reader.tailGap l
  Reader.exactly ":="
  Reader.operandGap l false
  let value ← g.expr l .noAlias
  pure (.walrus (← Reader.since start) target value)

/-- Whether a name and `:=` stand ahead. -/
def walrusAhead (l : Layout) : Reader Bool := do
  if startsString (← Reader.ahead) then pure false
  else Reader.foresees do
    let word ← Reader.word
    Reader.require !(constantWords.contains word.text)
    Reader.tailGap l
    Reader.exactly ":="

/-- An expression above a floor. -/
def exprWith (g : Grammar) (l : Layout) (floor : Floor) : Reader Node := do
  let start ← Reader.here
  let word ← Reader.wordAhead
  let free := decide (floor < Floor.comparand)
  if free && word = "not" then
    Reader.keyword "not"
    Reader.operandGap l false
    let value ← g.expr l .notOperand
    joinedTail g l floor start g.fuel (.test (← Reader.since start) [value])
  else if free && word = "lambda" then
    joinedTail g l floor start g.fuel (← lambdaValue g l floor)
  else if free && (← walrusAhead l) then
    joinedTail g l floor start g.fuel (← walrusValue g l)
  else
    let value ← atom g l
    let value ← trailers g l start g.fuel value
    let value ← binaryTail g l floor start g.fuel value
    if free then
      let value ← (do
        match ← comparands g l g.fuel with
        | [] => pure value
        | others => pure (.test (← Reader.since start) (value :: others)))
      joinedTail g l floor start g.fuel value
    else pure value

/-- The grammar that nests at most `n` levels deep. -/
def grammar : (n : Nat) → Grammar
  | 0 => { fuel := 0, expr := fun _ _ => Reader.refuse }
  | n + 1 => { fuel := n, expr := fun l floor => exprWith (grammar n) l floor }

end XPathTaint.Python
