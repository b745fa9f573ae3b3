import XPathTaint.Python.Strings

-- Values that need no operator: names, numbers, strings, and what stands in brackets,
-- with comprehensions, the targets of assignments and loops, parameters and arguments.

namespace XPathTaint.Python

/-! ## Targets -/

/-- Whether a value can be assigned to as it stands. -/
def isTarget : Node → Bool
  | .name _ => true
  | .member _ _ _ => true
  | .subscript _ _ _ => true
  | _ => false

/-- A star and what it stands before. -/
def starOf (l : Layout) (value : Reader Node) : Reader Node := do
  let start ← Reader.here
  Reader.theSign '*'
  let behind ← Reader.here
  Reader.operandGap l false
  let lead ← Reader.commentSince behind
  let inner ← value
  pure (.starred (← Reader.since start) lead inner)

/-- A name, a member or an item. -/
def simpleTarget (g : Grammar) (l : Layout) : Reader Node := do
  let value ← g.expr l .primary
  Reader.require (isTarget value)
  pure value

/-- What stands between a bracket and its partner, as a sequence. The first of two signs
opens, the other closes. -/
def bracketed (g : Grammar) (l : Layout) (opening closing : Char) (item : Reader Node) :
    Reader Node := do
  let start ← Reader.here
  Reader.theSign opening
  Reader.operandGap l.bracketed true
  if ← Reader.sign closing then
    pure (.group (← Reader.since start) .sequence [])
  else
    let first ← item
    let (rest, _) ← moreItems l.bracketed item g.fuel
    Reader.tailGap l.bracketed
    Reader.theSign closing
    pure (.group (← Reader.since start) .sequence (first :: rest))

/-- One target; it does not start with a word of `reserved`. -/
def targetItem (g : Grammar) (reserved : List String) : (fuel : Nat) → Layout → Reader Node
  | 0, _ => Reader.refuse
  | fuel + 1, l => do
    Reader.require !(reserved.contains (← Reader.wordAhead))
    match ← Reader.ahead with
    | '*' :: '*' :: _ => Reader.refuse
    | '*' :: _ => starOf l (simpleTarget g l)
    | _ =>
      match ← Reader.optionally (simpleTarget g l) with
      | some value => pure value
      | none => do
        let inner := targetItem g reserved fuel l.bracketed
        if (← Reader.ahead).head? = some '[' then bracketed g l '[' ']' inner
        else bracketed g l '(' ')' inner

/-- The target of an assignment or a loop: one, or several as a sequence. -/
def targets (g : Grammar) (reserved : List String) (l : Layout) : Reader Node :=
  itemOrSequence l g.fuel (targetItem g reserved g.fuel l)

/-! ## Comprehensions -/

/-- The sources of a loop in a comprehension, after the first. -/
def moreSources (g : Grammar) (l : Layout) : (fuel : Nat) → Reader (List Node)
  | 0 => pure []
  | fuel + 1 => do
    if ← Reader.accepts do Reader.tailGap l; Reader.theSign ',' then
      let source ← Reader.optionally do
        Reader.operandGap l true
        Reader.require !(["for", "if", "async"].contains (← Reader.wordAhead))
        g.expr l .loopSource
      match source with
      | none => pure []
      | some node => do pure (node :: (← moreSources g l fuel))
    else pure []

/-- A loop of a comprehension. -/
def loopClause (g : Grammar) (l : Layout) : Reader (ClauseOf Node) := do
  if ← Reader.theWord "async" then Reader.gap l
  Reader.keyword "for"
  Reader.operandGap l false
  let target ← targets g ["in"] l.inside
  Reader.gap l
  Reader.keyword "in"
  Reader.operandGap l false
  let source ← g.expr l .loopSource
  pure (.loop target (source :: (← moreSources g l g.fuel)))

/-- A condition of a comprehension. -/
def guardClause (g : Grammar) (l : Layout) : Reader (ClauseOf Node) := do
  Reader.keyword "if"
  Reader.operandGap l false
  pure (.guard (← g.expr l .noConditional))

/-- The clauses of a comprehension behind its first loop. -/
def moreClauses (g : Grammar) (l : Layout) : (fuel : Nat) → Reader (List (ClauseOf Node))
  | 0 => pure []
  | fuel + 1 => do
    let clause ← Reader.optionally do
      Reader.tailGap l
      if (← Reader.wordAhead) = "if" then guardClause g l else loopClause g l
    match clause with
    | none => pure []
    | some clause => do pure (clause :: (← moreClauses g l fuel))

/-- The clauses of a comprehension; the first is a loop. -/
def comprehensionClauses (g : Grammar) (l : Layout) : Reader (List (ClauseOf Node)) := do
  Reader.tailGap l
  let first ← loopClause g l
  pure (first :: (← moreClauses g l g.fuel))

/-! ## Brackets -/

/-- An item of a list, tuple or set: `yield`, all items of a value behind a star, or an
expression. -/
def element (g : Grammar) (l : Layout) : Reader Node := do
  match ← Reader.ahead with
  | '*' :: '*' :: _ => Reader.refuse
  | '*' :: _ => starOf l (g.expr l .all)
  | _ =>
    if (← Reader.wordAhead) = "yield" then yielding g l else g.expr l .all

/-- Whether an item can be the body of a comprehension. -/
def canBeBody (wasYield : Bool) : Node → Bool
  | .starred _ _ inner => isTarget inner
  | _ => !wasYield

/-- What follows the first item of a bracket that `start` opened: clauses that make it a
comprehension, or more items. A single item is made by `alone`. -/
def bracketRest (g : Grammar) (l : Layout) (start : Cursor) (closing : Char) (form : GroupForm)
    (body : Bool) (first : Node) (item : Reader Node) (alone : Span → Node) : Reader Node := do
  let clauses ← Reader.optionally do
    Reader.require body
    comprehensionClauses g l
  match clauses with
  | some clauses =>
    Reader.tailGap l
    Reader.theSign closing
    pure (.comprehension (← Reader.since start) first clauses)
  | none =>
    let (rest, listed) ← moreItems l item g.fuel
    Reader.tailGap l
    Reader.theSign closing
    let span ← Reader.since start
    pure (if listed then .group span form (first :: rest) else alone span)

/-- Round brackets: a value in parentheses, a tuple or a generator. -/
def parenthesized (g : Grammar) (l : Layout) : Reader Node := do
  let l := l.bracketed
  let start ← Reader.here
  Reader.theSign '('
  let behind ← Reader.here
  Reader.operandGap l true
  let lead ← Reader.commentSince behind
  if ← Reader.sign ')' then
    pure (.group (← Reader.since start) .sequence [])
  else
    let wasYield := (← Reader.wordAhead) = "yield"
    let first ← element g l
    bracketRest g l start ')' .sequence (canBeBody wasYield first) first (element g l) fun span =>
      match first with
      | .starred _ _ _ => .group span .sequence [first]
      | _ => .paren span lead first

/-- Square brackets: a list or a comprehension. -/
def listDisplay (g : Grammar) (l : Layout) : Reader Node := do
  let l := l.bracketed
  let start ← Reader.here
  Reader.theSign '['
  Reader.operandGap l true
  if ← Reader.sign ']' then
    pure (.group (← Reader.since start) .sequence [])
  else
    let wasYield := (← Reader.wordAhead) = "yield"
    let first ← element g l
    bracketRest g l start ']' .sequence (canBeBody wasYield first) first (element g l)
      fun span => .group span .sequence [first]

/-- All pairs of a mapping behind two stars. -/
def doubleStarred (g : Grammar) (l : Layout) : Reader Node := do
  let start ← Reader.here
  Reader.exactly "**"
  Reader.operandGap l false
  let value ← g.expr l .all
  pure (.group (← Reader.since start) .other [value])

/-- The value of a key that started at `start`, and both as a pair. -/
def pairFrom (g : Grammar) (l : Layout) (start : Cursor) (key : Node) : Reader Node := do
  Reader.tailGap l
  Reader.theSign ':'
  Reader.operandGap l false
  let value ← g.expr l .all
  pure (.group (← Reader.since start) .other [key, value])

/-- An item of a mapping. -/
def mappingItem (g : Grammar) (l : Layout) : Reader Node := do
  let start ← Reader.here
  match start.rest with
  | '*' :: '*' :: _ => doubleStarred g l
  | _ => do pairFrom g l start (← g.expr l .all)

/-- Braces: a mapping, a set, or a comprehension of either. -/
def braced (g : Grammar) (l : Layout) : Reader Node := do
  let l := l.bracketed
  let start ← Reader.here
  Reader.theSign '\x7b'
  Reader.operandGap l true
  let first ← Reader.here
  let rest (body : Bool) (node : Node) (item : Reader Node) : Reader Node :=
    bracketRest g l start '\x7d' .other body node item fun span => .group span .other [node]
  match first.rest with
  | '\x7d' :: _ => Reader.forward 1; pure (.group (← Reader.since start) .other [])
  | ',' :: _ =>
    Reader.forward 1
    Reader.tailGap l
    Reader.theSign '\x7d'
    pure (.group (← Reader.since start) .other [])
  | '*' :: '*' :: _ => do rest false (← doubleStarred g l) (mappingItem g l)
  | _ =>
    let wasYield := (← Reader.wordAhead) = "yield"
    let node ← element g l
    match ← Reader.optionally do Reader.require !wasYield; pairFrom g l first node with
    | some pair => rest true pair (mappingItem g l)
    | none => rest (canBeBody wasYield node) node (element g l)

/-! ## Arguments -/

/-- Items behind a star in parentheses of their own. -/
def parenthesizedStar (g : Grammar) : (fuel : Nat) → Layout → Reader Node
  | 0, _ => Reader.refuse
  | fuel + 1, l => do
    let l := l.bracketed
    let start ← Reader.here
    Reader.theSign '('
    let behind ← Reader.here
    Reader.operandGap l true
    let lead ← Reader.commentSince behind
    let inner ← (do
      if (← Reader.ahead).head? = some '(' then parenthesizedStar g fuel l
      else starOf l (g.expr l .all))
    Reader.tailGap l
    Reader.theSign ')'
    pure (.paren (← Reader.since start) lead inner)

/-- What a splat argument stands for; a comment before it takes its place. -/
def splatValue (g : Grammar) (l : Layout) : Reader Node := do
  let behind ← Reader.here
  Reader.operandGap l false
  let lead ← Reader.commentSince behind
  let value ← g.expr l .all
  pure (match lead with
    | some comment => .hidden comment value
    | none => value)

/-- One argument of a call. -/
def argument (g : Grammar) (l : Layout) : Reader (ArgumentOf Node) := do
  match ← Reader.ahead with
  | '*' :: '*' :: _ => Reader.forward 2; pure ⟨none, .dict, ← splatValue g l⟩
  | '*' :: _ => Reader.forward 1; pure ⟨none, .list, ← splatValue g l⟩
  | '(' :: _ =>
    let star ← Reader.optionally do
      let node ← parenthesizedStar g g.fuel l
      Reader.require (← Reader.foresees do
        Reader.tailGap l
        if !(← Reader.sign ',') then Reader.theSign ')')
      pure node
    match star with
    | some node => pure ⟨none, .none, node⟩
    | none => pure ⟨none, .none, ← g.expr l .all⟩
  | _ =>
    let keyword ← Reader.optionally do
      let word ← Reader.word
      Reader.require !((constantWords ++ ["not", "lambda"]).contains word.text)
      Reader.tailGap l
      Reader.equals
      pure word.text
    match keyword with
    | some _ => Reader.operandGap l false; pure ⟨keyword, .none, ← g.expr l .all⟩
    | none => pure ⟨none, .none, ← g.expr l .all⟩

/-- Arguments behind the first, up to the closing parenthesis. -/
def moreArguments (g : Grammar) (l : Layout) : (fuel : Nat) → Reader (List (ArgumentOf Node))
  | 0 => Reader.refuse
  | fuel + 1 => do
    Reader.tailGap l
    if ← Reader.sign ')' then pure []
    else
      Reader.theSign ','
      Reader.operandGap l true
      if ← Reader.sign ')' then pure []
      else
        let arg ← argument g l
        pure (arg :: (← moreArguments g l fuel))

/-- The arguments of a call, behind the opening parenthesis `start`. A call may take a
generator without parentheses of its own. -/
def arguments (g : Grammar) (l : Layout) (generator : Bool) : Reader (List (ArgumentOf Node)) := do
  let l := l.bracketed
  let start ← Reader.here
  Reader.theSign '('
  Reader.operandGap l true
  if ← Reader.sign ')' then pure []
  else if ← Reader.sign ',' then
    Reader.operandGap l true
    Reader.theSign ')'
    pure []
  else
    let first ← argument g l
    let clauses ← Reader.optionally do
      Reader.require (generator && first.keyword.isNone && first.splat == .none)
      comprehensionClauses g l
    match clauses with
    | some clauses =>
      Reader.tailGap l
      Reader.theSign ')'
      pure [⟨none, .none, .comprehension (← Reader.since start) first.value clauses⟩]
    | none => pure (first :: (← moreArguments g l g.fuel))

/-! ## Items -/

/-- The part of a slice behind its first colon. -/
def sliceRest (g : Grammar) (l : Layout) : Reader (List Node) := do
  let upper ← Reader.optionally do Reader.operandGap l true; g.expr l .all
  let step ← Reader.optionally do
    Reader.tailGap l
    Reader.theSign ':'
    let step ← Reader.optionally do Reader.operandGap l true; g.expr l .all
    pure step.toList
  pure (upper.toList ++ step.getD [])

/-- One index: a value or a slice. -/
def index (g : Grammar) (l : Layout) : Reader Node := do
  let start ← Reader.here
  let lower ← Reader.optionally (g.expr l .all)
  let slice ← Reader.accepts do
    if lower.isSome then Reader.tailGap l
    Reader.theSign ':'
  if slice then
    let rest ← sliceRest g l
    pure (.group (← Reader.since start) .other (lower.toList ++ rest))
  else
    match lower with
    | some node => pure node
    | none => Reader.refuse

/-- The indices of an item, in their brackets. -/
def indices (g : Grammar) (l : Layout) : Reader (List Node) := do
  let l := l.bracketed
  Reader.theSign '['
  Reader.operandGap l false
  let first ← index g l
  let (rest, _) ← moreItems l (index g l) g.fuel
  Reader.tailGap l
  Reader.theSign ']'
  pure (first :: rest)

end XPathTaint.Python
