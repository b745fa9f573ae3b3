import XPathTaint.Python.Types

-- Statements and blocks. A block opens behind a colon when the next line of code is
-- indented more deeply than the block around, and goes on while no line falls back behind
-- its own indentation.

namespace XPathTaint.Python

/-! ## Lines -/

/-- How far the next line of code is, whether a line feed is passed on the way, and its
indentation. -/
structure LineStart where
  length : Nat
  crossed : Bool
  width : Nat

def LineStart.after (s : LineStart) (n : Nat) : LineStart := { s with length := s.length + n }

/-- Passes over blanks, comments and empty lines. -/
def nextLine : GapPart → (crossed : Bool) → (width : Nat) → List Char → LineStart
  | _, crossed, _, [] => ⟨0, crossed, 0⟩
  | .comment, _, _, '\n' :: rest => (nextLine .blanks true 0 rest).after 1
  | .comment, crossed, _, _ :: rest => (nextLine .comment crossed 0 rest).after 1
  | .blanks, _, _, '\n' :: rest => (nextLine .blanks true 0 rest).after 1
  | .joined, crossed, width, '\n' :: rest => (nextLine .joined crossed width rest).after 1
  | part, crossed, width, '\\' :: '\n' :: rest => (nextLine part crossed width rest).after 2
  | part, crossed, width, '\\' :: '\r' :: '\n' :: rest =>
    (nextLine part crossed width rest).after 3
  | part, crossed, width, c :: rest =>
    if isLineBlank c then
      (nextLine part crossed (if part = .joined then width else widen width c) rest).after 1
    else if c == '#' then (nextLine .comment crossed width rest).after 1
    else if isJoiner c then (nextLine .joined crossed width rest).after 1
    else ⟨0, crossed, width⟩

namespace Reader

/-- The next line of code; does not move. -/
def lineStart : Reader LineStart := fun c => some (nextLine .blanks false 0 c.rest, c)

/-- Refuses unless a statement may end here; moves to its end. -/
def statementEnd (l : Layout) : Reader Unit := do
  tailGap l
  match ← ahead with
  | [] => pure ()
  | '\n' :: _ => pure ()
  | _ => refuse

/-- Whether a statement ends here, or another follows behind a semicolon. -/
def foreseesEnd (l : Layout) : Reader Bool := foresees do
  tailGap l
  match ← ahead with
  | [] => pure ()
  | '\n' :: _ => pure ()
  | ';' :: _ => pure ()
  | _ => refuse

/-- A word that goes on with the statement of a block, such as `else`: it stands on a line
of its own that does not fall back behind the block. -/
def continuation (indent : Nat) (w : String) : Reader Unit := do
  let start ← lineStart
  require (!start.crossed || decide (indent ≤ start.width))
  forward start.length
  keyword w

end Reader

/-! ## Imports -/

/-- The clause that a name makes, given the clauses with and without alias. -/
def importItem (l : Layout) (fuel : Nat) (plain : String → ImportClause)
    (aliased : String → String → ImportClause) : Reader ImportClause := do
  let name ← dottedName l fuel (← Reader.here)
  let other ← Reader.optionally do
    Reader.tailGap l
    Reader.keyword "as"
    Reader.gap l
    Reader.word
  match other with
  | some word => pure (aliased name.text word.text)
  | none => pure (plain name.text)

/-- Clauses behind the first. -/
def moreImports (l : Layout) (item : Reader ImportClause) :
    (fuel : Nat) → Reader (List ImportClause)
  | 0 => pure []
  | fuel + 1 => do
    if ← Reader.accepts do Reader.tailGap l; Reader.theSign ',' then
      match ← Reader.optionally do Reader.listGap l; item with
      | none => pure []
      | some clause => do pure (clause :: (← moreImports l item fuel))
    else pure []

/-- `import` and its clauses. -/
def importStatement (g : Grammar) (l : Layout) : Reader Stmt := do
  Reader.keyword "import"
  Reader.gap l
  let item := importItem l g.fuel .module .moduleAs
  let first ← item
  pure (.imports (first :: (← moreImports l item g.fuel)))

/-- The dots of a relative module, with the blanks between them. -/
def moduleDots (l : Layout) : (fuel : Nat) → Reader Bool
  | 0 => Reader.refuse
  | fuel + 1 => do
    if ← Reader.accepts do Reader.gap l; Reader.theSign '.' then
      let _ ← moduleDots l fuel
      pure true
    else pure false

/-- The module that names are imported from, as it stands in the text. -/
def moduleName (g : Grammar) (l : Layout) : Reader String := do
  let start ← Reader.here
  let dotted ← moduleDots l g.fuel
  if dotted then
    let _ ← Reader.accepts do
      Reader.gap l
      Reader.require ((← Reader.wordAhead) ≠ "import")
      dottedName l g.fuel (← Reader.here)
    pure (← Reader.since start).text
  else
    pure (← dottedName l g.fuel start).text

/-- `from module import` and its clauses; those of the future bring nothing in. -/
def fromStatement (g : Grammar) (l : Layout) : Reader Stmt := do
  Reader.keyword "from"
  Reader.gap l
  let module ← moduleName g l
  Reader.gap l
  Reader.keyword "import"
  Reader.gap l
  let future := module = "__future__"
  match ← Reader.ahead with
  | '*' :: _ =>
    Reader.require !future
    Reader.forward 1
    pure (.imports [])
  | cs =>
    let inParens := cs.head? = some '('
    let l' := if inParens then l.bracketed else l
    if inParens then
      Reader.forward 1
      Reader.gap l'
    let item := importItem l' g.fuel (.member module) (.memberAs module)
    let first ← item
    let rest ← moreImports l' item g.fuel
    if inParens then
      Reader.tailGap l'
      Reader.theSign ')'
    pure (.imports (if future then [] else first :: rest))

/-! ## Assignments -/

/-- Words that start something else than a target where a statement starts. -/
def statementWords : List String := ["not", "lambda", "yield"]

/-- An assignment in the place of a value: each target with what stands right of it. -/
def nestedTargets (start : Cursor) (stop : Cursor) (value : List Node) : List Node → List Node
  | [] => value
  | target :: rest =>
    let here := start.skip (takeBytes (target.span.pos - start.pos) start.rest).length
    [.group (here.to stop) .other (target :: nestedTargets start stop value rest)]

mutual

/-- What stands right of an equals sign: more targets, and the value. -/
def rightSide (g : Grammar) (l : Layout) : (fuel : Nat) → Reader (List Node × Option Node)
  | 0 => Reader.refuse
  | fuel + 1 => do
    let start ← Reader.here
    match ← Reader.optionally (assignment g l fuel) with
    | some (.assign _ targets value) => pure (targets, value)
    | some (.augmented _ target value) =>
      pure ([], some (.group (← Reader.since start) .other [target, value]))
    | _ =>
      if (← Reader.wordAhead) = "yield" then pure ([], some (← yielding g l))
      else pure ([], some (← expressions g l))

/-- An assignment, plain, annotated or augmented. -/
def assignment (g : Grammar) (l : Layout) : (fuel : Nat) → Reader Stmt
  | 0 => Reader.refuse
  | fuel + 1 => do
    let start ← Reader.here
    let target ← targets g statementWords l
    Reader.tailGap l
    let cs ← Reader.ahead
    match augmentedSign? cs with
    | some n =>
      Reader.forward n
      Reader.operandGap l false
      let rightStart ← Reader.here
      let (more, value) ← rightSide g l fuel
      let stop ← Reader.here
      match nestedTargets rightStart stop value.toList more with
      | [value] => pure (.augmented (start.to stop) target value)
      | _ => Reader.refuse
    | none =>
      let annotated ← Reader.accepts do
        Reader.colon
        Reader.operandGap l false
        let _ ← typeWith g l true g.fuel
      let valued ← Reader.accepts do Reader.tailGap l; Reader.equals
      if valued then
        Reader.operandGap l false
        let (more, value) ← rightSide g l fuel
        pure (.assign (← Reader.here).pos (target :: more) value)
      else
        Reader.require annotated
        pure (.assign (← Reader.here).pos [target] none)

end

/-! ## Simple statements -/

/-- Expressions with commas between them. -/
def expressionList (g : Grammar) (l : Layout) (bareComma : Bool) : Reader (List Node) := do
  let first ← g.expr l .all
  let before ← Reader.here
  let (rest, listed) ← moreItems l (g.expr l .all) g.fuel
  if listed && !bareComma then
    Reader.require (((takeBytes ((← Reader.here).pos - before.pos) before.rest).getLast?) ≠ some ',')
  pure (first :: rest)

/-- An assignment, `yield`, or expressions. -/
def expressionStatement (g : Grammar) (l : Layout) : Reader Stmt := do
  match ← Reader.optionally (assignment g l g.fuel) with
  | some stmt => pure stmt
  | none =>
    if (← Reader.wordAhead) = "yield" then pure (.values [← yielding g l])
    else pure (.values (← expressionList g l true))

/-- `print` as a statement of its own: onto a file, or of values. -/
def printStatement (g : Grammar) (l : Layout) : Reader Stmt := do
  let start ← Reader.here
  Reader.keyword "print"
  Reader.tailGap l
  if (← Reader.ahead).take 2 = ['>', '>'] then
    let chevron ← Reader.here
    Reader.forward 2
    Reader.operandGap l false
    let file ← g.expr l .all
    let target := Node.group (← Reader.since chevron) .other [file]
    let (rest, _) ← moreItems l (g.expr l .all) g.fuel
    pure (.values (target :: rest))
  else
    Reader.require (startsOperand (← Reader.ahead) || (← Reader.wordAhead) = "not")
    let plain ← Reader.optionally do
      fun _ => some ((), start)
      let stmt ← expressionStatement g l
      Reader.require (← Reader.foreseesEnd l)
      pure stmt
    match plain with
    | some stmt => pure stmt
    | none => pure (.values (← expressionList g l true))

/-- `exec` with a string or a name, and the names that it runs in. -/
def execStatement (g : Grammar) (l : Layout) : Reader Stmt := do
  Reader.keyword "exec"
  Reader.tailGap l
  let cs ← Reader.ahead
  let code ← (do
    if startsString cs then stringLiteral g
    else
      let word ← Reader.word
      Reader.require !(joiningWords.contains word.text)
      pure (.name word))
  let among ← Reader.accepts do Reader.tailGap l; Reader.keyword "in"
  if among then
    Reader.operandGap l false
    pure (.values (code :: (← expressionList g l false)))
  else pure (.values [code])

/-- `type` and the name and meaning of a type. -/
def typeStatement (g : Grammar) (l : Layout) : Reader Stmt := do
  Reader.keyword "type"
  Reader.tailGap l
  let name ← typeWith g l true g.fuel
  Reader.tailGap l
  Reader.equals
  Reader.operandGap l false
  let meaning ← typeWith g l true g.fuel
  Reader.require (← Reader.foreseesEnd l)
  pure (.values [name, meaning])

/-- Names with commas between them. -/
def nameList (l : Layout) : (fuel : Nat) → Reader Unit
  | 0 => Reader.refuse
  | fuel + 1 => do
    Reader.gap l
    let _ ← Reader.word
    if ← Reader.accepts do Reader.tailGap l; Reader.theSign ',' then nameList l fuel else pure ()

/-- A word, and expressions behind it unless the statement ends. -/
def wordWithValues (g : Grammar) (l : Layout) (w : String) : Reader (List Node) := do
  Reader.keyword w
  let value ← Reader.optionally do Reader.tailGap l; expressions g l
  pure value.toList

/-- A statement without a block of its own. -/
def simpleStatement (g : Grammar) (l : Layout) : Reader Stmt := do
  match ← Reader.wordAhead with
  | "import" => importStatement g l
  | "from" => fromStatement g l
  | "pass" => Reader.keyword "pass"; pure (.values [])
  | "break" => Reader.keyword "break"; pure (.values [])
  | "continue" => Reader.keyword "continue"; pure (.values [])
  | "global" => Reader.keyword "global"; nameList l g.fuel; pure (.values [])
  | "nonlocal" => Reader.keyword "nonlocal"; nameList l g.fuel; pure (.values [])
  | "return" => do pure (.values (← wordWithValues g l "return"))
  | "del" =>
    Reader.keyword "del"
    Reader.operandGap l false
    pure (.values [← expressions g l])
  | "assert" =>
    let start ← Reader.here
    Reader.keyword "assert"
    Reader.operandGap l false
    let parts ← expressionList g l false
    pure (.values [.group (← Reader.since start) .shortCircuit parts])
  | "raise" =>
    let values ← wordWithValues g l "raise"
    let cause ← Reader.optionally do
      Reader.tailGap l
      Reader.keyword "from"
      Reader.operandGap l false
      g.expr l .all
    pure (.values (values ++ cause.toList))
  | "print" =>
    match ← Reader.optionally (printStatement g l) with
    | some stmt => pure stmt
    | none => expressionStatement g l
  | "exec" =>
    match ← Reader.optionally (execStatement g l) with
    | some stmt => pure stmt
    | none => expressionStatement g l
  | "type" =>
    match ← Reader.optionally (typeStatement g l) with
    | some stmt => pure stmt
    | none => expressionStatement g l
  | _ => expressionStatement g l

/-- Statements behind the first on one line, up to its end. -/
def lineRest (g : Grammar) (l : Layout) : (fuel : Nat) → Reader (List Stmt)
  | 0 => Reader.refuse
  | fuel + 1 => do
    Reader.tailGap l
    if ← Reader.sign ';' then
      if ← Reader.accepts (Reader.statementEnd l) then pure []
      else
        Reader.tailGap l
        let stmt ← simpleStatement g l
        pure (stmt :: (← lineRest g l fuel))
    else
      Reader.statementEnd l
      pure []

/-- A line of statements without blocks. -/
def simpleLine (g : Grammar) (indent : Nat) : Reader (List Stmt) := do
  let l : Layout := { indent, ending := .line }
  let first ← simpleStatement g l
  pure (first :: (← lineRest g l g.fuel))

/-! ## Headings -/

/-- The resources of a `with`: in parentheses if there are several, or bare. -/
def withHeading (g : Grammar) (l : Layout) : Reader (List Node) := do
  let inner := l.bracketed
  let several ← Reader.optionally do
    Reader.theSign '('
    Reader.operandGap inner false
    let first ← g.expr inner .all
    let (rest, _) ← moreItems inner (g.expr inner .all) g.fuel
    Reader.require !rest.isEmpty
    Reader.tailGap inner
    Reader.theSign ')'
    Reader.gap l
    Reader.require ((← Reader.ahead).head? = some ':')
    pure (first :: rest)
  match several with
  | some items => pure items
  | none => expressionList g l true

/-- The type parameters of a definition. -/
def typeParameters (g : Grammar) (l : Layout) : Reader Unit := do
  let inner := l.bracketed
  Reader.theSign '['
  Reader.operandGap inner false
  let _ ← typeWith g inner true g.fuel
  let _ ← moreItems inner (typeWith g inner true g.fuel) g.fuel
  Reader.tailGap inner
  Reader.theSign ']'

/-- The name, type parameters and parameters of a function, up to its colon. -/
def functionHeading (g : Grammar) (l : Layout) : Reader (Span × List Param) := do
  Reader.keyword "def"
  Reader.gap l
  let name ← Reader.word
  let _ ← Reader.accepts do Reader.gap l; typeParameters g l
  Reader.gap l
  Reader.theSign '('
  let inner := l.bracketed
  Reader.operandGap inner true
  let params ← (do
    if ← Reader.sign ')' then pure []
    else
      let params ← parameters g inner (typeMark g inner)
      Reader.tailGap inner
      Reader.theSign ')'
      pure params)
  let _ ← Reader.accepts do
    Reader.gap l
    Reader.exactly "->"
    Reader.operandGap l false
    let _ ← typeWith g l false g.fuel
  pure (name, params)

/-- A base of a class is read whole: unlike with an argument, no comment takes its place. -/
def asBase (a : ArgumentOf Node) : ArgumentOf Node :=
  match a.value with
  | .hidden _ inner => { a with value := inner }
  | _ => a

/-- The name, type parameters and bases of a class, up to its colon. -/
def classHeading (g : Grammar) (l : Layout) : Reader (Span × List (ArgumentOf Node)) := do
  Reader.keyword "class"
  Reader.gap l
  let name ← Reader.word
  let _ ← Reader.accepts do Reader.gap l; typeParameters g l
  let bases ← Reader.optionally do Reader.gap l; arguments g l false
  pure (name, (bases.getD []).map asBase)

/-- One decorator and the end of its line; a comment before it takes its place. -/
def decorator (g : Grammar) (l : Layout) : Reader Node := do
  Reader.theSign '@'
  let behind ← Reader.here
  Reader.operandGap l.inside false
  let lead ← Reader.commentSince behind
  let value ← g.expr { l with ending := .line } .all
  Reader.statementEnd { l with ending := .line }
  pure (match lead with
    | some comment => .hidden comment value
    | none => value)

/-- Decorators behind the first; each starts where a definition could. -/
def moreDecorators (g : Grammar) (l : Layout) : (fuel : Nat) → Reader (List Node)
  | 0 => pure []
  | fuel + 1 => do
    match ← Reader.optionally do Reader.gap l; decorator g l with
    | none => pure []
    | some node => do pure (node :: (← moreDecorators g l fuel))

/-- What `except` catches and binds. -/
def handlerHead (g : Grammar) (l : Layout) : Reader Head := do
  let group ← Reader.sign '*'
  let value ← Reader.optionally do Reader.operandGap l false; g.expr l .all
  match value with
  | none => Reader.require !group; pure (.handler none none [])
  | some value =>
    let second ← Reader.optionally do
      Reader.tailGap l
      if group then Reader.keyword "as"
      else if !(← Reader.sign ',') then Reader.keyword "as"
      Reader.operandGap l false
      g.expr l .all
    pure (match value, second with
      | .aliased _ kind _ target, second => .handler (some kind) (some target) second.toList
      | value, second => .handler (some value) second [])

/-! ## Blocks -/

/-- The colon behind a heading. -/
def headingEnd (l : Layout) : Reader Unit := do
  Reader.gap l
  Reader.theSign ':'

/-- Patterns of a case behind the first. -/
def casePatterns (g : Grammar) (l : Layout) : (fuel : Nat) → Reader Unit
  | 0 => Reader.refuse
  | fuel + 1 => do
    if ← Reader.accepts do Reader.tailGap l; Reader.theSign ',' then
      if ← Reader.accepts do
          Reader.operandGap l false
          Reader.require ((← Reader.wordAhead) ≠ "if")
          casePattern g l g.fuel
      then casePatterns g l fuel
      else pure ()
    else pure ()

mutual

/-- Statements up to the first line that falls back behind `indent`. -/
def block (g : Grammar) (indent : Nat) : (fuel : Nat) → Reader (List Stmt)
  | 0 => Reader.refuse
  | fuel + 1 => do
    let start ← Reader.lineStart
    let rest := (← Reader.ahead).drop start.length
    if rest.isEmpty || (start.crossed && decide (start.width < indent)) then pure []
    else
      Reader.forward start.length
      let first ← statement g indent fuel
      pure (first ++ (← block g indent fuel))
termination_by structural fuel => fuel

/-- What a colon opens: a deeper block, nothing, or statements on its own line. -/
def suite (g : Grammar) (indent : Nat) : (fuel : Nat) → Reader (List Stmt)
  | 0 => Reader.refuse
  | fuel + 1 => do
    if ← Reader.accepts (Reader.statementEnd { indent, ending := .line }) then
      let start ← Reader.lineStart
      if indent < start.width then block g start.width fuel else pure []
    else
      Reader.tailGap { indent, ending := .line }
      simpleLine g indent
termination_by structural fuel => fuel

/-- A heading word with the block that it goes on with. -/
def continued (g : Grammar) (indent : Nat) (w : String) : (fuel : Nat) → Reader (List Branch)
  | 0 => Reader.refuse
  | fuel + 1 => do
    if ← Reader.accepts (Reader.continuation indent w) then
      headingEnd { indent, ending := .inner }
      pure [⟨.plain, ← suite g indent fuel⟩]
    else pure []
termination_by structural fuel => fuel

/-- The `elif` and `else` branches of an `if`. -/
def elseBranches (g : Grammar) (indent : Nat) : (fuel : Nat) → Reader (List Branch)
  | 0 => Reader.refuse
  | fuel + 1 => do
    let l : Layout := { indent, ending := .inner }
    if ← Reader.accepts (Reader.continuation indent "elif") then
      Reader.operandGap l false
      let condition ← g.expr l .all
      headingEnd l
      let body ← suite g indent fuel
      pure (⟨.condition condition, body⟩ :: (← elseBranches g indent fuel))
    else continued g indent "else" fuel
termination_by structural fuel => fuel

/-- The handlers of a `try`. -/
def handlers (g : Grammar) (indent : Nat) : (fuel : Nat) → Reader (List Branch)
  | 0 => Reader.refuse
  | fuel + 1 => do
    if ← Reader.accepts (Reader.continuation indent "except") then
      let l : Layout := { indent, ending := .inner }
      let head ← handlerHead g l
      headingEnd l
      let body ← suite g indent fuel
      pure (⟨head, body⟩ :: (← handlers g indent fuel))
    else pure []
termination_by structural fuel => fuel

/-- The cases of a `match`, up to the first line that falls back behind `indent`. -/
def caseBranches (g : Grammar) (indent : Nat) : (fuel : Nat) → Reader (List Branch)
  | 0 => Reader.refuse
  | fuel + 1 => do
    let start ← Reader.lineStart
    let rest := (← Reader.ahead).drop start.length
    if rest.isEmpty || (start.crossed && decide (start.width < indent)) then pure []
    else
      let l : Layout := { indent, ending := .inner }
      Reader.forward start.length
      Reader.keyword "case"
      Reader.operandGap l false
      casePattern g l g.fuel
      casePatterns g l fuel
      let guard ← Reader.optionally do
        Reader.gap l
        Reader.keyword "if"
        Reader.operandGap l false
        g.expr l .all
      headingEnd l
      let body ← suite g indent fuel
      let head := match guard with
        | some condition => Head.guard condition
        | none => Head.plain
      pure (⟨head, body⟩ :: (← caseBranches g indent fuel))
termination_by structural fuel => fuel

/-- A definition, behind its decorators if it has any. -/
def definition (g : Grammar) (indent : Nat) : (fuel : Nat) → Reader Stmt
  | 0 => Reader.refuse
  | fuel + 1 => do
    let l : Layout := { indent, ending := .inner }
    let start ← Reader.here
    if (← Reader.wordAhead) = "class" then
      let (name, bases) ← classHeading g l
      headingEnd l
      let span ← Reader.since start
      pure (.classDef span name.text bases (← suite g indent fuel))
    else
      if ← Reader.theWord "async" then Reader.gap l
      let (name, params) ← functionHeading g l
      headingEnd l
      let span ← Reader.since start
      pure (.functionDef span name.text (paramNames params) (paramDefaults params)
        (← suite g indent fuel))
termination_by structural fuel => fuel

/-- A statement with a block, by the word that starts it; `none` if it is not one. -/
def blockStatement (g : Grammar) (indent : Nat) : (fuel : Nat) → Reader (Option Stmt)
  | 0 => Reader.refuse
  | fuel + 1 => do
    let l : Layout := { indent, ending := .inner }
    match ← Reader.wordAhead with
    | "if" =>
      Reader.keyword "if"
      Reader.operandGap l false
      let condition ← g.expr l .all
      headingEnd l
      let body ← suite g indent fuel
      pure (some (.choice condition body (← elseBranches g indent fuel)))
    | "while" =>
      Reader.keyword "while"
      Reader.operandGap l false
      let condition ← g.expr l .all
      headingEnd l
      let body ← suite g indent fuel
      pure (some (.whileLoop condition body (← continued g indent "else" fuel)))
    | "for" =>
      Reader.keyword "for"
      Reader.operandGap l false
      let target ← targets g ["in"] l
      Reader.gap l
      Reader.keyword "in"
      Reader.operandGap l false
      let source ← expressions g l
      headingEnd l
      let body ← suite g indent fuel
      pure (some (.forLoop target source body (← continued g indent "else" fuel)))
    | "try" =>
      Reader.keyword "try"
      headingEnd l
      let body ← suite g indent fuel
      let caught ← handlers g indent fuel
      let rest ← (do if caught.isEmpty then pure [] else continued g indent "else" fuel)
      let final ← continued g indent "finally" fuel
      Reader.require !(caught.isEmpty && final.isEmpty)
      pure (some (.attempt body (caught ++ rest) (final.flatMap (·.body))))
    | "with" =>
      Reader.keyword "with"
      Reader.operandGap l false
      let items ← withHeading g l
      headingEnd l
      pure (some (.withItems items (← suite g indent fuel)))
    | "match" =>
      let opens ← Reader.foresees do
        Reader.keyword "match"
        Reader.tailGap { l with ending := .line }
        Reader.require (startsOperand (← Reader.ahead))
      if !opens then pure none
      else
        Reader.keyword "match"
        Reader.operandGap l false
        let subjects ← expressionList g l true
        headingEnd l
        Reader.statementEnd { l with ending := .line }
        let start ← Reader.lineStart
        if indent < start.width then
          pure (some (.cases subjects (← caseBranches g start.width fuel)))
        else pure (some (.cases subjects []))
    | "def" => do pure (some (← definition g indent fuel))
    | "class" => do pure (some (← definition g indent fuel))
    | "async" =>
      let next ← Reader.glimpse do
        Reader.keyword "async"
        Reader.gap l
        Reader.wordAhead
      match next with
      | some "def" => do pure (some (← definition g indent fuel))
      | some "for" =>
        Reader.keyword "async"
        Reader.gap l
        blockStatement g indent fuel
      | some "with" =>
        Reader.keyword "async"
        Reader.gap l
        blockStatement g indent fuel
      | _ => pure none
    | _ =>
      if (← Reader.ahead).head? = some '@' then
        let first ← decorator g l
        let rest ← moreDecorators g l g.fuel
        Reader.gap l
        Reader.require (["def", "class", "async"].contains (← Reader.wordAhead))
        pure (some (.decorated (first :: rest) (← definition g indent fuel)))
      else pure none
termination_by structural fuel => fuel

/-- One statement with a block, or a line of statements without. -/
def statement (g : Grammar) (indent : Nat) : (fuel : Nat) → Reader (List Stmt)
  | 0 => Reader.refuse
  | fuel + 1 => do
    match ← blockStatement g indent fuel with
    | some stmt => pure [stmt]
    | none => simpleLine g indent
termination_by structural fuel => fuel

end

/-! ## Programs -/

/-- A function whose heading breaks off behind the opening parenthesis and a colon, as the
last thing of a text. -/
def brokenFunction : Reader Stmt := do
  let start ← Reader.here
  Reader.keyword "def"
  let l : Layout := { indent := 0, ending := .line }
  Reader.tailGap l
  let name ← Reader.word
  Reader.tailGap l
  Reader.theSign '('
  Reader.tailGap l
  Reader.theSign ':'
  let span ← Reader.since start
  let rest ← Reader.lineStart
  Reader.require (((← Reader.ahead).drop rest.length).isEmpty)
  pure (.functionDef span name.text [] [] [])

/-- The statements of a text up to the first that cannot be read, and whether there is
one. -/
def programBody (g : Grammar) : (fuel : Nat) → Cursor → List Stmt × Bool
  | 0, _ => ([], true)
  | fuel + 1, c =>
    let c := c.skip (nextLine .blanks false 0 c.rest).length
    if c.rest.isEmpty then ([], false)
    else
      match statement g 0 g.fuel c with
      | some (first, after) =>
        let (rest, broken) := programBody g fuel after
        (first ++ rest, broken)
      | none =>
        match brokenFunction c with
        | some (stmt, _) => ([stmt], true)
        | none => ([], true)

/-- Whether nothing of a program starts at a character. -/
def isOuterBlank (c : Char) : Bool := c == '\n' || isLineBlank c || isJoiner c

/-- Reads a program. Each step of reading spends a character or goes one level deeper,
which bounds the fuel. -/
def Program.read (text : String) : Program :=
  let c := Cursor.ofText text
  let fuel := 4 * c.rest.length + 8
  let (body, isPartial) := programBody (grammar fuel) fuel c
  let start := c.skip (c.rest.takeWhile isOuterBlank).length
  { start := start.to start, body, isPartial }

end XPathTaint.Python
