import XPathTaint.Event
import XPathTaint.Python.Routes

-- From syntax trees to facts: every call becomes a call site, every assignment of a name
-- or path a binding, every function, class and `lambda` a scope. Bodies that may not run
-- get a block number of their own. The scopes and blocks that are open stand in stacks, which
-- every visit of a piece of a program pushes to and pops from.

namespace XPathTaint.Python

/-! ## What is collected -/

/-- The facts found so far, the number of block numbers given away, and the events. -/
structure Lowered where
  scopes : List Scope
  calls : List CallSite
  bindings : List Binding
  blocks : Nat
  events : List Event

def Lowered.empty : Lowered := ⟨[], [], [], 0, []⟩

/-- What surrounds a piece of a program. -/
structure Around where
  path : String
  symbols : Symbols
  scope : ScopeId
  block : BlockPath
  /-- The names of the definitions around, outermost first. -/
  qualifiers : List String

abbrev Lowering := StateM Lowered

namespace Around

def place (a : Around) (s : Span) : Place := ⟨a.path, s.line, s.column⟩

def origin (a : Around) (s : Span) : Origin := ⟨s.text, s.pos, a.place s⟩

def qualify (a : Around) (name : String) : String := ".".intercalate (a.qualifiers ++ [name])

end Around

namespace Lowering

def log (e : Event) : Lowering Unit := modify fun s => { s with events := s.events ++ [e] }

/-- A block number that no other block has. -/
def newBlock : Lowering Nat := fun s => (s.blocks + 1, { s with blocks := s.blocks + 1 })

/-- Records a binding of a name in the place around. -/
def bind (a : Around) (name : String) (value : Expr) (pos : Nat) (place : Place) :
    Lowering Unit :=
  modify fun s =>
    let b : Binding :=
      { id := 0, name, value, scope := a.scope, block := a.block, pos, place }
    { s with bindings := s.bindings ++ [FileFacts.numberBinding a.path b] }

def recordCall (a : Around) (c : CallSite) : Lowering Unit :=
  modify fun s => { s with calls := s.calls ++ [FileFacts.numberCall a.path c] }

/-- The number that the next scope gets. -/
def nextScope : Lowering ScopeId := fun s => (s.scopes.length, s)

def recordScope (scope : Scope) : Lowering Unit :=
  modify fun s => { s with scopes := s.scopes ++ [scope] }

/-- Binds a lowered target: a name or a path of members under its path; storing an item
merges the value into the whole container. -/
def bindLowered (a : Around) (target value : Expr) (pos : Nat) : Lowering Unit :=
  match target with
  | .name id o => bind a id value pos o.place
  | .member _ _ o =>
    match target.dotted with
    | some path => bind a path value pos o.place
    | none => pure ()
  | .subscript base _ o =>
    match base.dotted with
    | some path => bind a path (.compound [base, value] o) pos base.place
    | none => pure ()
  | _ => pure ()

end Lowering

/-! ## Where the lowering stands -/

/-- The lowering on its way through a file, with stacks whose tops are at the end. -/
structure Lowerer where
  path : String
  symbols : Symbols
  /-- The scopes that are open. -/
  scopes : List ScopeId
  /-- The names of the definitions that are open. -/
  names : List String
  /-- The blocks that are open in the innermost scope. -/
  block : BlockPath
  found : Lowered

/-- What surrounds the place where the lowering stands. -/
def Lowerer.around (l : Lowerer) : Around :=
  { path := l.path, symbols := l.symbols, scope := l.scopes.getLast?.getD moduleScope,
    block := l.block, qualifiers := l.names }

abbrev Visit := StateM Lowerer

namespace Visit

/-- Finds something where the lowering stands. -/
def here {α : Type} (step : Around → Lowering α) : Visit α := fun l =>
  let (x, found) := step l.around l.found
  (x, { l with found })

/-- Visits a body in a block of its own. -/
def inBranch {α : Type} (body : Visit α) : Visit α := do
  let n ← here fun _ => Lowering.newBlock
  modify fun l => { l with block := l.block ++ [n] }
  let x ← body
  modify fun l => { l with block := l.block.dropLast }
  pure x

/-- Visits the body of a definition in its scope, where no block is open yet. -/
def inScope {α : Type} (id : ScopeId) (name : String) (body : Visit α) : Visit α := do
  modify fun l => { l with scopes := l.scopes ++ [id], names := l.names ++ [name] }
  let outer := (← get).block
  modify fun l => { l with block := [] }
  let x ← body
  modify fun l => { l with block := outer }
  modify fun l => { l with scopes := l.scopes.dropLast, names := l.names.dropLast }
  pure x

end Visit

/-! ## Expressions -/

/-- Several strings as one value: literal if all of them are. -/
def joinStrings (o : Origin) (parts : List Expr) : Expr :=
  if parts.all Expr.isLiteral then
    .literal (String.join (parts.map fun
      | .literal value _ => value
      | _ => "")) o
  else .compound parts o

/-- What an expression is read for: its value, or to take one. With `pairwise`, a sequence
of as many operands as there are targets is taken apart. -/
inductive Goal where
  | value
  | target (value : Expr) (pairwise : Bool) (pos : Nat)

/-- The lowered expression, after it took the value that the goal has for it. -/
def Goal.reach (goal : Goal) (a : Around) (e : Expr) : Lowering Expr :=
  match goal with
  | .value => pure e
  | .target given _ pos => do
    Lowering.bindLowered a e given pos
    pure e

open Visit

mutual

/-- Visits a node for a goal; records the calls, bindings and scopes in it. -/
def visitNode (goal : Goal) : Node → Visit Expr
  | .name s => here fun a => goal.reach a (.name s.text (a.origin s))
  | .constant s => here fun a => goal.reach a (.literal s.text (a.origin s))
  | .string s values _ => do
    let operands ← visitNodes values
    here fun a => goal.reach a (if values.isEmpty then .literal (unquoted s.text) (a.origin s)
      else .compound operands (a.origin s))
  | .strings s parts => do
    let parts ← visitNodes parts
    here fun a => goal.reach a (joinStrings (a.origin s) parts)
  | .member s object attr => do
    let object ← visitNode .value object
    here fun a => goal.reach a (.member object attr (a.origin s))
  | .subscript s value indices => do
    let value ← visitNode .value value
    let index ← visitFirst (fun a => .unknown (a.origin s)) indices
    here fun a => goal.reach a (.subscript value index (a.origin s))
  | .call s func args => do
    let func ← visitNode .value func
    let args ← visitArguments args
    here fun a => do
      let callee := func.dotted.map a.symbols.canonical
      if callee.isNone then Lowering.log (.targetNotDotted s.line s.text)
      Lowering.recordCall a
        { id := 0, callee, func, args, scope := a.scope, block := a.block, pos := s.pos,
          place := a.place s, text := s.text }
      goal.reach a (.call func callee args (a.origin s))
  | .paren _ lead inner =>
    match goal, lead with
    | .target _ _ _, some comment => here fun a => pure (.compound [] (a.origin comment))
    | goal, _ => visitNode goal inner
  | .starred s lead inner =>
    match goal, lead with
    | .target _ _ _, some comment => here fun a => pure (.compound [] (a.origin comment))
    | .target value pairwise pos, none => visitNode (.target value pairwise pos) inner
    | .value, _ => do
      let inner ← visitNode .value inner
      here fun a => pure (.compound [inner] (a.origin s))
  | .hidden comment _ => here fun a => goal.reach a (.compound [] (a.origin comment))
  | .walrus s target value => do
    let value ← visitNode .value value
    here fun a => Lowering.bind a target.text value s.stop (a.place target)
    here fun a => goal.reach a value
  | .aliased s value targetSpan target => do
    let value ← visitNode .value value
    let target ← visitNode .value target
    here fun a =>
      goal.reach a (.compound [value, .compound [target] (a.origin targetSpan)] (a.origin s))
  | .lambda s params defaults body => do
    let _ ← visitNodes defaults
    let id ← here fun a => do
      let id ← Lowering.nextScope
      Lowering.recordScope
        { id, name := a.qualify "<lambda>", params, route := none, parent := some a.scope,
          place := a.place s }
      pure id
    let _ ← inScope id "<lambda>" (visitNode .value body)
    here fun a => goal.reach a (.unknown (a.origin s))
  | .comprehension s body clauses => do
    let body ← inBranch do
      visitClauses s.pos clauses
      visitNode .value body
    here fun a => goal.reach a (.compound [body] (a.origin s))
  | .test s parts => do
    let _ ← visitNodes parts
    here fun a => goal.reach a (.unknown (a.origin s))
  | .group s form parts =>
    match goal, form with
    | .target value pairwise pos, .sequence => do
      match value with
      | .compound operands _ =>
        if pairwise && operands.length == parts.length then visitPairs pos operands parts
        else visitAll value pos parts
      | _ => visitAll value pos parts
      here fun a => pure (.unknown (a.origin s))
    | goal, _ => do
      let operands ← visitNodes parts
      here fun a => goal.reach a (.compound operands (a.origin s))

def visitNodes : List Node → Visit (List Expr)
  | [] => pure []
  | node :: rest => do
    let first ← visitNode .value node
    pure (first :: (← visitNodes rest))

/-- The value of the first node, `missing` if there is none. -/
def visitFirst (missing : Around → Expr) : List Node → Visit Expr
  | [] => here fun a => pure (missing a)
  | node :: _ => visitNode .value node

def visitArguments : List (ArgumentOf Node) → Visit (List Argument)
  | [] => pure []
  | ⟨keyword, splat, value⟩ :: rest => do
    let first ← visitNode .value value
    pure (⟨keyword, splat, first⟩ :: (← visitArguments rest))

/-- The clauses of a comprehension; a target is bound at `pos`, before the body. -/
def visitClauses (pos : Nat) : List (ClauseOf Node) → Visit Unit
  | [] => pure ()
  | .loop target sources :: rest => do
    let source ← visitFirst (fun _ => .unknown default) sources
    let _ ← visitNode (.target source false pos) target
    visitClauses pos rest
  | .guard condition :: rest => do
    let _ ← visitNode .value condition
    visitClauses pos rest

/-- Binds each target to the whole value. -/
def visitAll (value : Expr) (pos : Nat) : List Node → Visit Unit
  | [] => pure ()
  | target :: rest => do
    let _ ← visitNode (.target value false pos) target
    visitAll value pos rest

/-- Binds each target to the operand in its place. -/
def visitPairs (pos : Nat) : List Expr → List Node → Visit Unit
  | _, [] => pure ()
  | [], _ :: _ => pure ()
  | value :: values, target :: rest => do
    let _ ← visitNode (.target value false pos) target
    visitPairs pos values rest

end

/-- Binds a target to a value. -/
def visitTarget (target : Node) (value : Expr) (pairwise : Bool) (pos : Nat) : Visit Unit := do
  let _ ← visitNode (.target value pairwise pos) target

/-! ## Statements -/

/-- Binds the targets of an assignment, the last one first. Only the last one, which the
value was written for, is taken apart pairwise. -/
def visitTargets (value : Expr) (pairwise : Bool) (pos : Nat) (targets : List Node) :
    Visit Unit :=
  match targets.reverse with
  | [] => pure ()
  | last :: others => do
    visitTarget last value pairwise pos
    for target in others do visitTarget target value false pos

/-- The head of a branch: what it evaluates, and what it binds. The condition of a case is
passed over; what a handler binds is not known. -/
def visitHead : Head → Visit Unit
  | .plain => pure ()
  | .condition value => do let _ ← visitNode .value value
  | .guard _ => pure ()
  | .handler kind target _ => do
    if let some kind := kind then let _ ← visitNode .value kind
    if let some target := target then
      let unknown ← here fun a => pure (.unknown (a.origin target.span))
      visitTarget target unknown false target.span.stop

/-- The resources of a `with`. -/
def visitItems : List Node → Visit Unit
  | [] => pure ()
  | item :: rest => do
    match item with
    | .aliased s value _ target =>
      let value ← visitNode .value value
      visitTarget target value false s.stop
    | item => let _ ← visitNode .value item
    visitItems rest

mutual

/-- Visits a statement; `route` is how a function defined by it is reached. -/
def visitStmt (route : Option Route) : Stmt → Visit Unit
  | .values parts => do let _ ← visitNodes parts
  | .assign _ _ none => pure ()
  | .assign stop targets (some value) => do
    let lowered ← visitNode .value value
    visitTargets lowered value.isSequence stop targets
  | .augmented s target value => do
    let target ← visitNode .value target
    let value ← visitNode .value value
    here fun a =>
      Lowering.bindLowered a target (.compound [target, value] (a.origin s)) s.stop
  | .imports _ => pure ()
  | .choice condition body branches => do
    let _ ← visitNode .value condition
    inBranch (visitStmts body)
    visitBranches branches
  | .whileLoop condition body branches => do
    let _ ← visitNode .value condition
    inBranch (visitStmts body)
    visitBranches branches
  | .forLoop target source body branches => do
    let items ← visitNode .value source
    inBranch do
      visitTarget target items false source.span.stop
      visitStmts body
    visitBranches branches
  | .attempt body branches final => do
    inBranch (visitStmts body)
    visitBranches branches
    visitStmts final
  | .withItems items body => do
    visitItems items
    visitStmts body
  | .cases subjects branches => do
    let _ ← visitFirst (fun _ => .unknown default) subjects
    visitBranches branches
  | .functionDef s name params defaults body => do
    let _ ← visitNodes defaults
    let id ← here fun a => do
      let id ← Lowering.nextScope
      Lowering.log (.functionEntered (a.qualify name) id route.isSome)
      Lowering.recordScope
        { id, name := a.qualify name, params, route, parent := some a.scope, place := a.place s }
      pure id
    inScope id name (visitStmts body)
  | .classDef s name bases body => do
    let _ ← visitArguments bases
    let id ← here fun a => do
      let id ← Lowering.nextScope
      Lowering.recordScope
        { id, name := a.qualify name, params := [], route := none, parent := some a.scope,
          place := a.place s }
      pure id
    inScope id name (visitStmts body)
  | .decorated decorators definition => do
    let _ ← visitNodes decorators
    let symbols := (← get).symbols
    visitStmt (routeOf symbols decorators) definition

def visitStmts : List Stmt → Visit Unit
  | [] => pure ()
  | stmt :: rest => do
    visitStmt none stmt
    visitStmts rest

/-- Branches, each in a block of its own. -/
def visitBranches : List (BranchOf Stmt) → Visit Unit
  | [] => pure ()
  | ⟨head, body⟩ :: rest => do
    inBranch do
      visitHead head
      visitStmts body
    visitBranches rest

end

/-! ## Programs -/

/-- Nothing is open at the start of a file, and nothing is found yet. -/
def Lowerer.ofFile (path : String) (symbols : Symbols) : Lowerer :=
  { path, symbols, scopes := [], names := [], block := [], found := .empty }

/-- Visits a whole program: its module is the first scope. -/
def visitProgram (p : Program) : Visit Unit := do
  here fun a => Lowering.recordScope
    { id := moduleScope, name := "<module>", params := [], route := none, parent := none,
      place := a.place p.start }
  modify fun l => { l with scopes := l.scopes ++ [moduleScope] }
  visitStmts p.body
  modify fun l => { l with scopes := l.scopes.dropLast }

/-- All facts of a program. -/
def lowerProgram (path : String) (symbols : Symbols) (p : Program) : Lowered :=
  (visitProgram p (.ofFile path symbols)).2.found

end XPathTaint.Python
