import XPathTaint.Proofs.ArgumentPlaces
import XPathTaint.Proofs.Outlines

-- The facts of a program, from its syntax alone and in the order in which they are recorded: the
-- calls, the names and paths that are bound, and the definitions, each with the piece of the text
-- that its place comes from. What the lowering passes over has no facts: a target behind a comment,
-- the conditions of cases, the indices behind the first.

namespace XPathTaint.Python

/-! ## Facts -/

/-- What makes a scope: a function with the decorators right above it, a class or a `lambda`. -/
inductive Definer where
  | function (decorators : List Node)
  | classBody
  | lambda

/-- A definition in a program. -/
structure DefinitionNode where
  definer : Definer
  name : String
  params : List String
  span : Span

inductive FactNode where
  | call (span : Span)
  /-- A name or path that is bound where a piece of the text stands. -/
  | bind (name : String) (span : Span)
  | definition (d : DefinitionNode)

/-- Only functions have a route: that of their own decorators. -/
def DefinitionNode.route (symbols : Symbols) (d : DefinitionNode) : Option Route :=
  match d.definer with
  | .function decorators => routeOf symbols decorators
  | .classBody => none
  | .lambda => none

/-- What a definition is recorded with. -/
def DefinitionNode.heading (symbols : Symbols) (d : DefinitionNode) : Heading :=
  ⟨d.name, d.params, d.route symbols, d.span⟩

namespace FactNode

def call? : FactNode → Option Span
  | call s => some s
  | _ => none

def bind? : FactNode → Option (String × Span)
  | bind name s => some (name, s)
  | _ => none

def definition? : FactNode → Option DefinitionNode
  | definition d => some d
  | _ => none

end FactNode

/-! ## What targets bind -/

/-- Binding the path that a node stands for, where its name or member stands. -/
def Node.bound (n : Node) : List FactNode := (n.path?.map (.bind · n.core.span)).toList

/-- What is bound when the value of a node is stored: its path, or that of the container. -/
def Node.stored : Node → List FactNode
  | .subscript _ value _ => value.bound
  | .paren _ _ inner => inner.stored
  | .walrus _ _ value => value.stored
  | n => n.bound

/-- Whether a goal has a value for what it reads. -/
def Goal.takes : Goal → Bool
  | .value => false
  | .target _ _ _ => true

/-! ## Facts of a program -/

mutual

/-- The facts in a node, which takes a value if it is `taking` one. -/
def Node.facts (taking : Bool) : Node → List FactNode
  | .name s => if taking then (Node.name s).stored else []
  | .constant _ => []
  | .string _ values _ => Node.factsOfAll false values
  | .strings _ parts => Node.factsOfAll false parts
  | .member s object attr =>
    object.facts false ++ (if taking then (Node.member s object attr).stored else [])
  | .subscript s value indices =>
    value.facts false ++ (Node.factsOfFirst indices ++
      (if taking then (Node.subscript s value indices).stored else []))
  | .call s func args => func.facts false ++ (Node.factsOfArguments args ++ [.call s])
  | .paren _ lead inner => if taking && lead.isSome then [] else inner.facts taking
  | .starred _ lead inner => if taking && lead.isSome then [] else inner.facts taking
  | .hidden _ _ => []
  | .walrus _ target value =>
    value.facts false ++ (.bind target.text target :: (if taking then value.stored else []))
  | .aliased _ value _ target => value.facts false ++ target.facts false
  | .lambda s params defaults body =>
    Node.factsOfAll false defaults ++
      (.definition ⟨.lambda, "<lambda>", params, s⟩ :: body.facts false)
  | .comprehension _ body clauses => Node.factsOfClauses clauses ++ body.facts false
  | .test _ parts => Node.factsOfAll false parts
  | .group _ form parts => Node.factsOfAll (taking && form == .sequence) parts

def Node.factsOfAll (taking : Bool) : List Node → List FactNode
  | [] => []
  | node :: rest => node.facts taking ++ Node.factsOfAll taking rest

/-- Only the first of the nodes is read. -/
def Node.factsOfFirst : List Node → List FactNode
  | [] => []
  | node :: _ => node.facts false

def Node.factsOfArguments : List (ArgumentOf Node) → List FactNode
  | [] => []
  | ⟨_, _, value⟩ :: rest => value.facts false ++ Node.factsOfArguments rest

def Node.factsOfClauses : List (ClauseOf Node) → List FactNode
  | [] => []
  | .loop target sources :: rest =>
    Node.factsOfFirst sources ++ (target.facts true ++ Node.factsOfClauses rest)
  | .guard condition :: rest => condition.facts false ++ Node.factsOfClauses rest

end

/-- The facts in a resource of a `with`. -/
def Node.factsOfItem : Node → List FactNode
  | .aliased _ value _ target => value.facts false ++ target.facts true
  | item => item.facts false

def Head.facts : Head → List FactNode
  | .plain => []
  | .condition value => value.facts false
  | .guard _ => []
  | .handler kind target _ =>
    Node.factsOfFirst kind.toList ++ Node.factsOfAll true target.toList

mutual

/-- The facts in a statement that stands behind decorators. -/
def Stmt.facts (decorators : List Node) : Stmt → List FactNode
  | .values parts => Node.factsOfAll false parts
  | .assign _ _ none => []
  | .assign _ targets (some value) => value.facts false ++ Node.factsOfAll true targets.reverse
  | .augmented _ target value => target.facts false ++ (value.facts false ++ target.stored)
  | .imports _ => []
  | .choice condition body branches =>
    condition.facts false ++ (Stmt.factsOfAll body ++ Stmt.factsOfBranches branches)
  | .whileLoop condition body branches =>
    condition.facts false ++ (Stmt.factsOfAll body ++ Stmt.factsOfBranches branches)
  | .forLoop target source body branches =>
    source.facts false ++
      (target.facts true ++ (Stmt.factsOfAll body ++ Stmt.factsOfBranches branches))
  | .attempt body branches final =>
    Stmt.factsOfAll body ++ (Stmt.factsOfBranches branches ++ Stmt.factsOfAll final)
  | .withItems items body => items.flatMap Node.factsOfItem ++ Stmt.factsOfAll body
  | .cases subjects branches => Node.factsOfFirst subjects ++ Stmt.factsOfBranches branches
  | .functionDef s name params defaults body =>
    Node.factsOfAll false defaults ++
      (.definition ⟨.function decorators, name, params, s⟩ :: Stmt.factsOfAll body)
  | .classDef s name bases body =>
    Node.factsOfArguments bases ++
      (.definition ⟨.classBody, name, [], s⟩ :: Stmt.factsOfAll body)
  | .decorated decorators definition =>
    Node.factsOfAll false decorators ++ definition.facts decorators

def Stmt.factsOfAll : List Stmt → List FactNode
  | [] => []
  | stmt :: rest => stmt.facts [] ++ Stmt.factsOfAll rest

def Stmt.factsOfBranches : List (BranchOf Stmt) → List FactNode
  | [] => []
  | ⟨head, body⟩ :: rest =>
    head.facts ++ (Stmt.factsOfAll body ++ Stmt.factsOfBranches rest)

end

/-- The facts in a program. -/
def Program.facts (p : Program) : List FactNode := Stmt.factsOfAll p.body

/-- The calls of a program that are read. -/
def Program.callSpans (p : Program) : List Span := p.facts.filterMap FactNode.call?

/-- The names and paths that a program binds, and where they stand. -/
def Program.binders (p : Program) : List (String × Span) := p.facts.filterMap FactNode.bind?

/-- The functions, classes and `lambda`s of a program. -/
def Program.definitions (p : Program) : List DefinitionNode :=
  p.facts.filterMap FactNode.definition?

end XPathTaint.Python
