import XPathTaint.Proofs.Outlines
import XPathTaint.Proofs.ProgramCourse

-- The outline of a program, from its syntax alone. The defaults of parameters, the decorators and
-- the base classes of a definition stand before it; in its body is what it runs.

namespace XPathTaint.Python

/-! ## Expressions -/

/-- What a target does with a value. -/
def Outline.taking (target value : Expr) (pos : Nat) : Outline :=
  match Python.taking false target value pos with
  | .item x => .item x
  | _ => .nothing

/-- What becomes of an expression behind its parts. -/
def Goal.outline (goal : Goal) (e : Expr) : Outline :=
  match goal with
  | .value => .nothing
  | .target given _ pos => .taking e given pos

section

variable (path : String) (symbols : Symbols)

mutual

/-- The outline of an expression that is read for a goal. -/
def Node.outline (goal : Goal) : Node → Outline
  | .name s => goal.outline (.name s.text (originIn path s))
  | .constant _ => .nothing
  | .string _ values _ => Node.outlineOfAll values
  | .strings _ parts => Node.outlineOfAll parts
  | .member s object attr =>
    .both (object.outline .value)
      (goal.outline (.member (object.expr path symbols) attr (originIn path s)))
  | .subscript s value indices =>
    .both (.both (value.outline .value) (Node.outlineOfFirst indices))
      (goal.outline ((Node.subscript s value indices).expr path symbols))
  | .call s func args =>
    .both (func.outline .value)
      (.both (Node.outlineOfArguments args) (.item (callItem path symbols s func args)))
  | .paren _ lead inner =>
    match goal, lead with
    | .target _ _ _, some _ => .nothing
    | goal, _ => inner.outline goal
  | .starred _ lead inner =>
    match goal, lead with
    | .target _ _ _, some _ => .nothing
    | goal, _ => inner.outline goal
  | .hidden _ _ => .nothing
  | .walrus s target value =>
    .both (.both (value.outline .value)
      (.item (.bind false target.text (value.expr path symbols) s.stop (placeIn path target))))
      (goal.outline (value.expr path symbols))
  | .aliased _ value _ target => .both (value.outline .value) (target.outline .value)
  | .lambda s params defaults body =>
    .both (Node.outlineOfAll defaults)
      (.definition ⟨"<lambda>", params, none, s⟩ (body.outline .value))
  | .comprehension s body clauses =>
    .block (.both (Node.outlineOfClauses s.pos clauses) (body.outline .value))
  | .test _ parts => Node.outlineOfAll parts
  | .group _ form parts =>
    match goal, form with
    | .target value pairwise pos, .sequence =>
      Node.outlineOfTargets pos (valuesFor value pairwise parts.length) parts
    | _, _ => Node.outlineOfAll parts

def Node.outlineOfAll : List Node → Outline
  | [] => .nothing
  | node :: rest => .both (node.outline .value) (Node.outlineOfAll rest)

def Node.outlineOfFirst : List Node → Outline
  | [] => .nothing
  | node :: _ => node.outline .value

def Node.outlineOfArguments : List (ArgumentOf Node) → Outline
  | [] => .nothing
  | ⟨_, _, value⟩ :: rest => .both (value.outline .value) (Node.outlineOfArguments rest)

def Node.outlineOfClauses (pos : Nat) : List (ClauseOf Node) → Outline
  | [] => .nothing
  | .loop target sources :: rest =>
    .both (Node.outlineOfFirst sources)
      (.both (target.outline (.target
          (Node.exprOfFirst path symbols (.unknown default) sources) false pos))
        (Node.outlineOfClauses pos rest))
  | .guard condition :: rest =>
    .both (condition.outline .value) (Node.outlineOfClauses pos rest)

/-- Targets, each with its own value. -/
def Node.outlineOfTargets (pos : Nat) : List Expr → List Node → Outline
  | _, [] => .nothing
  | [], _ :: _ => .nothing
  | value :: values, target :: rest =>
    .both (target.outline (.target value false pos)) (Node.outlineOfTargets pos values rest)

end

-- A name bound in the default of a parameter is bound around the function, one in its body within.
example (s x y one : Span) :
    ((Node.lambda s ["p"] [.walrus s x (.constant one)] (.walrus s y (.constant one))).outline
        path symbols .value).places [] 1 =
      [([], .bind false x.text (.literal one.text (originIn path one)) s.stop (placeIn path x)),
        ([⟨1, ⟨"<lambda>", ["p"], none, s⟩⟩],
          .bind false y.text (.literal one.text (originIn path one)) s.stop (placeIn path y))] :=
  rfl

/-! ## Statements -/

/-- The targets of an assignment, the last one first. -/
def outlineOfTargets (value : Expr) (pairwise : Bool) (pos : Nat) (targets : List Node) :
    Outline :=
  match targets.reverse with
  | [] => .nothing
  | last :: others =>
    .both (last.outline path symbols (.target value pairwise pos))
      (.all (others.map (·.outline path symbols (.target value false pos))))

/-- The resource of a `with`. -/
def outlineOfItem : Node → Outline
  | .aliased s value _ target =>
    .both (value.outline path symbols .value)
      (target.outline path symbols (.target (value.expr path symbols) false s.stop))
  | item => item.outline path symbols .value

def Head.outline : Head → Outline
  | .plain => .nothing
  | .condition value => value.outline path symbols .value
  | .guard _ => .nothing
  | .handler kind target _ =>
    .both (Node.outlineOfFirst path symbols kind.toList)
      (match target with
        | some target => target.outline path symbols
            (.target (.unknown (originIn path target.span)) false target.span.stop)
        | none => .nothing)

mutual

/-- The outline of a statement; `route` is how a function defined by it is reached. -/
def Stmt.outline (route : Option Route) : Stmt → Outline
  | .values parts => Node.outlineOfAll path symbols parts
  | .assign _ _ none => .nothing
  | .assign stop targets (some value) =>
    .both (value.outline path symbols .value)
      (outlineOfTargets path symbols (value.expr path symbols) value.isSequence stop targets)
  | .augmented s target value =>
    .both (target.outline path symbols .value)
      (.both (value.outline path symbols .value)
        (.taking (target.expr path symbols)
          (.compound [target.expr path symbols, value.expr path symbols] (originIn path s)) s.stop))
  | .imports _ => .nothing
  | .choice condition body branches =>
    .both (condition.outline path symbols .value)
      (.both (.block (Stmt.outlineOfAll body)) (Stmt.outlineOfBranches branches))
  | .whileLoop condition body branches =>
    .both (condition.outline path symbols .value)
      (.both (.block (Stmt.outlineOfAll body)) (Stmt.outlineOfBranches branches))
  | .forLoop target source body branches =>
    .both (source.outline path symbols .value)
      (.both
        (.block (.both
          (target.outline path symbols
            (.target (source.expr path symbols) false source.span.stop))
          (Stmt.outlineOfAll body)))
        (Stmt.outlineOfBranches branches))
  | .attempt body branches final =>
    .both (.block (Stmt.outlineOfAll body))
      (.both (Stmt.outlineOfBranches branches) (Stmt.outlineOfAll final))
  | .withItems items body =>
    .both (.all (items.map (outlineOfItem path symbols))) (Stmt.outlineOfAll body)
  | .cases subjects branches =>
    .both (Node.outlineOfFirst path symbols subjects) (Stmt.outlineOfBranches branches)
  | .functionDef s name params defaults body =>
    .both (Node.outlineOfAll path symbols defaults)
      (.definition ⟨name, params, route, s⟩ (Stmt.outlineOfAll body))
  | .classDef s name bases body =>
    .both (Node.outlineOfArguments path symbols bases)
      (.definition ⟨name, [], none, s⟩ (Stmt.outlineOfAll body))
  | .decorated decorators definition =>
    .both (Node.outlineOfAll path symbols decorators)
      (definition.outline (routeOf symbols decorators))

def Stmt.outlineOfAll : List Stmt → Outline
  | [] => .nothing
  | stmt :: rest => .both (stmt.outline none) (Stmt.outlineOfAll rest)

/-- Branches, each with what its head evaluates. -/
def Stmt.outlineOfBranches : List (BranchOf Stmt) → Outline
  | [] => .nothing
  | ⟨head, body⟩ :: rest =>
    .both (.block (.both (head.outline path symbols) (Stmt.outlineOfAll body)))
      (Stmt.outlineOfBranches rest)

end

/-- The outline of a module. -/
def Program.outline (p : Program) : Outline := Stmt.outlineOfAll path symbols p.body

end

end XPathTaint.Python
