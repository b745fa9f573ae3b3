import XPathTaint.Proofs.BodyRuns
import XPathTaint.Proofs.Courses

-- The course of a program, from its syntax alone: which reads, calls and bindings there are in an
-- expression or statement, in which order they are evaluated, what of it is a conditional block,
-- what else may be passed over, and what runs in a scope of its own.

namespace XPathTaint.Python

/-! ## Targets -/

/-- What a target does with a value: a name or a path of members is bound, storing an item binds
the container. -/
def taking (ahead : Bool) (target value : Expr) (pos : Nat) : Course Item :=
  match target with
  | .name id o => .item (.bind ahead id value pos o.place)
  | .member _ _ o =>
    match target.dotted with
    | some path => .item (.bind ahead path value pos o.place)
    | none => .nothing
  | .subscript base _ o =>
    match base.dotted with
    | some path => .item (.bind ahead path (.compound [base, value] o) pos base.place)
    | none => .nothing
  | _ => .nothing

/-- What becomes of an expression once its parts were evaluated. -/
def Goal.finish (ahead : Bool) (goal : Goal) (e : Expr) : Course Item :=
  match goal with
  | .value => .nothing
  | .target given _ pos => taking ahead e given pos

/-- A name or path is read, or it takes a value. -/
def Goal.settle (ahead : Bool) (goal : Goal) (s : Span) (e : Expr) : Course Item :=
  match goal with
  | .value => .item (.read s)
  | .target given _ pos => taking ahead e given pos

/-- A binding that is recorded ahead of its value is not in the order of the text. -/
def orderOf (ahead : Bool) : PairOrder := if ahead then .either else .forward

/-! ## Parts of expressions -/

namespace Course

variable {α : Type}

/-- Parts of which only the first `sure` ones are sure to be evaluated. -/
def cutShort (sure : Nat) : List (Course α) → Course α
  | [] => .nothing
  | part :: rest =>
    match sure with
    | 0 => .optional false (.all .forward (part :: rest))
    | sure + 1 => .pair .forward part (cutShort sure rest)

/-- `value if condition else other` begins with the condition. -/
def conditional : List (Course α) → Course α
  | [value, condition, other] =>
    .pair .backward (.optional false value) (.pair .forward condition (.optional false other))
  | parts => .all .forward parts

/-- The parts of a group that is no target. -/
def ofGroup (form : GroupForm) (parts : List (Course α)) : Course α :=
  match form with
  | .shortCircuit => cutShort 1 parts
  | .conditional => conditional parts
  | _ => .all .forward parts

/-- Arguments, each with whether it has a keyword. Those without one are evaluated first, also if
they come later. -/
def arguments : List (Bool × Course α) → Course α
  | [] => .nothing
  | (keyword, part) :: rest =>
    .pair (if keyword && rest.any (!·.1) then .either else .forward) part (arguments rest)

end Course

/-- The values for a number of targets: the operands of a sequence in turn, or the whole value for
each of them. -/
def valuesFor (value : Expr) (pairwise : Bool) (count : Nat) : List Expr :=
  match value with
  | .compound operands _ =>
    if pairwise && operands.length == count then operands else List.replicate count value
  | _ => List.replicate count value

/-! ## Expressions -/

section

variable (path : String) (symbols : Symbols)

/-- How a call is recorded. -/
def callItem (s : Span) (func : Node) (args : List (ArgumentOf Node)) : Item :=
  .call s (func.expr path symbols) ((func.expr path symbols).dotted.map symbols.canonical)
    (Node.arguments path symbols args)

mutual

/-- The course of an expression that is read for a goal. The targets of a comprehension are bound
`ahead`; what a comment hides is not evaluated. -/
def Node.course (ahead : Bool) (goal : Goal) : Node → Course Item
  | .name s => goal.settle ahead s (.name s.text (originIn path s))
  | .constant _ => .nothing
  | .string _ values _ => .all .forward (Node.courses values)
  | .strings _ parts => .all .forward (Node.courses parts)
  | .member s object attr =>
    .pair (orderOf ahead) (object.course false .value)
      (goal.settle ahead s (.member (object.expr path symbols) attr (originIn path s)))
  | .subscript s value indices =>
    .pair (orderOf ahead) (.pair .forward (value.course false .value) (Node.courseOfFirst indices))
      (goal.finish ahead ((Node.subscript s value indices).expr path symbols))
  | .call s func args =>
    .pair .forward (func.course false .value)
      (.pair .forward (.arguments (Node.coursesOfArguments args))
        (.item (callItem path symbols s func args)))
  | .paren _ lead inner =>
    match goal, lead with
    | .target _ _ _, some _ => .nothing
    | goal, _ => inner.course ahead goal
  | .starred _ lead inner =>
    match goal, lead with
    | .target _ _ _, some _ => .nothing
    | goal, _ => inner.course ahead goal
  | .hidden _ _ => .nothing
  | .walrus s target value =>
    .pair (orderOf ahead)
      (.pair .forward (value.course false .value)
        (.item (.bind false target.text (value.expr path symbols) s.stop (placeIn path target))))
      (goal.finish ahead (value.expr path symbols))
  | .aliased _ value _ target =>
    .pair .forward (value.course false .value) (target.course false .value)
  | .lambda _ _ defaults body =>
    .pair .forward (.all .forward (Node.courses defaults)) (.scope (body.course false .value))
  | .comprehension s body clauses =>
    .optional true
      (Node.courseOfClauses s.pos (.optional false (body.course false .value)) clauses)
  | .test _ parts => .cutShort 2 (Node.courses parts)
  | .group _ form parts =>
    match goal, form with
    | .target value pairwise pos, .sequence =>
      .all (orderOf ahead)
        (Node.coursesOfTargets ahead pos (valuesFor value pairwise parts.length) parts)
    | _, form => .ofGroup form (Node.courses parts)

def Node.courses : List Node → List (Course Item)
  | [] => []
  | node :: rest => node.course false .value :: Node.courses rest

def Node.courseOfFirst : List Node → Course Item
  | [] => .nothing
  | node :: _ => node.course false .value

def Node.coursesOfArguments : List (ArgumentOf Node) → List (Bool × Course Item)
  | [] => []
  | ⟨keyword, splat, value⟩ :: rest =>
    (keyword.isSome || splat == .dict, value.course false .value) :: Node.coursesOfArguments rest

/-- The clauses of a comprehension and what they lead to. A source is evaluated before the loop
over it, and what follows may not be reached. -/
def Node.courseOfClauses (pos : Nat) (last : Course Item) : List (ClauseOf Node) → Course Item
  | [] => last
  | .loop target sources :: rest =>
    .pair .forward (Node.courseOfFirst sources)
      (.optional false
        (.pair .forward
          (target.course true (.target
            (Node.exprOfFirst path symbols (.unknown default) sources) false pos))
          (Node.courseOfClauses pos last rest)))
  | .guard condition :: rest =>
    .pair .forward (condition.course false .value) (Node.courseOfClauses pos last rest)

/-- Targets, each with its own value. -/
def Node.coursesOfTargets (ahead : Bool) (pos : Nat) : List Expr → List Node → List (Course Item)
  | _, [] => []
  | [], _ :: _ => []
  | value :: values, target :: rest =>
    target.course ahead (.target value false pos) :: Node.coursesOfTargets ahead pos values rest

end

theorem courses_eq_map (ns : List Node) :
    Node.courses path symbols ns = ns.map (·.course path symbols false .value) := by
  induction ns with
  | nil => rfl
  | cons n rest ih => rw [Node.courses, ih, List.map_cons]

theorem coursesOfArguments_eq_map (args : List (ArgumentOf Node)) :
    Node.coursesOfArguments path symbols args = args.map fun arg =>
      (arg.keyword.isSome || arg.splat == .dict,
        arg.value.course path symbols false .value) := by
  induction args with
  | nil => rfl
  | cons arg rest ih => rw [Node.coursesOfArguments, ih, List.map_cons]

theorem coursesOfTargets_eq_map (ahead : Bool) (pos : Nat) (values : List Expr) (ts : List Node) :
    Node.coursesOfTargets path symbols ahead pos values ts =
      (values.zip ts).map fun x => x.2.course path symbols ahead (.target x.1 false pos) := by
  induction ts generalizing values with
  | nil => simp [Node.coursesOfTargets]
  | cons t rest ih =>
    cases values with
    | nil => rfl
    | cons value values => rw [Node.coursesOfTargets, ih, List.zip_cons_cons, List.map_cons]

/-! ## Statements -/

/-- The targets of an assignment. The last one is recorded first, and only that one is taken apart
pairwise; they take the value in the order of the text. -/
def courseOfTargets (value : Expr) (pairwise : Bool) (pos : Nat) (targets : List Node) :
    Course Item :=
  match targets.reverse with
  | [] => .nothing
  | last :: others =>
    .all .backward (last.course path symbols false (.target value pairwise pos) ::
      others.map (·.course path symbols false (.target value false pos)))

/-- The resource of a `with`. -/
def courseOfItem : Node → Course Item
  | .aliased s value _ target =>
    .pair .forward (value.course path symbols false .value)
      (target.course path symbols false (.target (value.expr path symbols) false s.stop))
  | item => item.course path symbols false .value

def Head.course : Head → Course Item
  | .plain => .nothing
  | .condition value => value.course path symbols false .value
  | .guard _ => .nothing
  | .handler kind target _ =>
    .pair .forward (Node.courseOfFirst path symbols kind.toList)
      (match target with
        | some target => target.course path symbols false
            (.target (.unknown (originIn path target.span)) false target.span.stop)
        | none => .nothing)

mutual

def Stmt.course : Stmt → Course Item
  | .values parts => .all .forward (Node.courses path symbols parts)
  | .assign _ _ none => .nothing
  | .assign stop targets (some value) =>
    -- the value stands behind the targets but is evaluated first
    .pair .either (value.course path symbols false .value)
      (courseOfTargets path symbols (value.expr path symbols) value.isSequence stop targets)
  | .augmented s target value =>
    .pair .forward (target.course path symbols false .value)
      (.pair .forward (value.course path symbols false .value)
        (taking false (target.expr path symbols)
          (.compound [target.expr path symbols, value.expr path symbols] (originIn path s)) s.stop))
  | .imports _ => .nothing
  | .choice condition body branches =>
    .pair .forward (condition.course path symbols false .value)
      (.pair .forward (.optional true (Stmt.courseOfAll body)) (Stmt.courseOfBranches branches))
  | .whileLoop condition body branches =>
    .pair .forward
      (.again (.pair .forward (condition.course path symbols false .value)
        (.optional true (Stmt.courseOfAll body))))
      (Stmt.courseOfBranches branches)
  | .forLoop target source body branches =>
    .pair .forward (source.course path symbols false .value)
      (.pair .forward
        (.optional true (.pair .forward
          (target.course path symbols false
            (.target (source.expr path symbols) false source.span.stop))
          (Stmt.courseOfAll body)))
        (Stmt.courseOfBranches branches))
  | .attempt body branches final =>
    .pair .forward (.optional true (Stmt.courseOfAll body))
      (.pair .forward (Stmt.courseOfBranches branches) (Stmt.courseOfAll final))
  | .withItems items body =>
    .pair .forward (.all .forward (items.map (courseOfItem path symbols))) (Stmt.courseOfAll body)
  | .cases subjects branches =>
    .pair .forward (Node.courseOfFirst path symbols subjects) (Stmt.courseOfBranches branches)
  | .functionDef _ _ _ defaults body =>
    .pair .forward (.all .forward (Node.courses path symbols defaults))
      (.scope (Stmt.courseOfAll body))
  | .classDef _ _ bases body =>
    .pair .forward (.arguments (Node.coursesOfArguments path symbols bases))
      (.scope (Stmt.courseOfAll body))
  | .decorated decorators definition =>
    .pair .forward (.all .forward (Node.courses path symbols decorators)) definition.course

def Stmt.courseOfAll : List Stmt → Course Item
  | [] => .nothing
  | stmt :: rest => .pair .forward stmt.course (Stmt.courseOfAll rest)

/-- Branches, each with what its head evaluates. -/
def Stmt.courseOfBranches : List (BranchOf Stmt) → Course Item
  | [] => .nothing
  | ⟨head, body⟩ :: rest =>
    .pair .forward
      (.optional true (.pair .forward (head.course path symbols) (Stmt.courseOfAll body)))
      (Stmt.courseOfBranches rest)

end

/-- The course of a module. -/
def Program.course (p : Program) : Course Item := Stmt.courseOfAll path symbols p.body

/-- The course of a module with the places in it. -/
def Program.located (p : Program) : Course Mark := (p.course path symbols).locate .ofModule 0 1

end

end XPathTaint.Python
