import XPathTaint.Proofs.CallNodes
import XPathTaint.Python.Lowering
import XPathTaint.Taint.Source

-- How a body runs, as far as taint goes: an environment holds the names that are tainted, an
-- assignment puts its name in or takes it out, and of a choice any branch may run. Nothing
-- here knows of positions, block numbers or bindings.

namespace XPathTaint.Python

/-! ## Nodes -/

mutual

/-- The nodes in a node, itself the first. -/
def Node.nodes : Node → List Node
  | .name s => [.name s]
  | .constant s => [.constant s]
  | .string s values formats =>
    .string s values formats :: (Node.nodesOfAll values ++ Node.nodesOfAll formats)
  | .strings s parts => .strings s parts :: Node.nodesOfAll parts
  | .member s object attr => .member s object attr :: object.nodes
  | .subscript s value indices =>
    .subscript s value indices :: (value.nodes ++ Node.nodesOfAll indices)
  | .call s func args => .call s func args :: (func.nodes ++ Node.nodesOfArguments args)
  | .paren s lead inner => .paren s lead inner :: inner.nodes
  | .starred s lead inner => .starred s lead inner :: inner.nodes
  | .hidden comment inner => .hidden comment inner :: inner.nodes
  | .walrus s target value => .walrus s target value :: value.nodes
  | .aliased s value targetSpan target =>
    .aliased s value targetSpan target :: (value.nodes ++ target.nodes)
  | .lambda s params defaults body =>
    .lambda s params defaults body :: (Node.nodesOfAll defaults ++ body.nodes)
  | .comprehension s body clauses =>
    .comprehension s body clauses :: (body.nodes ++ Node.nodesOfClauses clauses)
  | .test s parts => .test s parts :: Node.nodesOfAll parts
  | .group s form parts => .group s form parts :: Node.nodesOfAll parts

def Node.nodesOfAll : List Node → List Node
  | [] => []
  | node :: rest => node.nodes ++ Node.nodesOfAll rest

def Node.nodesOfArguments : List (ArgumentOf Node) → List Node
  | [] => []
  | ⟨_, _, value⟩ :: rest => value.nodes ++ Node.nodesOfArguments rest

def Node.nodesOfClauses : List (ClauseOf Node) → List Node
  | [] => []
  | .loop target sources :: rest =>
    target.nodes ++ (Node.nodesOfAll sources ++ Node.nodesOfClauses rest)
  | .guard condition :: rest => condition.nodes ++ Node.nodesOfClauses rest

end

/-- Whether a node binds names of its own or has a body of its own. -/
def Node.isBinder : Node → Bool
  | .walrus _ _ _ => true
  | .lambda _ _ _ _ => true
  | .comprehension _ _ _ => true
  | _ => false

/-- An expression without assignments, functions and comprehensions in it. -/
def Node.IsPlain (n : Node) : Prop := ∀ m ∈ n.nodes, m.isBinder = false

def Node.nameSpan? : Node → Option Span
  | .name s => some s
  | _ => none

/-- All names in an expression stand from `lo` on and before `hi`. -/
def Node.Within (lo hi : Nat) (n : Node) : Prop :=
  ∀ m ∈ n.nodes, ∀ s ∈ m.nameSpan?, lo ≤ s.pos ∧ s.pos < hi

/-! ## Values -/

def originIn (path : String) (s : Span) : Origin := ⟨s.text, s.pos, placeIn path s⟩

mutual

/-- The expression that a node stands for when it is read for its value. -/
def Node.expr (path : String) (symbols : Symbols) : Node → Expr
  | .name s => .name s.text (originIn path s)
  | .constant s => .literal s.text (originIn path s)
  | .string s values _ =>
    if values.isEmpty then .literal (unquoted s.text) (originIn path s)
    else .compound (Node.exprs path symbols values) (originIn path s)
  | .strings s parts => joinStrings (originIn path s) (Node.exprs path symbols parts)
  | .member s object attr => .member (object.expr path symbols) attr (originIn path s)
  | .subscript s value indices =>
    .subscript (value.expr path symbols)
      (Node.exprOfFirst path symbols (.unknown (originIn path s)) indices) (originIn path s)
  | .call s func args =>
    .call (func.expr path symbols) ((func.expr path symbols).dotted.map symbols.canonical)
      (Node.arguments path symbols args) (originIn path s)
  | .paren _ _ inner => inner.expr path symbols
  | .starred s _ inner => .compound [inner.expr path symbols] (originIn path s)
  | .hidden comment _ => .compound [] (originIn path comment)
  | .walrus _ _ value => value.expr path symbols
  | .aliased s value targetSpan target =>
    .compound
      [value.expr path symbols, .compound [target.expr path symbols] (originIn path targetSpan)]
      (originIn path s)
  | .lambda s _ _ _ => .unknown (originIn path s)
  | .comprehension s body _ => .compound [body.expr path symbols] (originIn path s)
  | .test s _ => .unknown (originIn path s)
  | .group s _ parts => .compound (Node.exprs path symbols parts) (originIn path s)

def Node.exprs (path : String) (symbols : Symbols) : List Node → List Expr
  | [] => []
  | node :: rest => node.expr path symbols :: Node.exprs path symbols rest

def Node.exprOfFirst (path : String) (symbols : Symbols) (missing : Expr) : List Node → Expr
  | [] => missing
  | node :: _ => node.expr path symbols

def Node.arguments (path : String) (symbols : Symbols) : List (ArgumentOf Node) → List Argument
  | [] => []
  | ⟨keyword, splat, value⟩ :: rest =>
    ⟨keyword, splat, value.expr path symbols⟩ :: Node.arguments path symbols rest

end

theorem exprs_eq_map (path : String) (symbols : Symbols) (ns : List Node) :
    Node.exprs path symbols ns = ns.map (·.expr path symbols) := by
  induction ns with
  | nil => rfl
  | cons n rest ih => rw [Node.exprs, ih, List.map_cons]

theorem arguments_eq_map (path : String) (symbols : Symbols) (args : List (ArgumentOf Node)) :
    Node.arguments path symbols args =
      args.map fun arg => ⟨arg.keyword, arg.splat, arg.value.expr path symbols⟩ := by
  induction args with
  | nil => rfl
  | cons arg rest ih => rw [Node.arguments, ih, List.map_cons]

/-! ## Taint -/

/-- The path of names that a node stands for. -/
def Node.path? : Node → Option String
  | .name s => some s.text
  | .member _ object attr => object.path?.map fun base => base ++ "." ++ attr
  | .paren _ _ inner => inner.path?
  | .walrus _ _ value => value.path?
  | _ => none

/-- That path, with what was imported for its first name. -/
def Node.canonical? (symbols : Symbols) (n : Node) : Option String :=
  n.path?.map symbols.canonical

theorem joinStrings_eq (o : Origin) (parts : List Expr) :
    (∃ value, joinStrings o parts = .literal value o) ∨ joinStrings o parts = .compound parts o := by
  unfold joinStrings
  split
  · exact .inl ⟨_, rfl⟩
  · exact .inr rfl

/-- The path that an expression reads is that of its node. -/
theorem dotted_expr (path : String) (symbols : Symbols) (n : Node) :
    (n.expr path symbols).dotted = n.path? := by
  induction n using Node.ind with
  | string s values formats => rw [Node.expr]; split <;> rfl
  | strings s parts =>
    rcases joinStrings_eq (originIn path s) (Node.exprs path symbols parts) with ⟨value, h⟩ | h <;>
      rw [Node.expr, h] <;> rfl
  | member s object attr ih => rw [Node.expr, Expr.dotted, ih, Node.path?]
  | paren s lead inner ih => exact ih
  | walrus s target value ih => exact ih
  | _ => rfl

/-- What a function is a method of. -/
def Node.receiver? : Node → Option Node
  | .member _ object _ => some object
  | .paren _ _ inner => inner.receiver?
  | .walrus _ _ value => value.receiver?
  | _ => none

/-- Whether a path is that of one of some members of a request object. -/
def isOwnMember (reg : Registry) (members : List String) (path : String) : Bool :=
  (requestMember reg path).any fun m => members.contains m.2

/-- Whether a node reads a request: a collection of input, an item of one, what a method of one
returns, or the body. -/
def Node.isSource (symbols : Symbols) (reg : Registry) : Node → Bool
  | .member s object attr => ((Node.member s object attr).canonical? symbols).any fun path =>
    (inputCollection reg path).isSome || isOwnMember reg Registry.bodyMembers path
  | .subscript _ value _ => (value.canonical? symbols).any fun path => (inputCollection reg path).isSome
  | .call _ func _ =>
    (func.canonical? symbols).any (isOwnMember reg Registry.bodyMethods) ||
      (func.receiver?.bind (·.canonical? symbols)).any fun path => (inputCollection reg path).isSome
  | _ => false

mutual

/-- Whether the value of a node is tainted where the names of the environment are: it is a source or
a tainted name, a member or item of a tainted value, built from a tainted one, or the result of a
call on or with a tainted value, unless that sanitizes. -/
def Node.isTainted (symbols : Symbols) (reg : Registry) (env : List String) : Node → Bool
  | .name s => env.contains s.text
  | .constant _ => false
  | .string _ values formats =>
    Node.areTainted symbols reg env values || Node.areTainted symbols reg env formats
  | .strings _ parts => Node.areTainted symbols reg env parts
  | .member s object attr =>
    (Node.member s object attr).isSource symbols reg || object.isTainted symbols reg env
  | .subscript s value indices =>
    (Node.subscript s value indices).isSource symbols reg || value.isTainted symbols reg env
  | .call s func args =>
    (Node.call s func args).isSource symbols reg ||
      !(func.canonical? symbols).any reg.isSanitizer &&
        (func.hasTaintedReceiver symbols reg env || Node.argumentsTainted symbols reg env args)
  | .paren _ _ inner => inner.isTainted symbols reg env
  | .starred _ _ inner => inner.isTainted symbols reg env
  | .hidden _ inner => inner.isTainted symbols reg env
  | .walrus _ _ value => value.isTainted symbols reg env
  | .aliased _ value _ target => value.isTainted symbols reg env || target.isTainted symbols reg env
  | .lambda _ _ _ _ => false
  | .comprehension _ body _ => body.isTainted symbols reg env
  | .test _ _ => false
  | .group _ _ parts => Node.areTainted symbols reg env parts

/-- Whether a function is a method of a tainted value. -/
def Node.hasTaintedReceiver (symbols : Symbols) (reg : Registry) (env : List String) : Node → Bool
  | .member _ object _ => object.isTainted symbols reg env
  | .paren _ _ inner => inner.hasTaintedReceiver symbols reg env
  | .walrus _ _ value => value.hasTaintedReceiver symbols reg env
  | _ => false

def Node.areTainted (symbols : Symbols) (reg : Registry) (env : List String) : List Node → Bool
  | [] => false
  | node :: rest => node.isTainted symbols reg env || Node.areTainted symbols reg env rest

def Node.argumentsTainted (symbols : Symbols) (reg : Registry) (env : List String) :
    List (ArgumentOf Node) → Bool
  | [] => false
  | ⟨_, _, value⟩ :: rest =>
    value.isTainted symbols reg env || Node.argumentsTainted symbols reg env rest

end

/-- The parts of a node that its expression leaves out, though taint could flow from them: a value
behind a comment that takes its place, and the values in the formats of an f-string. -/
def Node.dropped : Node → List Node
  | .hidden _ inner => [inner]
  | .string _ _ formats => formats
  | _ => []

/-- No part that an expression leaves out is tainted. -/
def Node.DropsNoTaint (symbols : Symbols) (reg : Registry) (env : List String) (n : Node) : Prop :=
  ∀ m ∈ n.nodes, ∀ k ∈ m.dropped, k.isTainted symbols reg env = false

/-- The environment after a name took a value. -/
def assigned (env : List String) (name : String) (tainted : Bool) : List String :=
  if tainted then name :: env else env.filter (· != name)

/-! ## Bodies -/

/-- The head of an `elif` or `else`. -/
def Head.IsPlain : Head → Prop
  | .plain => True
  | .condition value => value.IsPlain
  | _ => False

def Head.Within (lo hi : Nat) : Head → Prop
  | .condition value => value.Within lo hi
  | _ => True

mutual

/-- A statement of assignments to single names, values and choices. -/
def Stmt.IsPlain : Stmt → Prop
  | .values parts => ∀ n ∈ parts, n.IsPlain
  | .assign _ [.name _] (some value) => value.IsPlain
  | .choice condition body branches =>
    condition.IsPlain ∧ Stmt.ArePlain body ∧ Stmt.ArePlainBranches branches
  | _ => False

def Stmt.ArePlain : List Stmt → Prop
  | [] => True
  | stmt :: rest => stmt.IsPlain ∧ Stmt.ArePlain rest

def Stmt.ArePlainBranches : List (BranchOf Stmt) → Prop
  | [] => True
  | ⟨head, body⟩ :: rest => head.IsPlain ∧ Stmt.ArePlain body ∧ Stmt.ArePlainBranches rest

end

mutual

/-- The statement stands from `lo` to `hi`, and its parts stand one behind the other. -/
def Stmt.LaidOut (lo hi : Nat) : Stmt → Prop
  | .values parts => lo ≤ hi ∧ ∀ n ∈ parts, n.Within lo hi
  | .assign stop _ (some value) => lo < stop ∧ stop ≤ hi ∧ value.Within lo stop
  | .choice condition body branches =>
    ∃ start mid, lo ≤ start ∧ condition.Within lo start ∧ Stmt.AreLaidOut start mid body ∧
      Stmt.AreLaidOutBranches mid hi branches
  | _ => lo ≤ hi

def Stmt.AreLaidOut (lo hi : Nat) : List Stmt → Prop
  | [] => lo ≤ hi
  | stmt :: rest => ∃ mid, stmt.LaidOut lo mid ∧ Stmt.AreLaidOut mid hi rest

def Stmt.AreLaidOutBranches (lo hi : Nat) : List (BranchOf Stmt) → Prop
  | [] => lo ≤ hi
  | ⟨head, body⟩ :: rest =>
    ∃ start mid, lo ≤ start ∧
      head.Within lo start ∧ Stmt.AreLaidOut start mid body ∧ Stmt.AreLaidOutBranches mid hi rest

end

section

variable (taints : List String → Node → Bool) (allowed : List String → Node → Prop)

/-- A run through a whole body, whichever branches it takes, from one environment to another;
`taints` says which values are tainted in an environment, and `allowed` which may be assigned in
it. Only a choice that ends with an `else` is sure to run one of its branches. -/
inductive Runs : List String → List Stmt → List String → Prop
  | nil {env} : Runs env [] env
  | values {env env' parts rest} : Runs env rest env' → Runs env (.values parts :: rest) env'
  | assign {env env' stop name value rest} : allowed env value →
    Runs (assigned env name.text (taints env value)) rest env' →
    Runs env (.assign stop [.name name] (some value) :: rest) env'
  | body {env env₁ env' condition body branches rest} : Runs env body env₁ →
    Runs env₁ rest env' → Runs env (.choice condition body branches :: rest) env'
  | branch {env env₁ env' condition body branches rest} {b : BranchOf Stmt} : b ∈ branches →
    Runs env b.body env₁ → Runs env₁ rest env' →
    Runs env (.choice condition body branches :: rest) env'
  | neither {env env' condition body branches rest} : (∀ b ∈ branches, b.head ≠ .plain) →
    Runs env rest env' → Runs env (.choice condition body branches :: rest) env'

/-- A run through a body up to the evaluation of a node, and the environment there. -/
inductive Leads : List String → List Stmt → List String → Node → Prop
  | values {env parts rest node} : node ∈ parts → Leads env (.values parts :: rest) env node
  | assign {env stop targets value rest} :
    Leads env (.assign stop targets (some value) :: rest) env value
  | condition {env condition body branches rest} :
    Leads env (.choice condition body branches :: rest) env condition
  | body {env env' condition body branches rest node} : Leads env body env' node →
    Leads env (.choice condition body branches :: rest) env' node
  | head {env condition body branches rest node} {b : BranchOf Stmt} : b ∈ branches →
    b.head = .condition node → Leads env (.choice condition body branches :: rest) env node
  | branch {env env' condition body branches rest node} {b : BranchOf Stmt} : b ∈ branches →
    Leads env b.body env' node → Leads env (.choice condition body branches :: rest) env' node
  | later {env env₁ env' stmt rest node} : Runs taints allowed env [stmt] env₁ →
    Leads env₁ rest env' node → Leads env (stmt :: rest) env' node

end

/-! ## Routines -/

/-- A function or the module: what is called. -/
structure Routine where
  owner : Owner
  params : List String
  route : Option Route
  body : List Stmt

/-- The names that are tainted when a routine starts. -/
def Routine.entry (r : Routine) : List String := if r.route.isSome then r.params else []

mutual

/-- The functions that a statement defines, however deep; `route` is how a function defined by
the statement itself is reached. -/
def Stmt.routines (symbols : Symbols) (o : Owner) (route : Option Route) : Stmt → List Routine
  | .choice _ body branches =>
    Stmt.routinesOfAll symbols o body ++ Stmt.routinesOfBranches symbols o branches
  | .whileLoop _ body branches =>
    Stmt.routinesOfAll symbols o body ++ Stmt.routinesOfBranches symbols o branches
  | .forLoop _ _ body branches =>
    Stmt.routinesOfAll symbols o body ++ Stmt.routinesOfBranches symbols o branches
  | .attempt body branches final =>
    Stmt.routinesOfAll symbols o body ++
      (Stmt.routinesOfBranches symbols o branches ++ Stmt.routinesOfAll symbols o final)
  | .withItems _ body => Stmt.routinesOfAll symbols o body
  | .cases _ branches => Stmt.routinesOfBranches symbols o branches
  | .functionDef start name params _ body =>
    ⟨o.inside name start, params, route, body⟩ ::
      Stmt.routinesOfAll symbols (o.inside name start) body
  | .classDef start name _ body => Stmt.routinesOfAll symbols (o.inside name start) body
  | .decorated decorators definition =>
    definition.routines symbols o (routeOf symbols decorators)
  | .values _ => []
  | .assign _ _ _ => []
  | .augmented _ _ _ => []
  | .imports _ => []

def Stmt.routinesOfAll (symbols : Symbols) (o : Owner) : List Stmt → List Routine
  | [] => []
  | stmt :: rest => stmt.routines symbols o none ++ Stmt.routinesOfAll symbols o rest

def Stmt.routinesOfBranches (symbols : Symbols) (o : Owner) : List (BranchOf Stmt) → List Routine
  | [] => []
  | ⟨_, body⟩ :: rest =>
    Stmt.routinesOfAll symbols o body ++ Stmt.routinesOfBranches symbols o rest

end

/-- The module and all functions of a program. -/
def Program.routines (symbols : Symbols) (p : Program) : List Routine :=
  ⟨p.owner, [], none, p.body⟩ :: Stmt.routinesOfAll symbols p.owner p.body

end XPathTaint.Python
