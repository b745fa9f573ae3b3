import XPathTaint.Facts.Expr
import XPathTaint.Python.Cursor

-- Syntax trees of programs, as far as values, names and blocks matter: types, patterns
-- of cases and the statements that do nothing with values leave no trace.

namespace XPathTaint.Python

/-! ## Expressions -/

/-- How the parts of a group belong together: whether it can be unpacked part by part, and
whether all of them are evaluated. -/
inductive GroupForm where
  | sequence
  /-- `and`, `or` and `assert`, which may stop behind their first part. -/
  | shortCircuit
  /-- `value if condition else other` -/
  | conditional
  | other
  deriving Repr, DecidableEq, Inhabited

/-- A part of a comprehension behind its body. -/
inductive ClauseOf (α : Type) where
  /-- `for target in sources`; one source as a rule. -/
  | loop (target : α) (sources : List α)
  /-- `if condition` -/
  | guard (condition : α)

inductive Node where
  | name (span : Span)
  /-- A number, `True`, `False`, `None` or `...`. -/
  | constant (span : Span)
  /-- A string with the values put into it, and the values in the formats of those. -/
  | string (span : Span) (values formats : List Node)
  /-- Strings written one behind the other. -/
  | strings (span : Span) (parts : List Node)
  | member (span : Span) (object : Node) (attr : String)
  | subscript (span : Span) (value : Node) (indices : List Node)
  | call (span : Span) (func : Node) (args : List (ArgumentOf Node))
  /-- A value in parentheses; `lead` is a comment behind the opening one. -/
  | paren (span : Span) (lead : Option Span) (inner : Node)
  /-- `*inner`; `lead` is a comment behind the star. -/
  | starred (span : Span) (lead : Option Span) (inner : Node)
  /-- A value behind a comment that takes its place. -/
  | hidden (comment : Span) (inner : Node)
  /-- `target := value` -/
  | walrus (span : Span) (target : Span) (value : Node)
  /-- `value as target` -/
  | aliased (span : Span) (value : Node) (targetSpan : Span) (target : Node)
  | lambda (span : Span) (params : List String) (defaults : List Node) (body : Node)
  | comprehension (span : Span) (body : Node) (clauses : List (ClauseOf Node))
  /-- A comparison or a negation: a truth value that holds none of its parts. -/
  | test (span : Span) (parts : List Node)
  /-- A value made of its parts. -/
  | group (span : Span) (form : GroupForm) (parts : List Node)

namespace Node

instance : Inhabited Node := ⟨.name default⟩

def span : Node → Span
  | name s => s
  | constant s => s
  | string s _ _ => s
  | strings s _ => s
  | member s _ _ => s
  | subscript s _ _ => s
  | call s _ _ => s
  | paren s _ _ => s
  | starred s _ _ => s
  | hidden s _ => s
  | walrus s _ _ => s
  | aliased s _ _ _ => s
  | lambda s _ _ _ => s
  | comprehension s _ _ => s
  | test s _ => s
  | group s _ _ => s

/-- Whether a node can be unpacked part by part. -/
def isSequence : Node → Bool
  | group _ .sequence _ => true
  | _ => false

end Node

/-! ## Statements -/

/-- What stands before the body of a branch. -/
inductive Head where
  /-- Nothing is evaluated: `else`, or the pattern of a case without condition. -/
  | plain
  /-- `elif condition` -/
  | condition (value : Node)
  /-- `except kind as target`, or the older `except kind, target`; what follows those is
  `others`. -/
  | handler (kind target : Option Node) (others : List Node)
  /-- The condition of a case. -/
  | guard (value : Node)

/-- A body that runs under its head. -/
structure BranchOf (β : Type) where
  head : Head
  body : List β

/-- One name that an import brings in. A module is written as it stands in the text, with
the dots before it if it is given relative to its own place. -/
inductive ImportClause where
  /-- `import path` -/
  | module (path : String)
  /-- `import path as newName` -/
  | moduleAs (path newName : String)
  /-- `from module import name` -/
  | member (module name : String)
  /-- `from module import name as newName` -/
  | memberAs (module name newName : String)
  deriving Repr, DecidableEq, Inhabited

inductive Stmt where
  /-- Values evaluated one behind the other. -/
  | values (parts : List Node)
  /-- `target = … = value` with the byte behind it; a mere annotation has no value. -/
  | assign (stop : Nat) (targets : List Node) (value : Option Node)
  | augmented (span : Span) (target value : Node)
  /-- The names that an `import` binds. -/
  | imports (clauses : List ImportClause)
  | choice (condition : Node) (body : List Stmt) (branches : List (BranchOf Stmt))
  | whileLoop (condition : Node) (body : List Stmt) (branches : List (BranchOf Stmt))
  | forLoop (target source : Node) (body : List Stmt) (branches : List (BranchOf Stmt))
  | attempt (body : List Stmt) (branches : List (BranchOf Stmt)) (final : List Stmt)
  /-- `with`, whose items may be bound by `as`. -/
  | withItems (items : List Node) (body : List Stmt)
  | cases (subjects : List Node) (branches : List (BranchOf Stmt))
  | functionDef (span : Span) (name : String) (params : List String) (defaults : List Node)
      (body : List Stmt)
  | classDef (span : Span) (name : String) (bases : List (ArgumentOf Node)) (body : List Stmt)
  | decorated (decorators : List Node) (definition : Stmt)

abbrev Branch := BranchOf Stmt

instance : Inhabited Stmt := ⟨.values []⟩

/-- What was read of a program: its statements, where it starts, and whether some of it
could not be read. -/
structure Program where
  start : Span
  body : List Stmt
  isPartial : Bool

end XPathTaint.Python
