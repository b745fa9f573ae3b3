-- Expressions as the taint analysis sees them: names, literals, chains of attributes
-- and subscripts, calls, and one form for everything whose operands all flow into it.

namespace XPathTaint

/-! ## Where an expression stands -/

/-- A place in a file. Line and column start at 1; columns count bytes. -/
structure Place where
  file : String
  line : Nat
  column : Nat
  deriving Repr, DecidableEq, Inhabited

/-- What an expression looks like in its file: its text, the offset of its first byte
and its place. -/
structure Origin where
  text : String
  pos : Nat
  place : Place
  deriving Repr, DecidableEq, Inhabited

/-! ## Expressions -/

/-- Whether an argument stands for itself or for the items of a list or mapping. -/
inductive Splat where
  | none
  | list
  | dict
  deriving Repr, DecidableEq, Inhabited

/-- An argument of a call, over any kind of value. -/
structure ArgumentOf (α : Type) where
  keyword : Option String
  splat : Splat
  value : α

inductive Expr where
  | name (id : String) (origin : Origin)
  /-- A string, number, truth value or `None`; a string without its quotes. -/
  | literal (value : String) (origin : Origin)
  /-- `object.attr` -/
  | member (object : Expr) (attr : String) (origin : Origin)
  | subscript (value index : Expr) (origin : Origin)
  /-- A call; `callee` is the path that its dotted target stands for. -/
  | call (func : Expr) (callee : Option String) (args : List (ArgumentOf Expr)) (origin : Origin)
  /-- A value built from all its operands. -/
  | compound (operands : List Expr) (origin : Origin)
  /-- A value that nothing flows into. -/
  | unknown (origin : Origin)

abbrev Argument := ArgumentOf Expr

namespace Expr

instance : Inhabited Expr := ⟨.unknown default⟩

def origin : Expr → Origin
  | name _ o => o
  | literal _ o => o
  | member _ _ o => o
  | subscript _ _ o => o
  | call _ _ _ o => o
  | compound _ o => o
  | unknown o => o

def text (e : Expr) : String := e.origin.text

def pos (e : Expr) : Nat := e.origin.pos

def place (e : Expr) : Place := e.origin.place

/-- The path of a chain of attributes that starts at a name, such as `a.b.c`. -/
def dotted : Expr → Option String
  | name id _ => some id
  | member object attr _ => object.dotted.map fun base => base ++ "." ++ attr
  | _ => none

def asName? : Expr → Option String
  | name id _ => some id
  | _ => none

def isLiteral : Expr → Bool
  | literal _ _ => true
  | _ => false

end Expr

end XPathTaint
