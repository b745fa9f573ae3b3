import XPathTaint.Facts.Symbols
import XPathTaint.Python.Tree

-- The aliases that the imports of a program make, wherever in it they stand. A later
-- import of a name takes the place of an earlier one.

namespace XPathTaint.Python

/-! ## Clauses -/

/-- The path of a name in a module that may be given by dots alone. -/
def qualified (source name : String) : String :=
  let path := String.ofList (source.toList.dropWhile (· = '.'))
  if path.isEmpty then name else path ++ "." ++ name

/-- The local name that a clause makes an alias, and what it stands for. The plain import
of a module makes none: its name stands for itself. -/
def ImportClause.alias? : ImportClause → Option (String × String)
  | .module _ => none
  | .moduleAs path newName => some (newName, path)
  | .member source name => some (name, qualified source name)
  | .memberAs source name newName => some (newName, qualified source name)

/-- Symbols with one more alias; a name that stands for itself is none. -/
def addAlias (symbols : Symbols) (clause : ImportClause) : Symbols :=
  match clause.alias? with
  | none => symbols
  | some (name, path) => if name = path then symbols else symbols.insert name ⟨name, some path⟩

/-! ## Programs -/

mutual

/-- The import clauses in a statement, in the order of the text. -/
def importsOf : Stmt → List ImportClause
  | .imports clauses => clauses
  | .choice _ body branches => importsOfAll body ++ importsOfBranches branches
  | .whileLoop _ body branches => importsOfAll body ++ importsOfBranches branches
  | .forLoop _ _ body branches => importsOfAll body ++ importsOfBranches branches
  | .attempt body branches final =>
    importsOfAll body ++ importsOfBranches branches ++ importsOfAll final
  | .withItems _ body => importsOfAll body
  | .cases _ branches => importsOfBranches branches
  | .functionDef _ _ _ _ body => importsOfAll body
  | .classDef _ _ _ body => importsOfAll body
  | .decorated _ definition => importsOf definition
  | .values _ => []
  | .assign _ _ _ => []
  | .augmented _ _ _ => []

def importsOfAll : List Stmt → List ImportClause
  | [] => []
  | stmt :: rest => importsOf stmt ++ importsOfAll rest

def importsOfBranches : List (BranchOf Stmt) → List ImportClause
  | [] => []
  | ⟨_, body⟩ :: rest => importsOfAll body ++ importsOfBranches rest

end

/-- The aliases that statements make. -/
def symbolsOf (stmts : List Stmt) : Symbols := (importsOfAll stmts).foldl addAlias []

end XPathTaint.Python
