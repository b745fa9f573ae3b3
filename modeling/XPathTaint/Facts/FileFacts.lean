import XPathTaint.Digest.StableId
import XPathTaint.Facts.Expr
import XPathTaint.Facts.Symbols

-- What the analysis knows about one source unit: its scopes, the call sites and
-- bindings in them, its import aliases and its suppressed lines.

namespace XPathTaint

/-! ## Facts -/

/-- The position of a scope in the scopes of its unit. -/
abbrev ScopeId := Nat

def moduleScope : ScopeId := 0

/-- The numbers of the conditional blocks around a statement, outermost first. -/
abbrev BlockPath := List Nat

/-- One block path dominates another when it leads there: the blocks that it names are
all around the other place too. -/
def dominates (outer inner : BlockPath) : Bool := outer.isPrefixOf inner

/-- How a function is reached from outside: the decorator that says so, and the path
that it serves if the decorator writes one. -/
structure Route where
  decorator : String
  path : Option String
  deriving Repr, DecidableEq, Inhabited

structure Scope where
  id : ScopeId
  /-- The qualified name, `<module>` for the module. -/
  name : String
  params : List String
  route : Option Route
  parent : Option ScopeId
  place : Place
  deriving Repr, DecidableEq, Inhabited

/-- A function with a route is called with untrusted arguments. -/
def Scope.isEntrypoint (s : Scope) : Bool := s.route.isSome

structure CallSite where
  id : Nat
  callee : Option String
  func : Expr
  args : List Argument
  scope : ScopeId
  block : BlockPath
  pos : Nat
  place : Place
  text : String

namespace CallSite

/-- The arguments without keyword. -/
def positional (c : CallSite) : List Argument := c.args.filter (·.keyword.isNone)

/-- The first argument with this keyword. -/
def keyword? (c : CallSite) (keyword : String) : Option Argument :=
  c.args.find? (·.keyword == some keyword)

end CallSite

structure Binding where
  id : Nat
  name : String
  value : Expr
  scope : ScopeId
  block : BlockPath
  pos : Nat
  place : Place

/-! ## One source unit -/

structure FileFacts where
  path : String
  language : String
  source : Option String
  suppressed : List Nat
  scopes : List Scope
  calls : List CallSite
  bindings : List Binding
  symbols : Symbols
  /-- Set when only the well-formed parts of the source were read. -/
  isPartial : Bool

namespace FileFacts

def empty (path language : String) : FileFacts :=
  { path, language, source := none, suppressed := [], scopes := [], calls := [],
    bindings := [], symbols := [], isPartial := false }

/-- A call without number gets the one that its place and text give. -/
def numberCall (path : String) (c : CallSite) : CallSite :=
  if c.id = 0 then { c with id := stableId path c.place.line c.place.column ("call." ++ c.text) }
  else c

/-- A binding without number gets the one that its place and name give. -/
def numberBinding (path : String) (b : Binding) : Binding :=
  if b.id = 0 then { b with id := stableId path b.place.line b.place.column ("bind." ++ b.name) }
  else b

/-- Nothing but the number changes. -/
theorem numberBinding_eq (path : String) (b : Binding) :
    ∃ id, numberBinding path b = { b with id } := by
  unfold numberBinding
  split
  · exact ⟨_, rfl⟩
  · exact ⟨b.id, rfl⟩

def pushCall (f : FileFacts) (c : CallSite) : FileFacts :=
  { f with calls := f.calls ++ [numberCall f.path c] }

def pushBinding (f : FileFacts) (b : Binding) : FileFacts :=
  { f with bindings := f.bindings ++ [numberBinding f.path b] }

def pushScope (f : FileFacts) (s : Scope) : FileFacts :=
  { f with scopes := f.scopes ++ [s] }

def scope? (f : FileFacts) (id : ScopeId) : Option Scope := f.scopes[id]?

/-- The bindings of a name in a scope, in the order in which they were recorded. -/
def bindingsOf (f : FileFacts) (name : String) (scope : ScopeId) : List Binding :=
  f.bindings.filter fun b => b.scope == scope && b.name == name

/-- The text of a line, counted from 1. -/
def lineText? (f : FileFacts) (line : Nat) : Option String :=
  match f.source, line with
  | some source, n + 1 => (Text.lines source)[n]?
  | _, _ => none

end FileFacts

end XPathTaint
