import XPathTaint.Text.Lines

-- Import aliases: what a local name stands for, followed to the end of its chain, and
-- the path that a dotted name has once its first segment is resolved.

namespace XPathTaint

/-- A local name that an import made, and what it stands for. -/
structure Symbol where
  name : String
  target : Option String
  deriving Repr, DecidableEq, Inhabited

/-- Symbols by local name; each name stands at most once. -/
abbrev Symbols := List (String × Symbol)

namespace Symbols

def get? (symbols : Symbols) (name : String) : Option Symbol :=
  (symbols.find? fun entry => entry.1 == name).map (·.2)

/-- A name set anew takes the place of the old one. -/
def insert (symbols : Symbols) (name : String) (symbol : Symbol) : Symbols :=
  symbols.filter (fun entry => entry.1 != name) ++ [(name, symbol)]

/-- What a name directly stands for. -/
def target? (symbols : Symbols) (name : String) : Option String :=
  (symbols.get? name).bind (·.target)

/-! ## Chains -/

/-- Follows targets from `current`, past the names in `visited`, and stops at a name
without target or at the first name met again. -/
def follow (symbols : Symbols) : (fuel : Nat) → (visited : List String) → String → String
  | 0, _, current => current
  | fuel + 1, visited, current =>
    match symbols.target? current with
    | none => current
    | some next =>
      if visited.contains next then next else symbols.follow fuel (next :: visited) next

/-- What an undotted name stands for at the end of its chain. Each step uses up one
symbol, so their number and one more bounds the steps. -/
def resolve (symbols : Symbols) (name : String) : String :=
  symbols.follow (symbols.length + 1) [name] name

/-- A dotted path with its first segment resolved. -/
def canonical (symbols : Symbols) (path : String) : String :=
  match Text.segments path with
  | [] => path
  | head :: tail => ".".intercalate (symbols.resolve head :: tail)

end Symbols

end XPathTaint
