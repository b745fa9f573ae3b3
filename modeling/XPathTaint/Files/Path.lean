import XPathTaint.Text.LowerCase
import XPathTaint.Text.Lines

-- Paths as texts, and what counts of them: their components. Doubled and final slashes and
-- inner dots do not count; a dot at the start does.

namespace XPathTaint.Path

/-! ## Components -/

inductive Component where
  | root
  | here
  | parent
  | name (s : String)
  deriving Repr, DecidableEq, Inhabited

/-- The components in pieces between slashes; a dot counts only where `first` is set. -/
def componentsOf (first : Bool) : List String → List Component
  | [] => []
  | piece :: rest =>
    if piece.isEmpty then componentsOf first rest
    else if piece = "." then
      if first then .here :: componentsOf false rest else componentsOf false rest
    else if piece = ".." then .parent :: componentsOf false rest
    else .name piece :: componentsOf false rest

def pieces (path : String) : List String := (Text.splitAtChar '/' path.toList).map String.ofList

def isAbsolute (path : String) : Bool := path.toList.head? == some '/'

def components (path : String) : List Component :=
  if isAbsolute path then .root :: componentsOf false (pieces path)
  else componentsOf true (pieces path)

/-- Whether two paths have the same components. -/
def same (a b : String) : Bool := components a == components b

/-! ## Order -/

def Component.rank : Component → Nat
  | root => 0
  | here => 1
  | parent => 2
  | name _ => 3

/-- Names come last, among themselves in the order of their texts. -/
def Component.compare : Component → Component → Ordering
  | name a, name b => Ord.compare a b
  | a, b => Ord.compare a.rank b.rank

/-- Component by component; a path comes before those that go on from it. -/
def compareComponents : List Component → List Component → Ordering
  | [], [] => .eq
  | [], _ :: _ => .lt
  | _ :: _, [] => .gt
  | a :: as, b :: bs => (a.compare b).then (compareComponents as bs)

def compare (a b : String) : Ordering := compareComponents (components a) (components b)

/-! ## Parts -/

/-- The last component, if it is a name. -/
def fileName? (path : String) : Option String :=
  match (components path).getLast? with
  | some (.name s) => some s
  | _ => none

/-- What stands behind the last dot of a file's name, unless nothing else stands before
it. -/
def extension? (path : String) : Option String :=
  match fileName? path with
  | none => none
  | some file =>
    match (Text.segments file).reverse with
    | last :: before =>
      if before.isEmpty || before == [""] then none else some last
    | [] => none

/-- A path behind another; an absolute one stands alone. -/
def join (base path : String) : String :=
  if isAbsolute path || base.isEmpty then path
  else if base.toList.getLast? == some '/' then base ++ path
  else base ++ "/" ++ path

/-- The paths on the way to a path, itself at the end. -/
def onTheWay (path : String) : List String :=
  (List.range (pieces path).length).map fun n => "/".intercalate ((pieces path).take (n + 1))

/-- Whether a path ends in the components of another. -/
def endsIn (path last : String) : Bool := (components last).isSuffixOf (components path)

/-! ## Types of files -/

/-- Files of Python programs, by their extension in any case. -/
def isPython (path : String) : Bool :=
  match extension? path with
  | some ext => ["py", "pyw"].contains (Text.toLower ext)
  | none => false

end XPathTaint.Path
