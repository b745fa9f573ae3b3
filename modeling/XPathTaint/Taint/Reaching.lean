import XPathTaint.Facts.FileFacts

-- Which bindings of a name may have made the value that it has at a place.

namespace XPathTaint

/-- Bindings of a name in a scope, not behind a position, the last one first. Of bindings
at one position the one recorded first comes first. -/
def earlierBindings (facts : FileFacts) (name : String) (scope : ScopeId) (pos : Nat) :
    List Binding :=
  (facts.bindings.filter fun b => b.scope == scope && decide (b.pos ≤ pos) && b.name == name
    ).mergeSort fun a b => decide (b.pos ≤ a.pos)

/-- The bindings up to the first that dominates a block, and whether there is one. -/
def upToCover (block : BlockPath) : List Binding → List Binding × Bool
  | [] => ([], false)
  | b :: rest =>
    if dominates b.block block then ([b], true)
    else
      let (more, covered) := upToCover block rest
      (b :: more, covered)

/-- The bindings that may reach a use of a name, the last one first, and whether the last
of them is sure to be made before the use. -/
def reachingWithCover (facts : FileFacts) (name : String) (scope : ScopeId) (block : BlockPath)
    (pos : Nat) : List Binding × Bool :=
  upToCover block (earlierBindings facts name scope pos)

def reachingBindings (facts : FileFacts) (name : String) (scope : ScopeId) (block : BlockPath)
    (pos : Nat) : List Binding :=
  (reachingWithCover facts name scope block pos).1

/-! ## Budgets -/

/-- The budgets that bindings were entered with, by their ids; the last one counts. -/
abbrev Explored := List (Nat × Nat)

namespace Explored

def budget? (seen : Explored) (id : Nat) : Option Nat :=
  (seen.find? fun e => e.1 == id).map (·.2)

def enter (seen : Explored) (id budget : Nat) : Explored := (id, budget) :: seen

/-- Whether a binding was entered with at least this budget. -/
def covers (seen : Explored) (id budget : Nat) : Bool :=
  match seen.budget? id with
  | some before => decide (budget ≤ before)
  | none => false

end Explored

end XPathTaint
