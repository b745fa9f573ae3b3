import XPathTaint.Registry.Registry
import XPathTaint.Taint.Reaching

-- Whether a value is a document or an evaluator of a registered library: it is made by a
-- call that returns one, perhaps under names that bindings of the same scope gave it.

namespace XPathTaint

/-! ## Calls -/

/-- Whether a callee is one of some members of a registered library. -/
def isLibraryMember (reg : Registry) (members : List String) (callee : Option String) : Bool :=
  match callee.bind reg.xmlMember? with
  | some member => members.contains member
  | none => false

/-- How a receiver that is no call is found, and the budgets used so far. -/
abbrev Resolve := Expr → Explored → Bool × Explored

/-- Whether a value is a document; `getroot()` of one counts too. -/
def isDocumentBy (reg : Registry) (resolve : Resolve) : Resolve
  | .call func callee _ _, seen =>
    if isLibraryMember reg Registry.documentProducers callee then (true, seen)
    else
      match func with
      | .member object attr _ =>
        if attr == "getroot" then isDocumentBy reg resolve object seen else (false, seen)
      | _ => (false, seen)
  | e, seen => resolve e seen

/-- Whether a value is an evaluator. -/
def isEvaluatorBy (reg : Registry) (resolve : Resolve) : Resolve
  | .call _ callee _ _, seen => (isLibraryMember reg Registry.evaluatorFactories callee, seen)
  | e, seen => resolve e seen

/-! ## Bindings -/

/-- Checks bindings in turn until one holds, except those that were checked with as much
budget before. -/
def anyBinding (budget : Nat) (check : Binding → Explored → Bool × Explored) :
    List Binding → Explored → Bool × Explored
  | [], seen => (false, seen)
  | b :: rest, seen =>
    if seen.covers b.id budget then anyBinding budget check rest seen
    else
      match check b (seen.enter b.id budget) with
      | (true, seen) => (true, seen)
      | (false, seen) => anyBinding budget check rest seen

/-- Checks the bindings that may reach a name or path. -/
def throughBindings (facts : FileFacts) (scope : ScopeId) (block : BlockPath) (budget : Nat)
    (check : Binding → Explored → Bool × Explored) : Resolve := fun e seen =>
  match e.dotted with
  | none => (false, seen)
  | some path => anyBinding budget check (reachingBindings facts path scope block e.pos) seen

/-- What a value is, by a test that resolves names through bindings while the budget
lasts. -/
def resolveWithin (facts : FileFacts) (scope : ScopeId) (test : Resolve → Resolve) :
    (budget : Nat) → BlockPath → Resolve
  | 0, _ => test fun _ seen => (false, seen)
  | budget + 1, block => test (throughBindings facts scope block (budget + 1) fun b =>
      resolveWithin facts scope test budget b.block b.value)

def isDocument (facts : FileFacts) (reg : Registry) (scope : ScopeId) (block : BlockPath)
    (maxHops : Nat) (e : Expr) : Bool :=
  (resolveWithin facts scope (isDocumentBy reg) maxHops block e []).1

def isEvaluator (facts : FileFacts) (reg : Registry) (scope : ScopeId) (block : BlockPath)
    (maxHops : Nat) (e : Expr) : Bool :=
  (resolveWithin facts scope (isEvaluatorBy reg) maxHops block e []).1

end XPathTaint
