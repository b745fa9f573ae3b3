import XPathTaint.Event
import XPathTaint.Taint.Reaching
import XPathTaint.Taint.Source

-- How taint flows within a scope. A value is tainted when it is a source or is built from
-- a tainted value; names and paths are followed through the bindings that may reach them,
-- as far as the budget of hops allows. A call of a sanitizer stops the flow.

namespace XPathTaint

/-! ## Traces -/

/-- A stop on the way of a value. -/
structure TraceStep where
  line : Nat
  column : Nat
  text : String
  deriving Repr, DecidableEq, Inhabited

def TraceStep.at (text : String) (p : Place) : TraceStep := ⟨p.line, p.column, text⟩

/-- Where a tainted value comes from, and its way from there to the last binding. -/
structure Taint where
  source : SourceKind
  trace : List TraceStep
  deriving Repr, DecidableEq, Inhabited

/-- The state of a search: the budgets that bindings were entered with, and what the log
says so far. -/
structure Search where
  explored : Explored
  events : List Event

def Search.start : Search := ⟨[], []⟩

def Search.log (s : Search) (e : Event) : Search := { s with events := s.events ++ [e] }

/-- What a search found, and its state afterwards. -/
abbrev Found := Option Taint × Search

/-- The first result if something was found, else that of the rest of the search. -/
def Found.orElse (found : Found) (rest : Search → Found) : Found :=
  match found with
  | (some taint, s) => (some taint, s)
  | (none, s) => rest s

/-! ## Expressions -/

/-- How the value of a name or path is found, given where it is read. -/
abbrev ReadPath := String → Origin → Search → Found

mutual

/-- The taint of an expression. -/
def exprTaint (facts : FileFacts) (reg : Registry) (read : ReadPath) (e : Expr) (s : Search) :
    Found :=
  match sourceOf facts.symbols reg e with
  | some source => (some ⟨source, [.at e.text e.place]⟩, s)
  | none =>
    match e with
    | .name id o => read id o s
    | .literal _ _ => (none, s)
    | .unknown _ => (none, s)
    | .member object attr o =>
      let bound : Found := match (Expr.member object attr o).dotted with
        | some path => read path o s
        | none => (none, s)
      bound.orElse fun s => exprTaint facts reg read object s
    | .subscript value _ _ => exprTaint facts reg read value s
    | .call func callee args o =>
      match callee.filter reg.isSanitizer with
      | some sanitizer => (none, s.log (.sanitized o.place.line sanitizer))
      | none =>
        let receiver : Found := match func with
          | .member object _ _ => exprTaint facts reg read object s
          | _ => (none, s)
        receiver.orElse fun s => argumentsTaint facts reg read args s
    | .compound operands _ => operandsTaint facts reg read operands s

/-- The taint of the first tainted argument. -/
def argumentsTaint (facts : FileFacts) (reg : Registry) (read : ReadPath)
    (args : List (ArgumentOf Expr)) (s : Search) : Found :=
  match args with
  | [] => (none, s)
  | ⟨_, _, value⟩ :: rest =>
    (exprTaint facts reg read value s).orElse fun s => argumentsTaint facts reg read rest s

/-- The taint of the first tainted operand. -/
def operandsTaint (facts : FileFacts) (reg : Registry) (read : ReadPath) (operands : List Expr)
    (s : Search) : Found :=
  match operands with
  | [] => (none, s)
  | operand :: rest =>
    (exprTaint facts reg read operand s).orElse fun s => operandsTaint facts reg read rest s

end

/-! ## Names -/

/-- A parameter of a function that is reached from outside is untrusted. -/
def routeParam (facts : FileFacts) (scope : ScopeId) (name : String) : Option Taint :=
  match facts.scope? scope with
  | some f =>
    if f.isEntrypoint && f.params.contains name then
      some ⟨.routeParam f.name name, [.at ("def " ++ f.name ++ "(" ++ name ++ ", ...)") f.place]⟩
    else none
  | none => none

/-- The stop that a binding adds to a trace: its line, or the name if there is no text. -/
def bindingStep (facts : FileFacts) (name : String) (b : Binding) : TraceStep :=
  .at (((facts.lineText? b.place.line).map Text.trimBlanks).getD name) b.place

/-- Enters bindings in turn until one has a tainted value, except those that were entered
with as much budget before. -/
def enterBindings (facts : FileFacts) (name : String) (budget : Nat)
    (enter : Binding → Search → Found) : List Binding → Search → Found
  | [], s => (none, s)
  | b :: rest, s =>
    if s.explored.covers b.id budget then enterBindings facts name budget enter rest s
    else
      match enter b { s with explored := s.explored.enter b.id budget } with
      | (some taint, s) =>
        (some { taint with trace := taint.trace ++ [bindingStep facts name b] }, s)
      | (none, s) => enterBindings facts name budget enter rest s

/-- The taint of a name or path read in a scope and block, with a budget of bindings left
to enter. -/
def readPath (facts : FileFacts) (maxHops : Nat) (scope : ScopeId) (block : BlockPath)
    (budget : Nat) (enter : Binding → Search → Found) : ReadPath := fun name o s =>
  let (candidates, covered) := reachingWithCover facts name scope block o.pos
  if budget = 0 && !candidates.isEmpty then
    (none, s.log (.budgetExhausted name o.place.line maxHops))
  else
    (enterBindings facts name budget enter candidates s).orElse fun s =>
      if covered then (none, s) else (routeParam facts scope name, s)

/-! ## Scopes -/

/-- The taint of an expression in a scope and block with a budget left. The bindings that reach a
read are of its own scope, so the whole search stays there. -/
def taintWithin (facts : FileFacts) (reg : Registry) (maxHops : Nat) (scope : ScopeId) :
    (budget : Nat) → BlockPath → Expr → Search → Found
  | 0, block => exprTaint facts reg (readPath facts maxHops scope block 0 fun _ s => (none, s))
  | budget + 1, block =>
    exprTaint facts reg (readPath facts maxHops scope block (budget + 1) fun b =>
      taintWithin facts reg maxHops scope budget b.block b.value)

/-- The taint of an expression evaluated in a scope and block, and the events of the
search. -/
def taintOf (facts : FileFacts) (reg : Registry) (maxHops : Nat) (e : Expr) (scope : ScopeId)
    (block : BlockPath) : Option Taint × List Event :=
  let (taint, s) := taintWithin facts reg maxHops scope maxHops block e .start
  (taint, s.events)

end XPathTaint
