import XPathTaint.Python.Imports
import XPathTaint.Python.Lowering
import XPathTaint.Python.Statement

-- The facts of a source text, with the lines that a comment silences.

namespace XPathTaint

/-! ## Silenced lines -/

/-- Whether a line has the marker behind its first number sign. -/
def isMarked (marker line : String) : Bool :=
  match line.toList.dropWhile (· ≠ '#') with
  | [] => false
  | comment => Text.occursIn marker.toList comment

/-- The numbers of the marked lines and of the lines behind them, where the first of the
lines has number `n`. -/
def silencedFrom (marker : String) (n : Nat) : List String → List Nat
  | [] => []
  | line :: rest =>
    if isMarked marker line then n :: (n + 1) :: silencedFrom marker (n + 1) rest
    else silencedFrom marker (n + 1) rest

/-- The lines of a text that a marker silences: its own and the next. Without marker no
line is silenced. -/
def silencedLines (text : String) : Option String → List Nat
  | none => []
  | some marker => (silencedFrom marker 1 (Text.lines text)).eraseDups

/-! ## Facts -/

/-- The facts of a program that stands in a text, and the events on the way to them. -/
def FileFacts.ofProgram (path text : String) (marker : Option String) (program : Python.Program) :
    FileFacts × List Event :=
  let symbols := Python.symbolsOf program.body
  let found := Python.lowerProgram path symbols program
  let facts : FileFacts :=
    { path, language := "python", source := some text, suppressed := silencedLines text marker,
      scopes := found.scopes, calls := found.calls, bindings := found.bindings, symbols,
      isPartial := program.isPartial }
  let warning := if program.isPartial then [Event.parseErrors path] else []
  let tagged := (Python.routesOfAll symbols program.body).map fun r =>
    Event.routeTagged r.decorator r.path
  let done :=
    Event.lowered path found.scopes.length found.calls.length found.bindings.length
  (facts, warning ++ tagged ++ found.events ++ [done])

/-- The facts of a source text that `parse` makes a program of, and the events on the way to
them. -/
def FileFacts.ofSource (path text : String) (marker : Option String)
    (parse : String → Python.Program := Python.Program.read) : FileFacts × List Event :=
  FileFacts.ofProgram path text marker (parse text)

end XPathTaint
