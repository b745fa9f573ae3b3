import XPathTaint.Text.Quoted

-- What is written to the log while files are read and analysed, and how one line of it
-- looks: the level, the message, then fields in a fixed order.

namespace XPathTaint

inductive Event where
  | parseErrors (file : String)
  | routeTagged (decorator : String) (path : Option String)
  | functionEntered (function : String) (scope : Nat) (routed : Bool)
  | targetNotDotted (line : Nat) (call : String)
  | lowered (file : String) (scopes calls bindings : Nat)
  | splatInSlot (line : Nat)
  | unexpectedArity (line arity : Nat)
  | unknownKeyword (line : Nat) (keyword : String)
  | unknownReceiver (line : Nat) (receiver : String)
  | unresolvableTarget (line : Nat) (call : String)
  | sinkMatched (file : String) (line : Nat) (sink : String)
  | notTainted (file : String) (line : Nat)
  | sanitized (line : Nat) (sanitizer : String)
  | budgetExhausted (name : String) (line maxHops : Nat)
  deriving Repr, DecidableEq, Inhabited

inductive LogLevel where
  | warn
  | debug
  deriving Repr, DecidableEq, Inhabited

namespace Event

def level : Event → LogLevel
  | parseErrors _ => .warn
  | _ => .debug

def levelName : LogLevel → String
  | .warn => "WARN"
  | .debug => "DEBUG"

/-- A text that may be missing. -/
def optionalText : Option String → String
  | some s => "Some(" ++ Text.quoted s ++ ")"
  | none => "None"

def truth (b : Bool) : String := if b then "true" else "false"

/-- The message, and the fields with the texts of their values. -/
def parts : Event → String × List (String × String)
  | parseErrors file => ("python source contains parse errors", [("file", file)])
  | routeTagged decorator path =>
    ("Route handler tagged", [("decorator", decorator), ("path", optionalText path)])
  | functionEntered function scope routed =>
    ("Entering function",
      [("function", function), ("scope", toString scope), ("routed", truth routed)])
  | targetNotDotted line call =>
    ("Call target is not a dotted name", [("line", toString line), ("call", call)])
  | lowered file scopes calls bindings =>
    ("Lowered python source", [("file", file), ("scopes", toString scopes),
      ("calls", toString calls), ("bindings", toString bindings)])
  | splatInSlot line => ("Splat in XPath expression slot", [("line", toString line)])
  | unexpectedArity line arity =>
    ("Unexpected XPath arity", [("line", toString line), ("arity", toString arity)])
  | unknownKeyword line keyword =>
    ("Unknown XPath keyword", [("line", toString line), ("keyword", Text.quoted keyword)])
  | unknownReceiver line receiver =>
    ("xpath() receiver is not a known document",
      [("line", toString line), ("receiver", receiver)])
  | unresolvableTarget line call =>
    ("Unresolvable call target", [("line", toString line), ("call", call)])
  | sinkMatched file line sink =>
    ("Sink matched", [("file", file), ("line", toString line), ("sink", sink)])
  | notTainted file line =>
    ("XPath argument is not tainted", [("file", file), ("line", toString line)])
  | sanitized line sanitizer =>
    ("Taint stopped by sanitizer",
      [("line", toString line), ("sanitizer", Text.quoted sanitizer)])
  | budgetExhausted name line maxHops =>
    ("Hop budget exhausted", [("name", Text.quoted name), ("line", toString line),
      ("max_hops", toString maxHops)])

/-- One line of the log. -/
def written (e : Event) : String :=
  let (message, fields) := e.parts
  " ".intercalate (levelName e.level :: message :: fields.map fun f => f.1 ++ "=" ++ f.2)

end Event

end XPathTaint
