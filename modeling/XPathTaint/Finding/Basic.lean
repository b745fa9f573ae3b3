import XPathTaint.Digest.Blake3
import XPathTaint.Files.Path
import XPathTaint.Registry.Severity
import XPathTaint.Sink.Kind
import XPathTaint.Taint.Flow

-- Findings: untrusted input that reaches an XPath evaluation, with what is said about it,
-- and the entries by which a baseline knows them.

namespace XPathTaint

/-! ## Findings -/

/-- The name of the rule that all findings break. -/
def ruleId : String := "py.xpath-injection"

def remediationText : String :=
  "Do not build XPath expressions from request data. Use a constant expression with XPath " ++
    "variables, e.g. tree.xpath('//a[@id=$id]', id=value)."

structure Finding where
  id : String
  ruleId : String
  severity : Severity
  file : String
  /-- The place of the argument that holds the expression. -/
  line : Nat
  column : Nat
  /-- The line of the call. -/
  excerpt : String
  message : String
  remediation : Option String
  sink : SinkKind
  source : String
  /-- The function around the call. -/
  function : String
  trace : List TraceStep
  deriving Repr, DecidableEq, Inhabited

/-- The id of a finding: a digest of the rule and the place. -/
def findingId (file : String) (line column : Nat) : String :=
  Blake3.digestText
    (":".intercalate [ruleId, file, toString line, toString column])

/-! ## JSON -/

def TraceStep.toJson (t : TraceStep) : Json :=
  .object [("line", .nat t.line), ("column", .nat t.column), ("text", .string t.text)]

def TraceStep.ofJson? (j : Json) : Option TraceStep :=
  match j.fields? ["line", "column", "text"] 3 false with
  | some [line, column, text] => do
    some { line := ← Json.required Json.asNat? line, column := ← Json.required Json.asNat? column,
           text := ← Json.required Json.asString? text }
  | _ => none

namespace Finding

/-- An empty trace is left out. -/
def traceMember (trace : List TraceStep) : List (String × Json) :=
  if trace.isEmpty then [] else [("trace", .array (trace.map TraceStep.toJson))]

def toJson (f : Finding) : Json :=
  .object ([("id", .string f.id), ("rule_id", .string f.ruleId), ("severity", f.severity.toJson),
    ("file", .string f.file), ("line", .nat f.line), ("column", .nat f.column),
    ("excerpt", .string f.excerpt), ("message", .string f.message),
    ("remediation", Json.stringOrNull f.remediation), ("sink", f.sink.toJson),
    ("source", .string f.source), ("function", .string f.function)] ++ traceMember f.trace)

def fieldNames : List String :=
  ["id", "rule_id", "severity", "file", "line", "column", "excerpt", "message", "remediation",
    "sink", "source", "function", "trace"]

def ofJson? (j : Json) : Option Finding :=
  match j.fields? fieldNames 12 false with
  | some [id, ruleId, severity, file, line, column, excerpt, message, remediation, sink, source,
      function, trace] => do
    some { id := ← Json.required Json.asString? id
           ruleId := ← Json.required Json.asString? ruleId
           severity := ← Json.required Severity.ofJson? severity
           file := ← Json.required Json.asString? file
           line := ← Json.required Json.asNat? line
           column := ← Json.required Json.asNat? column
           excerpt := ← Json.required Json.asString? excerpt
           message := ← Json.required Json.asString? message
           remediation := ← Json.optional Json.asString? remediation
           sink := ← Json.required SinkKind.ofJson? sink
           source := ← Json.required Json.asString? source
           function := ← Json.required Json.asString? function
           trace := ← Json.withDefault [] (Json.asList? TraceStep.ofJson?) trace }
  | _ => none

end Finding

end XPathTaint
