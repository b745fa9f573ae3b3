import XPathTaint.Event
import XPathTaint.Sink.Receiver

-- Which call sites evaluate XPath expressions, and which argument holds the expression.

namespace XPathTaint

/-- A call site that evaluates an XPath expression. -/
structure SinkMatch where
  kind : SinkKind
  /-- The argument that holds the expression. -/
  arg : Argument

/-- The argument that fills the slot of the expression: the only positional one, or else
the one with a keyword. What speaks against it is an event. -/
def designated (call : CallSite) (keyword : String) : Option Argument × List Event :=
  match call.args.filter fun a => a.keyword.isNone && a.splat != .dict with
  | [] => (call.keyword? keyword, [])
  | [only] => if only.splat = .none then (some only, []) else (none, [.splatInSlot call.place.line])
  | several => (none, [.unexpectedArity call.place.line several.length])

def isOption (keyword : String) : Bool := SinkKind.options.contains keyword

/-- The match of `XPath` or `ETXPath`, which take no other keywords than their own. -/
def closedSignature (call : CallSite) (kind : SinkKind) : Option SinkMatch × List Event :=
  let keywords := call.args.filterMap (·.keyword)
  match keywords.find? fun k => k != "path" && !isOption k with
  | some keyword => (none, [.unknownKeyword call.place.line keyword])
  | none =>
    let (arg, events) := designated call "path"
    let kind := if kind = .xpath && keywords.any isOption then .xpathWithOptions else kind
    (arg.map fun arg => ⟨kind, arg⟩, events)

/-- The match of a call whose function is a value: a document's `xpath`, or an
evaluator. -/
def openSignature (call : CallSite) (kind : SinkKind) : Option SinkMatch × List Event :=
  let (arg, events) := designated call "_path"
  (arg.map fun arg => ⟨kind, arg⟩, events)

/-- The match of a call site, if it is one, and the events on the way. -/
def sinkOf (facts : FileFacts) (reg : Registry) (maxHops : Nat) (call : CallSite) :
    Option SinkMatch × List Event :=
  match call.callee.bind reg.xmlMember? with
  | some member =>
    if member = "XPath" then closedSignature call .xpath
    else if member = "ETXPath" then closedSignature call .etXPath
    else (none, [])
  | none =>
    match call.func with
    | .member object attr _ =>
      if attr = "xpath" then
        if isDocument facts reg call.scope call.block maxHops object then
          openSignature call .treeXPath
        else (none, [.unknownReceiver call.place.line object.text])
      else (none, [])
    | func =>
      if isEvaluator facts reg call.scope call.block maxHops func then
        openSignature call .evaluatorCall
      else if call.callee.isNone then (none, [.unresolvableTarget call.place.line call.text])
      else (none, [])

end XPathTaint
