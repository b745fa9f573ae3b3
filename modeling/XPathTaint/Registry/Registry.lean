import XPathTaint.Registry.Catalog
import XPathTaint.Sink.Kind

-- The signatures that the analysis knows: built-in ones, extended by catalogs. Entries
-- keep the order in which they came and none stands twice.

namespace XPathTaint

structure Registry where
  requestObjects : List String
  surfaces : List String
  xmlLibraries : List String
  sanitizers : List String
  severity : Severity
  deriving Repr, DecidableEq, Inhabited

namespace Registry

/-! ## Built-in signatures -/

/-- Members of a request object that hold its raw body. -/
def bodyMembers : List String := ["data", "json"]

/-- Methods of a request object that return its body. -/
def bodyMethods : List String := ["get_json", "get_data"]

/-- Functions of an XML library that return a document or an element. -/
def documentProducers : List String :=
  ["parse", "fromstring", "fromstringlist", "XML", "HTML", "ElementTree"]

/-- Functions of an XML library that return an evaluator. -/
def evaluatorFactories : List String :=
  ["XPathEvaluator", "XPathDocumentEvaluator", "XPathElementEvaluator"]

def builtin : Registry :=
  { requestObjects := ["flask.request", "request"]
    surfaces := ["args", "form", "values", "cookies", "headers", "files", "view_args"]
    xmlLibraries := ["lxml.etree", "etree"]
    sanitizers := ["int", "float", "bool"]
    severity := .high }

/-! ## Extension -/

def extend (r : Registry) (c : Catalog) : Registry :=
  { requestObjects := extendNew r.requestObjects c.requestObjects
    surfaces := extendNew r.surfaces c.surfaces
    xmlLibraries := extendNew r.xmlLibraries c.xmlLibraries
    sanitizers := extendNew r.sanitizers c.sanitizers
    severity := c.severity.getD r.severity }

def ofCatalog (c : Catalog) : Registry := builtin.extend c

/-! ## Questions -/

def isRequestObject (r : Registry) (path : String) : Bool := r.requestObjects.contains path

def isSurface (r : Registry) (name : String) : Bool := r.surfaces.contains name

/-- What a path holds behind a library and a dot, if it is a single segment. -/
def memberOf (path lib : List Char) : Option (List Char) :=
  if lib.isPrefixOf path then
    match path.drop lib.length with
    | '.' :: member => if member.isEmpty || member.contains '.' then none else some member
    | _ => none
  else none

/-- The member of a registered XML library that a path names. -/
def xmlMember? (r : Registry) (path : String) : Option String :=
  r.xmlLibraries.findSome? fun lib => (memberOf path.toList lib.toList).map String.ofList

/-- Whether a path is a name or ends in it behind a dot. -/
def endsInName (path name : List Char) : Bool :=
  path == name ||
    (name.isSuffixOf path && (path.take (path.length - name.length)).getLast? == some '.')

/-- Whether a callee is a registered sanitizer, perhaps of an imported module. -/
def isSanitizer (r : Registry) (callee : String) : Bool :=
  r.sanitizers.any fun s => endsInName callee.toList s.toList

/-! ## Description -/

/-- The sources of one request object. -/
def describeObject (r : Registry) (object : String) : List (String × String) :=
  let surfaces := object ++ ".<" ++ "|".intercalate r.surfaces ++ ">"
  let braced (names : List String) := object ++ ".\x7b" ++ ",".intercalate names ++ "\x7d"
  [("source", surfaces ++ ".<method>(...)"), ("source", surfaces ++ "[...]"),
    ("source", braced bodyMembers ++ " / " ++ braced bodyMethods ++ "()")]

/-- All signatures, one line each: its kind and its text. -/
def describe (r : Registry) : List (String × String) :=
  r.requestObjects.flatMap r.describeObject ++
    [("source", "parameters of route handlers")] ++
    r.xmlLibraries.flatMap (fun lib => SinkKind.all.map fun k => ("sink", k.signature lib)) ++
    r.sanitizers.map fun s => ("sanitizer", s ++ "(...)")

def toJson (r : Registry) : Json :=
  .object [("request_objects", .array (r.requestObjects.map .string)),
    ("surfaces", .array (r.surfaces.map .string)),
    ("xml_libraries", .array (r.xmlLibraries.map .string)),
    ("sanitizers", .array (r.sanitizers.map .string)), ("severity", r.severity.toJson)]

end Registry

end XPathTaint
