import XPathTaint.Json.Record

-- The shapes of calls that evaluate XPath expressions.

namespace XPathTaint

inductive SinkKind where
  /-- `document.xpath(query)` -/
  | treeXPath
  /-- `XPath(query)` -/
  | xpath
  /-- `XPath(query, smart_strings=False)` and other options. -/
  | xpathWithOptions
  /-- `ETXPath(query)` -/
  | etXPath
  /-- `XPathEvaluator(document)(query)` -/
  | evaluatorCall
  deriving Repr, DecidableEq, Inhabited

namespace SinkKind

def all : List SinkKind := [treeXPath, xpath, xpathWithOptions, etXPath, evaluatorCall]

/-- Keywords that `XPath` and `ETXPath` take besides the expression. -/
def options : List String := ["smart_strings", "namespaces", "extensions", "regexp"]

/-- The name in data. -/
def key : SinkKind → String
  | treeXPath => "tree_xpath"
  | xpath => "xpath"
  | xpathWithOptions => "xpath_with_options"
  | etXPath => "etxpath"
  | evaluatorCall => "evaluator_call"

/-- The name for readers. -/
def written : SinkKind → String
  | treeXPath => "document xpath()"
  | xpath => "XPath()"
  | xpathWithOptions => "XPath() with options"
  | etXPath => "ETXPath()"
  | evaluatorCall => "XPath evaluator call"

/-- How a call of this shape is written with a library. -/
def signature (kind : SinkKind) (lib : String) : String :=
  match kind with
  | treeXPath => lib ++ ".parse(<doc>).xpath(<query>)"
  | xpath => lib ++ ".XPath(<query>)"
  | xpathWithOptions => lib ++ ".XPath(<query>, " ++ "|".intercalate options ++ "=...)"
  | etXPath => lib ++ ".ETXPath(<query>)"
  | evaluatorCall => lib ++ ".XPathEvaluator(<doc>)(<query>)"

def toJson (kind : SinkKind) : Json := .string kind.key

def ofJson? (j : Json) : Option SinkKind := j.asChoice? (all.map fun k => (k.key, k))

end SinkKind

end XPathTaint
