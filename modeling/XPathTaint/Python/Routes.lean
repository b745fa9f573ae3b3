import XPathTaint.Facts.FileFacts
import XPathTaint.Python.Tree

-- Which functions are reached from outside. A decorator such as `@app.route("/x")` says
-- so by the last segment of its name.

namespace XPathTaint.Python

/-! ## Literals -/

/-- The text inside a string literal: without the letters before it and without the
quotes, if it has the same at both ends. -/
def unquoted (raw : String) : String :=
  let body := raw.toList.dropWhile Char.isAlpha
  let quotes := ["\"\"\"".toList, "'''".toList, ['\"'], ['\'']]
  match quotes.find? fun q =>
      decide (2 * q.length ≤ body.length) && q.isPrefixOf body && q.isSuffixOf body with
  | some q => String.ofList ((body.drop q.length).take (body.length - 2 * q.length))
  | none => String.ofList body

/-! ## Decorators -/

/-- The last segments of the decorators that make a function reachable. -/
def routeWords : List String :=
  ["route", "get", "post", "put", "patch", "delete", "api_route", "websocket"]

/-- The value that stands first in the arguments of a call ending at `stop`, as far as it
can write a path. A generator without parentheses of its own, which ends where the call
does, has its body there. -/
def firstValue (stop : Nat) : List (ArgumentOf Node) → Option Node
  | ⟨none, .none, value⟩ :: _ =>
    match value with
    | .comprehension span body _ => if span.stop = stop then some body else none
    | value => some value
  | _ => none

/-- The path that the arguments of a decorator write. -/
def routePath (stop : Nat) (args : List (ArgumentOf Node)) : Option String :=
  match firstValue stop args with
  | some (.string span _ _) => some (unquoted span.text)
  | _ => none

/-- Whether a callee can name a decorator: a name or a member. -/
def namesDecorator : Node → Bool
  | .name _ => true
  | .member _ _ _ => true
  | _ => false

/-- The route that a decorator tags its function with. -/
def routeOfDecorator (symbols : Symbols) : Node → Option Route
  | .call span func args =>
    let raw := func.span.text
    if namesDecorator func && routeWords.contains ((Text.segments raw).getLast?.getD raw) then
      some { decorator := symbols.canonical raw, path := routePath span.stop args }
    else none
  | _ => none

/-- The route of a decorated definition: that of the first decorator which tags one. -/
def routeOf (symbols : Symbols) (decorators : List Node) : Option Route :=
  decorators.findSome? (routeOfDecorator symbols)

/-! ## Programs -/

mutual

/-- The routes that decorators tag in a statement, outer definitions first. -/
def routesOf (symbols : Symbols) : Stmt → List Route
  | .decorated decorators definition =>
    (routeOf symbols decorators).toList ++ routesOf symbols definition
  | .choice _ body branches => routesOfAll symbols body ++ routesOfBranches symbols branches
  | .whileLoop _ body branches => routesOfAll symbols body ++ routesOfBranches symbols branches
  | .forLoop _ _ body branches => routesOfAll symbols body ++ routesOfBranches symbols branches
  | .attempt body branches final =>
    routesOfAll symbols body ++ routesOfBranches symbols branches ++ routesOfAll symbols final
  | .withItems _ body => routesOfAll symbols body
  | .cases _ branches => routesOfBranches symbols branches
  | .functionDef _ _ _ _ body => routesOfAll symbols body
  | .classDef _ _ _ body => routesOfAll symbols body
  | .imports _ => []
  | .values _ => []
  | .assign _ _ _ => []
  | .augmented _ _ _ => []

def routesOfAll (symbols : Symbols) : List Stmt → List Route
  | [] => []
  | stmt :: rest => routesOf symbols stmt ++ routesOfAll symbols rest

def routesOfBranches (symbols : Symbols) : List (BranchOf Stmt) → List Route
  | [] => []
  | ⟨_, body⟩ :: rest => routesOfAll symbols body ++ routesOfBranches symbols rest

end

end XPathTaint.Python
