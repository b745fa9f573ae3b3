import XPathTaint.Facts.FileFacts
import XPathTaint.Registry.Registry

-- Which expressions read untrusted input from a request.

namespace XPathTaint

inductive SourceKind where
  /-- A collection of request input, however it is read. -/
  | requestInput (object surface : String)
  /-- The body of a request. -/
  | requestBody (object accessor : String)
  /-- A parameter of a function that is reached from outside. -/
  | routeParam (function name : String)
  deriving Repr, DecidableEq, Inhabited

namespace SourceKind

/-- The name for readers. -/
def written : SourceKind → String
  | requestInput object surface => object ++ "." ++ surface
  | requestBody object accessor => object ++ "." ++ accessor
  | routeParam function name => "parameter '" ++ name ++ "' of route handler " ++ function

def toJson : SourceKind → Json
  | requestInput object surface =>
    .object [("kind", .string "request_input"), ("object", .string object),
      ("surface", .string surface)]
  | requestBody object accessor =>
    .object [("kind", .string "request_body"), ("object", .string object),
      ("accessor", .string accessor)]
  | routeParam function name =>
    .object [("kind", .string "route_param"), ("function", .string function),
      ("name", .string name)]

end SourceKind

/-! ## Recognition -/

/-- A path without its last segment, and that segment; nothing if it has no dot. -/
def splitLast (path : String) : Option (String × String) :=
  match (Text.segments path).reverse with
  | last :: rest@(_ :: _) => some (".".intercalate rest.reverse, last)
  | _ => none

/-- The request object and the member of it that a path names. -/
def requestMember (reg : Registry) (path : String) : Option (String × String) :=
  match splitLast path with
  | some (object, member) => if reg.isRequestObject object then some (object, member) else none
  | none => none

def inputCollection (reg : Registry) (path : String) : Option SourceKind :=
  match requestMember reg path with
  | some (object, surface) =>
    if reg.isSurface surface then some (.requestInput object surface) else none
  | none => none

/-- The path that a chain of members stands for. -/
def canonicalOf (symbols : Symbols) (e : Expr) : Option String := e.dotted.map symbols.canonical

/-- What an expression reads from a request, if it does: a collection of input, any item
or method of one, or the body. -/
def sourceOf (symbols : Symbols) (reg : Registry) (e : Expr) : Option SourceKind :=
  match e with
  | .call func callee _ _ =>
    match callee with
    | none => none
    | some path =>
      let body := match requestMember reg path with
        | some (object, method) =>
          if Registry.bodyMethods.contains method then
            some (SourceKind.requestBody object (method ++ "()"))
          else none
        | none => none
      match body, func with
      | some source, _ => some source
      | none, .member object _ _ => (canonicalOf symbols object).bind (inputCollection reg)
      | none, _ => none
  | .subscript value _ _ => (canonicalOf symbols value).bind (inputCollection reg)
  | .member _ _ _ =>
    match canonicalOf symbols e with
    | none => none
    | some path =>
      match inputCollection reg path with
      | some source => some source
      | none =>
        match requestMember reg path with
        | some (object, attr) =>
          if Registry.bodyMembers.contains attr then some (.requestBody object attr) else none
        | none => none
  | _ => none

end XPathTaint
