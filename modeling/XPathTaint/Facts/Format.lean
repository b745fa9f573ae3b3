import XPathTaint.Facts.FileFacts
import XPathTaint.Json.Record

-- The JSON form of facts. What the writer writes, the reader reads back; the reader also
-- takes records written as arrays and passes over members that it does not know.

namespace XPathTaint

open Json

/-! ## Writing -/

def Place.toJson (p : Place) : Json :=
  .object [("file", .string p.file), ("line", .nat p.line), ("column", .nat p.column)]

def Splat.choices : List (String × Splat) := [("none", .none), ("list", .list), ("dict", .dict)]

def Splat.written : Splat → String
  | .none => "none"
  | .list => "list"
  | .dict => "dict"

/-- The members that every expression ends with. -/
def Origin.members (o : Origin) : List (String × Json) :=
  [("text", .string o.text), ("pos", .nat o.pos), ("meta", o.place.toJson)]

/-- The member of a keyword; an argument without keyword has none. -/
def keywordMember : Option String → List (String × Json)
  | some keyword => [("keyword", .string keyword)]
  | none => []

mutual

def Expr.toJson : Expr → Json
  | .name id o => .object ([("type", .string "name"), ("id", .string id)] ++ o.members)
  | .literal value o =>
    .object ([("type", .string "literal"), ("value", .string value)] ++ o.members)
  | .member target attr o =>
    .object ([("type", .string "attribute"), ("object", target.toJson), ("attr", .string attr)] ++
      o.members)
  | .subscript value index o =>
    .object ([("type", .string "subscript"), ("value", value.toJson), ("index", index.toJson)] ++
      o.members)
  | .call func callee args o =>
    .object ([("type", .string "call"), ("func", func.toJson), ("callee", stringOrNull callee),
      ("args", .array (argumentsToJson args))] ++ o.members)
  | .compound operands o =>
    .object ([("type", .string "compound"), ("operands", .array (exprsToJson operands))] ++
      o.members)
  | .unknown o => .object (("type", .string "opaque") :: o.members)

def argumentToJson : ArgumentOf Expr → Json
  | ⟨keyword, splat, value⟩ =>
    .object (keywordMember keyword ++ [("splat", .string splat.written), ("value", value.toJson)])

def argumentsToJson : List (ArgumentOf Expr) → List Json
  | [] => []
  | a :: rest => argumentToJson a :: argumentsToJson rest

def exprsToJson : List Expr → List Json
  | [] => []
  | e :: rest => e.toJson :: exprsToJson rest

end

def natsToJson (ns : List Nat) : Json := .array (ns.map .nat)

def Route.toJson (r : Route) : Json :=
  .object [("decorator", .string r.decorator), ("path", stringOrNull r.path)]

def Scope.toJson (s : Scope) : Json :=
  .object [("id", .nat s.id), ("name", .string s.name), ("params", .array (s.params.map .string)),
    ("route", (s.route.map Route.toJson).getD .null), ("parent", (s.parent.map .nat).getD .null),
    ("meta", s.place.toJson)]

def CallSite.toJson (c : CallSite) : Json :=
  .object [("id", .nat c.id), ("callee", stringOrNull c.callee), ("func", c.func.toJson),
    ("args", .array (argumentsToJson c.args)), ("scope", .nat c.scope),
    ("block", natsToJson c.block), ("pos", .nat c.pos), ("meta", c.place.toJson),
    ("text", .string c.text)]

def Binding.toJson (b : Binding) : Json :=
  .object [("id", .nat b.id), ("name", .string b.name), ("value", b.value.toJson),
    ("scope", .nat b.scope), ("block", natsToJson b.block), ("pos", .nat b.pos),
    ("meta", b.place.toJson)]

def Symbol.toJson (s : Symbol) : Json :=
  .object [("name", .string s.name), ("alias_of", stringOrNull s.target)]

def FileFacts.toJson (f : FileFacts) : Json :=
  .object [("file_path", .string f.path), ("file_type", .string f.language),
    ("source", stringOrNull f.source), ("suppressed", natsToJson f.suppressed),
    ("scopes", .array (f.scopes.map Scope.toJson)), ("calls", .array (f.calls.map CallSite.toJson)),
    ("bindings", .array (f.bindings.map Binding.toJson)),
    ("symbols", .object (f.symbols.map fun s => (s.1, s.2.toJson))), ("partial", .bool f.isPartial)]

/-! ## Reading -/

def Place.ofJson? (j : Json) : Option Place :=
  match fields? ["file", "line", "column"] 3 false j with
  | some [file, line, column] => do
    some { file := ← required asString? file, line := ← required asNat? line,
           column := ← required asNat? column }
  | _ => none

/-- The kinds of expression by name, in the order of their numbers. -/
def Expr.kindNames : List String :=
  ["name", "literal", "attribute", "subscript", "call", "compound", "opaque"]

/-- The name of a kind that is given by name or by number. -/
def Expr.kindName? : Json → Option String
  | .string kind => some kind
  | j => (asNat? j).bind fun n => Expr.kindNames[n]?

mutual

/-- An expression nested no deeper than `depth`. -/
def Expr.ofJsonWithin : (depth : Nat) → Json → Option Expr
  | depth + 1, .object members => do
    let field (key : String) := Record.uniqueField members key
    let o : Origin := { text := ← required asString? (← field "text"),
                        pos := ← required asNat? (← field "pos"),
                        place := ← required Place.ofJson? (← field "meta") }
    let inner (key : String) : Option Expr := do
      required (Expr.ofJsonWithin depth) (← field key)
    match ← required Expr.kindName? (← field "type") with
    | "name" => some (.name (← required asString? (← field "id")) o)
    | "literal" => some (.literal (← required asString? (← field "value")) o)
    | "attribute" => some (.member (← inner "object") (← required asString? (← field "attr")) o)
    | "subscript" => some (.subscript (← inner "value") (← inner "index") o)
    | "call" =>
      some (.call (← inner "func") (← optional asString? (← field "callee"))
        (← required (asList? (argumentOfJsonWithin depth)) (← field "args")) o)
    | "compound" =>
      some (.compound (← required (asList? (Expr.ofJsonWithin depth)) (← field "operands")) o)
    | "opaque" => some (.unknown o)
    | _ => none
  | _, _ => none

/-- An argument whose value is nested no deeper than `depth`. -/
def argumentOfJsonWithin : (depth : Nat) → Json → Option Argument
  | depth + 1, j =>
    match fields? ["keyword", "splat", "value"] 3 false j with
    | some [keyword, splat, value] => do
      some { keyword := ← optional asString? keyword,
             splat := ← withDefault .none (asChoice? Splat.choices) splat,
             value := ← required (Expr.ofJsonWithin depth) value }
    | _ => none
  | 0, _ => none

end

mutual

/-- How deep a value nests. -/
def Json.depth : Json → Nat
  | .array items => depthOfItems items + 1
  | .object members => depthOfMembers members + 1
  | _ => 1

def Json.depthOfItems : List Json → Nat
  | [] => 0
  | j :: rest => max j.depth (depthOfItems rest)

def Json.depthOfMembers : List (String × Json) → Nat
  | [] => 0
  | (_, j) :: rest => max j.depth (depthOfMembers rest)

end

def Expr.ofJson? (j : Json) : Option Expr := Expr.ofJsonWithin j.depth j

def argumentOfJson? (j : Json) : Option Argument := argumentOfJsonWithin j.depth j

def Route.ofJson? (j : Json) : Option Route :=
  match fields? ["decorator", "path"] 2 false j with
  | some [decorator, path] => do
    some { decorator := ← required asString? decorator, path := ← optional asString? path }
  | _ => none

def Scope.ofJson? (j : Json) : Option Scope :=
  match fields? ["id", "name", "params", "route", "parent", "meta"] 6 false j with
  | some [id, name, params, route, parent, place] => do
    some { id := ← required asNat? id, name := ← required asString? name,
           params := ← withDefault [] (asList? asString?) params,
           route := ← optional Route.ofJson? route, parent := ← optional asNat? parent,
           place := ← required Place.ofJson? place }
  | _ => none

def CallSite.ofJson? (j : Json) : Option CallSite :=
  match fields? ["id", "callee", "func", "args", "scope", "block", "pos", "meta", "text"] 9 false j
  with
  | some [id, callee, func, args, scope, block, pos, place, text] => do
    some { id := ← required asNat? id, callee := ← optional asString? callee,
           func := ← required Expr.ofJson? func, args := ← required (asList? argumentOfJson?) args,
           scope := ← required asNat? scope, block := ← withDefault [] (asList? asNat?) block,
           pos := ← required asNat? pos, place := ← required Place.ofJson? place,
           text := ← required asString? text }
  | _ => none

def Binding.ofJson? (j : Json) : Option Binding :=
  match fields? ["id", "name", "value", "scope", "block", "pos", "meta"] 7 false j with
  | some [id, name, value, scope, block, pos, place] => do
    some { id := ← required asNat? id, name := ← required asString? name,
           value := ← required Expr.ofJson? value, scope := ← required asNat? scope,
           block := ← withDefault [] (asList? asNat?) block, pos := ← required asNat? pos,
           place := ← required Place.ofJson? place }
  | _ => none

def Symbol.ofJson? (j : Json) : Option Symbol :=
  match fields? ["name", "alias_of"] 1 false j with
  | some [name, target] => do
    some { name := ← required asString? name, target := ← optional asString? target }
  | _ => none

/-- Symbols by local name; of two with one name the later counts. -/
def Symbols.ofJson? : Json → Option Symbols
  | .object members => do
    let entries ← members.mapM fun m => (Symbol.ofJson? m.2).map fun s => (m.1, s)
    some (entries.foldl (fun table e => Symbols.insert table e.1 e.2) [])
  | _ => none

def FileFacts.ofJson? (j : Json) : Option FileFacts :=
  match fields? ["file_path", "file_type", "source", "suppressed", "scopes", "calls", "bindings",
      "symbols", "partial"] 3 false j with
  | some [path, language, source, suppressed, scopes, calls, bindings, symbols, isPartial] => do
    some { path := ← required asString? path, language := ← required asString? language,
           source := ← optional asString? source,
           suppressed := (← withDefault [] (asList? asNat?) suppressed).eraseDups,
           scopes := ← withDefault [] (asList? Scope.ofJson?) scopes,
           calls := ← withDefault [] (asList? CallSite.ofJson?) calls,
           bindings := ← withDefault [] (asList? Binding.ofJson?) bindings,
           symbols := ← withDefault [] Symbols.ofJson? symbols,
           isPartial := ← withDefault false asBool? isPartial }
  | _ => none

end XPathTaint
