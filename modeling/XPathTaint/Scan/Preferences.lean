import XPathTaint.Environment
import XPathTaint.Files.Tree
import XPathTaint.Registry.CatalogFile
import XPathTaint.Registry.Registry
import XPathTaint.Tool
import XPathTaint.Toml.Reader

-- The preferences of a user: a TOML file in the home directory with settings of the
-- analysis and a catalog.

namespace XPathTaint.Scan

structure Preferences where
  maxHops : Option Nat
  suppressComment : Option String
  catalog : Catalog
  deriving Repr, DecidableEq, Inhabited

namespace Preferences

def none : Preferences := ⟨.none, .none, .empty⟩

/-! ## Values -/

def asNat? : Toml.Value → Option Nat
  | .int n => if 0 ≤ n then some n.toNat else .none
  | _ => .none

def asText? : Toml.Value → Option String
  | .string s => some s
  | _ => .none

def asTexts? : Toml.Value → Option (List String)
  | .array items => items.mapM asText?
  | _ => .none

/-- The severity of an exact name, given as a text or as the key of an empty table. -/
def asSeverity? : Toml.Value → Option Severity
  | .string name => Severity.all.find? fun s => s.written == name
  | .table [(name, .table [])] => Severity.all.find? fun s => s.written == name
  | _ => .none

/-- The fields of a closed record: a table, or an array in their order with at least
`least` items, of which those behind the last field do not count. -/
def fields? (names : List String) (least : Nat) : Toml.Value → Option (List (Option Toml.Value))
  | .table members => Record.ofMembers? names true members
  | .array items => Record.ofItems? names least (items.take names.length)
  | _ => .none

def catalogOf? (v : Toml.Value) : Option Catalog :=
  (fields? Catalog.fieldNames 0 v).bind
    (Catalog.ofFields? asTexts? fun v => (asSeverity? v).map some)

/-- The settings of the analysis: how many bindings are followed, and the marker of
comments that silence findings. -/
def analysisOf? (v : Toml.Value) : Option (Option Nat × Option String) := do
  match ← fields? ["max_hops", "suppress_comment"] 2 v with
  | [maxHops, comment] =>
    some (← Record.withDefault .none (fun v => (asNat? v).map some) maxHops,
      ← Record.withDefault .none (fun v => (asText? v).map some) comment)
  | _ => .none

/-- The preferences in the members of a file's table; members it does not know are passed
over. -/
def ofMembers? (members : List (String × Toml.Value)) : Option Preferences := do
  match ← Record.ofMembers? ["analysis", "catalog"] false members with
  | [analysis, catalog] =>
    let (maxHops, suppressComment) ← Record.withDefault (.none, .none) analysisOf? analysis
    some { maxHops, suppressComment, catalog := ← Record.withDefault .empty catalogOf? catalog }
  | _ => .none

/-! ## The file -/

/-- Why the file gives no preferences. -/
inductive Fault where
  | unreadable
  | malformed
  | invalid (entry : Catalog.InvalidEntry)
  deriving Repr, DecidableEq, Inhabited

/-- What went wrong, from the outside to the inside. -/
def Fault.chain (path : String) : Fault → List String
  | unreadable => ["failed to read " ++ path]
  | malformed => ["failed to parse config " ++ path]
  | invalid entry => ["invalid [catalog] in " ++ path, entry.message]

/-- The preferences of a file's text, whose catalog must hold well-formed entries only. -/
def ofText (text : String) : Except Fault Preferences :=
  match (Toml.read? text).bind ofMembers? with
  | .none => .error .malformed
  | some found =>
    match found.catalog.validate with
    | .ok _ => .ok found
    | .error entry => .error (.invalid entry)

/-- The path of the file, below the home directory or, without one, where the program
works. -/
def filePath (env : Environment) : String :=
  [".config", Tool.name, "config.toml"].foldl Path.join ((env.get? "HOME").getD ".")

/-- The preferences of the user; without a file there are none. -/
def load (t : Files.Tree) (env : Environment) : Except Fault Preferences :=
  let path := filePath env
  if t.exists? path then
    match t.readText? path with
    | some text => ofText text
    | .none => .error .unreadable
  else .ok none

/-! ## JSON and the registry -/

def toJson (p : Preferences) : Json :=
  .object [("analysis", .object [("max_hops", (p.maxHops.map Json.nat).getD .null),
      ("suppress_comment", Json.stringOrNull p.suppressComment)]),
    ("catalog", p.catalog.toJson)]

/-- The built-in registry, extended by the catalog of the preferences and then by one at a
path. -/
def registry (t : Files.Tree) (p : Preferences) (catalog : Option String)
    (bytes : String → ByteArray := String.toUTF8) : Except Catalog.LoadFault Registry := do
  let own := Catalog.empty.merge p.catalog
  match catalog with
  | .none => .ok (.ofCatalog own)
  | some path => .ok (.ofCatalog (own.merge (← Catalog.load t path bytes)))

end Preferences

end XPathTaint.Scan
