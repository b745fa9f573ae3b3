import XPathTaint.Registry.Severity
import XPathTaint.Text.Lines

-- Catalogs: what a user adds to the built-in signatures. Catalogs merge without repeating
-- entries, and each entry must be a name or a path of names.

namespace XPathTaint

/-! ## Lists without repetition -/

/-- Adds an item at the end unless it is there. -/
def addNew (items : List String) (item : String) : List String :=
  if items.contains item then items else items ++ [item]

/-- Adds items in their order, each unless it is there. -/
def extendNew (items added : List String) : List String := added.foldl addNew items

theorem mem_addNew {items : List String} {item x : String} :
    x ∈ addNew items item ↔ x ∈ items ∨ x = item := by
  unfold addNew
  split
  · rename_i h
    rw [List.contains_iff_mem] at h
    constructor
    · exact Or.inl
    · rintro (hx | rfl)
      · exact hx
      · exact h
  · simp

theorem mem_extendNew {items added : List String} {x : String} :
    x ∈ extendNew items added ↔ x ∈ items ∨ x ∈ added := by
  unfold extendNew
  induction added generalizing items with
  | nil => simp
  | cons item rest ih => rw [List.foldl_cons, ih, mem_addNew, List.mem_cons, or_assoc]

/-! ## Catalogs -/

structure Catalog where
  /-- Paths of objects that hold request input. -/
  requestObjects : List String
  /-- Members of those objects that hold input. -/
  surfaces : List String
  /-- Modules with the XPath functions. -/
  xmlLibraries : List String
  /-- Functions whose result is never tainted. -/
  sanitizers : List String
  /-- The severity of findings, if it is to change. -/
  severity : Option Severity
  deriving Repr, DecidableEq, Inhabited

namespace Catalog

def empty : Catalog := ⟨[], [], [], [], none⟩

/-- The entries of both without repetition; a severity of the second counts. -/
def merge (a b : Catalog) : Catalog :=
  { requestObjects := extendNew a.requestObjects b.requestObjects
    surfaces := extendNew a.surfaces b.surfaces
    xmlLibraries := extendNew a.xmlLibraries b.xmlLibraries
    sanitizers := extendNew a.sanitizers b.sanitizers
    severity := b.severity.or a.severity }

def isEmpty (c : Catalog) : Bool :=
  c.requestObjects.isEmpty && c.surfaces.isEmpty && c.xmlLibraries.isEmpty &&
    c.sanitizers.isEmpty && c.severity.isNone

/-! ## Names -/

/-- The regular expression that surfaces must match. -/
def nameRegex : String := "^[A-Za-z_][A-Za-z0-9_]*$"

/-- The regular expression that all other entries must match. -/
def dottedNameRegex : String := "^[A-Za-z_][A-Za-z0-9_]*(\\.[A-Za-z_][A-Za-z0-9_]*)*$"

def isNameStart (c : Char) : Bool := c.isAlpha || c == '_'

def isNamePart (c : Char) : Bool := c.isAlphanum || c == '_'

/-- A name of ASCII letters, digits and underscores that starts with no digit. -/
def isPlainName : List Char → Bool
  | [] => false
  | c :: rest => isNameStart c && rest.all isNamePart

/-- Names with dots between them. -/
def isDottedName (s : String) : Bool := (Text.splitAtChar '.' s.toList).all isPlainName

/-- An entry that is no name where one must stand. -/
structure InvalidEntry where
  entry : String
  field : String
  deriving Repr, DecidableEq, Inhabited

def InvalidEntry.message (e : InvalidEntry) : String :=
  "invalid catalog entry '" ++ e.entry ++ "' in " ++ e.field

/-- The first entry of a field that is not well formed. -/
def checkField (field : String) (isValid : String → Bool) (entries : List String) :
    Except InvalidEntry Unit :=
  match entries.find? fun e => !isValid e with
  | some entry => .error ⟨entry, field⟩
  | none => .ok ()

/-- Accepts a catalog with well-formed entries only, given how names and paths of them are
told: surfaces are single names. -/
def validateBy (isPath isName : String → Bool) (c : Catalog) : Except InvalidEntry Unit := do
  checkField "request_objects" isPath c.requestObjects
  checkField "surfaces" isName c.surfaces
  checkField "xml_libraries" isPath c.xmlLibraries
  checkField "sanitizers" isPath c.sanitizers

def validate : Catalog → Except InvalidEntry Unit :=
  validateBy isDottedName fun s => isPlainName s.toList

/-! ## JSON -/

def toJson (c : Catalog) : Json :=
  .object [("request_objects", .array (c.requestObjects.map .string)),
    ("surfaces", .array (c.surfaces.map .string)),
    ("xml_libraries", .array (c.xmlLibraries.map .string)),
    ("sanitizers", .array (c.sanitizers.map .string)),
    ("severity", (c.severity.map Severity.toJson).getD .null)]

def fieldNames : List String :=
  ["request_objects", "surfaces", "xml_libraries", "sanitizers", "severity"]

/-- The catalog of its fields' values, given how a list and a severity are read. -/
def ofFields? {α : Type} (list : α → Option (List String)) (severity : α → Option (Option Severity))
    (fields : List (Option α)) : Option Catalog :=
  match fields with
  | [requestObjects, surfaces, xmlLibraries, sanitizers, grade] => do
    some { requestObjects := ← Record.withDefault [] list requestObjects
           surfaces := ← Record.withDefault [] list surfaces
           xmlLibraries := ← Record.withDefault [] list xmlLibraries
           sanitizers := ← Record.withDefault [] list sanitizers
           severity := ← Record.withDefault none severity grade }
  | _ => none

/-- Reads a catalog; other fields are refused. -/
def ofJson? (j : Json) : Option Catalog :=
  (j.fields? fieldNames 0 true).bind
    (ofFields? (Json.asList? Json.asString?) (Json.asOption? Severity.ofJson?))

end Catalog

end XPathTaint
