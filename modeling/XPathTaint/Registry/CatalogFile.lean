import XPathTaint.Files.Walk
import XPathTaint.Registry.Catalog
import XPathTaint.Yaml.Value

-- Catalog files. A file is a YAML document with the fields of a catalog, or with them
-- under one key; a path stands for all catalog files at and below it, merged in the order
-- in which a walk finds them.

namespace XPathTaint

/-! ## Documents -/

/-- A value without its tags. -/
def Yaml.Value.untagged : Yaml.Value → Yaml.Value
  | .tagged _ v => v.untagged
  | v => v

/-- The names and values of members, if all keys are texts. -/
def Yaml.Value.namedMembers? (members : List (Yaml.Value × Yaml.Value)) :
    Option (List (String × Yaml.Value)) :=
  members.mapM fun m =>
    match m.1.untagged with
    | .string name => some (name, m.2)
    | _ => none

/-- The value of a member by its name. -/
def Yaml.Value.get? (v : Yaml.Value) (name : String) : Option Yaml.Value :=
  match v.untagged with
  | .mapping members => (members.find? fun m => m.1.same (.string name)).map (·.2)
  | _ => none

/-- A list of texts, or nothing for an empty one. -/
def Yaml.Value.asTexts? (v : Yaml.Value) : Option (List String) :=
  match v.untagged with
  | .null => some []
  | .sequence items => items.mapM fun item =>
    match item.untagged with
    | .string s => some s
    | _ => none
  | _ => none

/-- The severity of an exact name, given as a text or as the tag of nothing. -/
def Severity.ofYaml? : Yaml.Value → Option Severity
  | .string name => Severity.all.find? fun s => s.written == name
  | .tagged name .null => Severity.all.find? fun s => s.written == name
  | _ => none

namespace Catalog

/-- The catalog of a value; nothing is the empty catalog. -/
def ofYaml? (v : Yaml.Value) : Option Catalog :=
  let severity (v : Yaml.Value) : Option (Option Severity) :=
    match v with
    | .null => some none
    | v => (Severity.ofYaml? v).map some
  let read (fields : Option (List (Option Yaml.Value))) : Option Catalog :=
    fields.bind (ofFields? Yaml.Value.asTexts? severity)
  match v.untagged with
  | .null => some empty
  | .sequence items => read (Record.ofItems? fieldNames 0 items)
  | .mapping members =>
    read ((Yaml.Value.namedMembers? members).bind (Record.ofMembers? fieldNames true))
  | _ => none

/-! ## Files -/

/-- Why a catalog file gives no catalog. -/
inductive FileFault where
  | unreadable
  | malformed
  | invalid (entry : InvalidEntry)
  deriving Repr, DecidableEq, Inhabited

/-- The catalog of a file's text. -/
def ofText (text : String) : Except FileFault Catalog :=
  match Yaml.Value.ofText? text with
  | none => .error .malformed
  | some doc =>
    match doc.untagged with
    | .null => .ok empty
    | _ =>
      match ofYaml? ((doc.get? "catalog").getD doc) with
      | none => .error .malformed
      | some catalog =>
        match catalog.validate with
        | .ok _ => .ok catalog
        | .error entry => .error (.invalid entry)

/-- Whether files of a name are catalogs. -/
def isCatalogName (name : String) : Bool :=
  [".yaml", ".yml", ".json"].any fun ending => ending.toList.isSuffixOf name.toList

/-- The name of a file, given the bytes that names in paths stand for: those on a disk need not
be text. -/
def nameText? (bytes : String → ByteArray) (path : String) : Option String :=
  (Path.fileName? path).bind fun name => String.fromUTF8? (bytes name)

/-- Whether a file is a catalog, by its name. -/
def isCatalogFile (bytes : String → ByteArray) (path : String) : Bool :=
  isCatalogName ((nameText? bytes path).getD "")

/-! ## Loading -/

/-- Why no catalog could be loaded: nothing is at the path, or a file has a fault. -/
inductive LoadFault where
  | missing
  | file (path : String) (fault : FileFault)
  deriving Repr, DecidableEq, Inhabited

/-- What went wrong, from the outside to the inside. -/
def LoadFault.chain (path : String) : LoadFault → List String
  | missing => ["Failed to load catalog: " ++ path]
  | file f fault => ("Failed to load catalog: " ++ path) :: match fault with
    | .unreadable => ["Failed to read catalog file: " ++ f]
    | .malformed => ["Failed to parse catalog file: " ++ f]
    | .invalid entry => ["Invalid catalog file: " ++ f, entry.message]

/-- The catalog with that of one more file, if the file is a catalog. -/
def addFile (t : Files.Tree) (bytes : String → ByteArray) (catalog : Catalog) (path : String) :
    Except LoadFault Catalog :=
  if isCatalogFile bytes path then
    match t.readText? path with
    | none => .error (.file path .unreadable)
    | some text =>
      match ofText text with
      | .ok found => .ok (catalog.merge found)
      | .error fault => .error (.file path fault)
  else .ok catalog

/-- Entries of this name are passed over. -/
def isHidden (bytes : String → ByteArray) (path : String) : Bool :=
  nameText? bytes path == some ".git"

/-- All catalog files at and below a path, merged. -/
def load (t : Files.Tree) (path : String) (bytes : String → ByteArray := String.toUTF8) :
    Except LoadFault Catalog :=
  t.foldFilesM path (isHidden bytes) (.error .missing) (addFile t bytes) empty

end Catalog

end XPathTaint
