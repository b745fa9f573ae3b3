import XPathTaint.Files.Path

-- Trees of files, as a program finds them: a root directory and the directory in which it
-- works. Paths lead through directories and links to what they name.

namespace XPathTaint.Files

/-! ## Entries -/

inductive Entry where
  | file (content : ByteArray)
  | dir (children : List (String × Entry))
  | link (target : String)
  deriving Inhabited

namespace Entry

def emptyDir : Entry := .dir []

/-- The child of a name in a list of children. -/
def find? (children : List (String × Entry)) (name : String) : Option Entry :=
  (children.find? fun c => c.1 == name).map (·.2)

/-- What names lead to from an entry; links are not followed. -/
def at? (e : Entry) : List String → Option Entry
  | [] => some e
  | name :: names =>
    match e with
    | .dir children => (find? children name).bind fun child => child.at? names
    | _ => none

/-- The children with one set anew. -/
def setChild (children : List (String × Entry)) (name : String) (child : Entry) :
    List (String × Entry) :=
  children.filter (fun c => c.1 != name) ++ [(name, child)]

/-- An entry put at the end of names; directories on the way are made. -/
def plant (new : Entry) : List String → Entry → Entry
  | [], _ => new
  | name :: names, .dir children =>
    .dir (setChild children name (plant new names ((find? children name).getD emptyDir)))
  | name :: names, _ => .dir [(name, plant new names emptyDir)]

end Entry

/-! ## Trees and locations -/

structure Tree where
  root : Entry
  /-- The names that lead to the directory in which the program works. -/
  here : List String
  deriving Inhabited

/-- What a path leads to: the names of an entry, the place where one could be made, or
nothing. -/
inductive Location where
  | found (names : List String) (entry : Entry)
  | vacant (parent : List String) (name : String)
  | nowhere
  deriving Inhabited

/-- How many links one path may lead through. -/
def maxLinks : Nat := 40

namespace Tree

/-- Goes from the entry at `names` along the pieces of a path. A link at the very end is
followed only if `follow` is set. -/
def locateFrom (root : Entry) (follow : Bool) (links : Nat) (names pieces : List String) :
    Location :=
  match pieces with
  | [] =>
    match root.at? names with
    | some entry => .found names entry
    | none => .nowhere
  | piece :: rest =>
    match root.at? names with
    | some (.dir children) =>
      if piece.isEmpty || piece == "." then locateFrom root follow links names rest
      else if piece == ".." then locateFrom root follow links names.dropLast rest
      else
        match Entry.find? children piece, links with
        | none, _ => if rest.isEmpty then .vacant names piece else .nowhere
        | some (.link target), left =>
          if rest.isEmpty && !follow then .found (names ++ [piece]) (.link target)
          else
            match left with
            | 0 => .nowhere
            | left + 1 =>
              locateFrom root follow left (if Path.isAbsolute target then [] else names)
                (Path.pieces target ++ rest)
        | some _, links => locateFrom root follow links (names ++ [piece]) rest
    | _ => .nowhere
termination_by (links, pieces.length)

/-- What a path leads to; the empty path leads nowhere. -/
def locate (t : Tree) (follow : Bool) (path : String) : Location :=
  if path.isEmpty then .nowhere
  else
    locateFrom t.root follow maxLinks (if Path.isAbsolute path then [] else t.here)
      (Path.pieces path)

/-! ## Questions -/

/-- What a path leads to, if there is something. -/
def get? (t : Tree) (path : String) : Option Entry :=
  match t.locate true path with
  | .found _ entry => some entry
  | _ => none

def exists? (t : Tree) (path : String) : Bool := (t.get? path).isSome

def isDir (t : Tree) (path : String) : Bool :=
  match t.get? path with
  | some (.dir _) => true
  | _ => false

/-- The size in bytes of the file that a path leads to. -/
def fileSize? (t : Tree) (path : String) : Option Nat :=
  match t.get? path with
  | some (.file content) => some content.size
  | _ => none

/-- The text of the file that a path leads to, if its bytes are text. -/
def readText? (t : Tree) (path : String) : Option String :=
  match t.get? path with
  | some (.file content) => String.fromUTF8? content
  | _ => none

/-- The path of names from the root. -/
def pathOf (names : List String) : String := "/" ++ "/".intercalate names

/-- The path from the root, without links and dots, of what a path leads to. -/
def canonical? (t : Tree) (path : String) : Option String :=
  match t.locate true path with
  | .found names _ => some (pathOf names)
  | _ => none

/-- The canonical path where there is one, else the path as it is. -/
def resolve (t : Tree) (path : String) : String := (t.canonical? path).getD path

/-! ## Changes -/

/-- The tree with a file written at a path; `none` where no file can be. -/
def write? (t : Tree) (path : String) (content : ByteArray) : Option Tree :=
  match t.locate true path with
  | .found names (.file _) => some { t with root := (Entry.file content).plant names t.root }
  | .vacant parent name =>
    some { t with root := (Entry.file content).plant (parent ++ [name]) t.root }
  | _ => none

/-- The tree with an entry at a path where there is nothing yet. -/
def add (t : Tree) (path : String) (entry : Entry) : Tree :=
  match t.locate false path with
  | .vacant parent name => { t with root := entry.plant (parent ++ [name]) t.root }
  | _ => t

/-- The tree with a directory at a path and at the paths on the way. -/
def addDirs (t : Tree) (path : String) : Tree :=
  (Path.onTheWay path).foldl (fun t p => t.add p .emptyDir) t

end Tree

end XPathTaint.Files
