import XPathTaint.Command.Run

-- The program as it is run. The files that a request may look at are copied into a tree, the
-- request runs on the copy, and what it leaves behind is written out.

namespace XPathTaint.Snapshot

open Files

/-- No path has more names than this. -/
def maxDepth : Nat := 4096

/-- What a file holds that may not be read: a byte that is no text. -/
def unreadable : ByteArray := ⟨#[0xff]⟩

/-- What an action gives, unless it fails. -/
def attempt {α : Type} (act : IO α) : IO (Option α) := return (← act.toBaseIO).toOption

/-- Whether the content of a file below a directory may count. -/
def mayCount (name : String) : Bool :=
  Path.isPython name || Catalog.isCatalogName name || ignoreFiles.contains name

/-- The entry of a path of its own. -/
def entryOf (path : String) : IO.FS.DirEntry := ⟨".", path⟩

def content (e : IO.FS.DirEntry) : IO ByteArray :=
  return (← attempt (IO.FS.readBinFile e.path)).getD unreadable

/-- The type of an entry, or of what a link leads to. -/
def typeOf? (follow : Bool) (e : IO.FS.DirEntry) : IO (Option IO.FS.FileType) :=
  return (← attempt (if follow then e.path.metadata else e.path.symlinkMetadata)).map (·.type)

/-- A path without links, if it leads somewhere. -/
def realPath? (e : IO.FS.DirEntry) : IO (Option String) :=
  return (← attempt (IO.FS.realPath e.path)).map toString

/-- All that is at and below an entry. What is neither a file nor a directory is passed over
by every walk, so a link stands for it. -/
def below : Nat → IO.FS.DirEntry → IO Entry
  | 0, _ => return .emptyDir
  | depth + 1, e => do
    match ← typeOf? false e with
    | some .dir =>
      let children := (← attempt e.path.readDir).getD #[]
      return .dir (← children.toList.mapM fun c => return (c.fileName, ← below depth c))
    | some .file => return .file (← if mayCount e.fileName then content e else pure .empty)
    | _ => return .link ((← realPath? e).getD e.fileName)

/-- The tree with the directories and links on the way to a path. -/
def copyWay (t : Tree) (path : String) : IO Tree :=
  (Path.onTheWay path).foldlM (fun t p => do
    match ← typeOf? false (entryOf p) with
    | some .dir => return t.add p .emptyDir
    | some .symlink =>
      match ← realPath? (entryOf p) with
      | some target => return (t.addDirs target).add p (.link target)
      | none => return t
    | _ => return t) t

/-- The tree with what a path leads to. -/
def copy (t : Tree) (path : String) : IO Tree := do
  let t ← copyWay t path
  match ← realPath? (entryOf path) with
  | none => return t
  | some target =>
    let e := entryOf target
    let entry ← match ← typeOf? true e with
      | some .dir => below maxDepth e
      | some .file => Entry.file <$> content e
      | _ => pure (.file .empty)
    let names := (Path.pieces target).filter (· != "")
    return { t with root := entry.plant names t.root }

/-- The ignore files beside a scanned file. -/
def besides (t : Tree) (path : String) : List String :=
  match t.locate true path with
  | .found names (.file _) => ignoreFiles.map (Path.join (Tree.pathOf names.dropLast))
  | _ => []

/-- What the program finds around it, as far as its arguments need it. -/
def world (args : List String) : IO Command.World := do
  let here := toString (← IO.FS.realPath (← IO.currentDir))
  let env ← List.filterMapM (fun name =>
    return (← IO.getEnv name).map fun value => (name, value)) Environment.names
  let start : Tree := { root := .emptyDir, here := (Path.pieces here).filter (· != "") }
  let named := ((Command.Request.ofArgs? args).map (·.paths)).getD []
  let t ← named.foldlM copy (start.addDirs here)
  let t ← (named.flatMap (besides t) ++ [Scan.Preferences.filePath env]).foldlM copy t
  return { tree := t, env, isTerminal := ← (← IO.getStdout).isTty }

/-- Writes out what a run leaves behind, and gives the code with which it ends. -/
def leave (o : Command.Outcome) : IO UInt32 := do
  for (path, text) in o.written do
    IO.FS.writeFile path text
  IO.eprint o.errors
  IO.print o.output
  return o.code.toUInt32

end XPathTaint.Snapshot

open XPathTaint in
def main (args : List String) : IO UInt32 := do
  let world ← Snapshot.world args
  let before ← IO.monoMsNow
  match Command.start world args with
  | .ended o => Snapshot.leave o
  | .scanned opts s =>
    let after ← IO.monoMsNow
    Snapshot.leave (Command.finishScan world opts s (after - before))
