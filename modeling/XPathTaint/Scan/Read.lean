import XPathTaint.Files.Tree
import XPathTaint.Finding.Analysis
import XPathTaint.Python.Source

-- Reads the source files of a tree and counts them: how many were read, and how many not
-- or only in part. Files of other types are passed over and not counted.

namespace XPathTaint.Scan

/-- What came of reading a file. -/
inductive ReadResult where
  | otherType
  | unreadable
  /-- The facts of the file and the events on the way to them. -/
  | facts (f : FileFacts) (events : List Event)
  deriving Inhabited

def ReadResult.facts? : ReadResult → Option FileFacts
  | facts f _ => some f
  | _ => none

def ReadResult.events : ReadResult → List Event
  | facts _ events => events
  | _ => []

/-- The facts of the file at a path, under its canonical path. -/
def readUnit (t : Files.Tree) (marker : Option String) (path : String)
    (parse : String → Python.Program := Python.Program.read) : ReadResult :=
  if Path.isPython path then
    match t.readText? path with
    | some text =>
      let (facts, events) := FileFacts.ofSource (t.resolve path) text marker parse
      .facts facts events
    | none => .unreadable
  else .otherType

/-- The counts after a file was read. -/
def countRead (counts : ReadCounts) : ReadResult → ReadCounts
  | .otherType => counts
  | .unreadable => { counts with parseErrors := counts.parseErrors + 1 }
  | .facts f _ =>
    { filesParsed := counts.filesParsed + 1
      parseErrors := if f.isPartial then counts.parseErrors + 1 else counts.parseErrors }

end XPathTaint.Scan
