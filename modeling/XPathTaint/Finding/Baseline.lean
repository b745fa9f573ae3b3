import XPathTaint.Finding.Basic
import XPathTaint.Json.Printer
import XPathTaint.Json.Reader

-- Baselines: known findings, each by its id, file and line. A file counts by its
-- components, so two ways to write one path are the same entry.

namespace XPathTaint

structure BaselineEntry where
  id : String
  file : String
  line : Nat
  deriving Repr, DecidableEq, Inhabited

namespace BaselineEntry

def matches? (a b : BaselineEntry) : Bool :=
  a.id == b.id && a.line == b.line && Path.same a.file b.file

/-- The entry of a finding, given how its file's path is resolved. -/
def ofFinding (resolve : String → String) (f : Finding) : BaselineEntry :=
  ⟨f.id, resolve f.file, f.line⟩

/-- By file, then line, then id. -/
def compare (a b : BaselineEntry) : Ordering :=
  (Path.compare a.file b.file).then ((Ord.compare a.line b.line).then (Ord.compare a.id b.id))

def toJson (e : BaselineEntry) : Json :=
  .object [("id", .string e.id), ("file", .string e.file), ("line", .nat e.line)]

def ofJson? (j : Json) : Option BaselineEntry :=
  match j.fields? ["id", "file", "line"] 3 false with
  | some [id, file, line] => do
    some { id := ← Json.required Json.asString? id, file := ← Json.required Json.asString? file,
           line := ← Json.required Json.asNat? line }
  | _ => none

end BaselineEntry

/-- Entries of which no two match. -/
abbrev Baseline := List BaselineEntry

namespace Baseline

def contains (b : Baseline) (e : BaselineEntry) : Bool := b.any fun known => known.matches? e

/-- Each entry once, where it first stands. -/
def ofEntries (entries : List BaselineEntry) : Baseline :=
  entries.foldl (fun known e => if Baseline.contains known e then known else known ++ [e]) []

/-- The text that a baseline file has for findings. -/
def write (resolve : String → String) (findings : List Finding) : String :=
  let entries := (findings.map (BaselineEntry.ofFinding resolve)).mergeSort fun a b =>
    (a.compare b).isLE
  (Json.array (entries.map BaselineEntry.toJson)).pretty

def ofJson? (j : Json) : Option Baseline := (j.asList? BaselineEntry.ofJson?).map ofEntries

/-- The entries of a baseline file's text. -/
def read? (text : String) : Option Baseline := (Json.read? text).bind ofJson?

end Baseline

end XPathTaint
