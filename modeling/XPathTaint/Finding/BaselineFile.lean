import XPathTaint.Files.Tree
import XPathTaint.Finding.Baseline

-- Baseline files in a tree, and what can go wrong with them.

namespace XPathTaint.Baseline

inductive FileFault where
  | unreadable
  | malformed
  | unwritable
  deriving Repr, DecidableEq, Inhabited

def FileFault.message (path : String) : FileFault → String
  | unreadable => "Failed to read baseline: " ++ path
  | malformed => "Failed to parse baseline: " ++ path
  | unwritable => "Failed to write baseline: " ++ path

def load (t : Files.Tree) (path : String) : Except FileFault Baseline :=
  match t.readText? path with
  | none => .error .unreadable
  | some text =>
    match read? text with
    | some baseline => .ok baseline
    | none => .error .malformed

/-- The tree with the baseline of findings at a path. -/
def store (t : Files.Tree) (path : String) (findings : List Finding) : Except FileFault Files.Tree :=
  match t.write? path (write t.resolve findings).toUTF8 with
  | some t => .ok t
  | none => .error .unwritable

end XPathTaint.Baseline
