import XPathTaint.Files.Pattern
import XPathTaint.Files.Tree
import XPathTaint.Text.Lines

-- What a scan leaves out: paths that match a pattern, and files above a size. Patterns are
-- given by the user, built in, or read from ignore files.

namespace XPathTaint.Files

/-! ## Patterns -/

/-- The globs left out of every scan unless the user asks for them. -/
def defaultExclusions : List String :=
  ["**/node_modules/**", "**/.git/**", "**/.venv/**", "**/__pycache__/**"]

def defaultPatterns : List Pattern := defaultExclusions.filterMap Pattern.ofExclusion?

/-- The exclusion that a line of an ignore file gives, at any depth of a tree; blank lines,
comments and negations give none. -/
def ignoreLine? (line : String) : Option String :=
  match (Text.trimBlanks line).toList with
  | [] => none
  | '#' :: _ => none
  | '!' :: _ => none
  | chars =>
    let rest := chars.dropWhile (· == '/')
    if ['*', '*', '/'].isPrefixOf rest then some (String.ofList rest)
    else some ("**/" ++ String.ofList rest)

/-- The patterns of an ignore file; lines that are no pattern are passed over. -/
def ignorePatterns (text : String) : List Pattern :=
  (Text.lines text).filterMap fun line => (ignoreLine? line).bind Pattern.ofExclusion?

def ignoreFiles : List String := [".gitignore", ".xpathignore"]

/-- The patterns of the ignore files in a directory. -/
def Tree.ignorePatterns (t : Tree) (dir : String) : List Pattern :=
  ignoreFiles.flatMap fun name =>
    match t.readText? (Path.join dir name) with
    | some text => Files.ignorePatterns text
    | none => []

/-! ## Exclusion -/

structure Exclusion where
  patterns : List Pattern
  /-- The size in bytes above which files are left out; zero sets no limit. -/
  maxSize : Nat
  deriving Repr, DecidableEq, Inhabited

namespace Exclusion

/-- A path with slashes for backslashes. -/
def slashed (path : String) : String :=
  String.ofList (path.toList.map fun c => if c = '\\' then '/' else c)

def matchesPath (x : Exclusion) (path : String) : Bool :=
  x.patterns.any fun p => p.matches? (slashed path)

/-- Whether a path leads to a file that is too large. -/
def isTooLarge (x : Exclusion) (t : Tree) (path : String) : Bool :=
  match t.fileSize? path with
  | some size => decide (0 < x.maxSize ∧ x.maxSize < size)
  | none => false

def excludes (x : Exclusion) (t : Tree) (path : String) : Bool :=
  x.matchesPath path || x.isTooLarge t path

end Exclusion

end XPathTaint.Files
