import XPathTaint.Files.Exclusion
import XPathTaint.Registry.Severity
import XPathTaint.Report.Format

-- What a user asks of a scan.

namespace XPathTaint.Scan

/-- The size in bytes above which files are left out unless the user sets another. -/
def defaultMaxFileSize : Nat := 5 * 1024 * 1024

structure Options where
  /-- The file or directory to scan. -/
  path : String
  format : Report.Format
  /-- The severity from which findings make the program fail. -/
  failOn : Option Severity
  exclude : List Pattern
  /-- Whether the built-in exclusions hold. -/
  defaultExclusions : Bool
  maxFileSize : Nat
  catalog : Option String
  maxHops : Option Nat
  /-- The file with known findings. -/
  baseline : Option String
  /-- The file to which the findings are written as a baseline. -/
  writeBaseline : Option String
  suppressComment : Option String
  /-- The file to which the metrics are written, a dash for the error output. -/
  metrics : Option String
  dumpFacts : Bool
  debug : Bool
  quiet : Bool
  deriving Repr, DecidableEq, Inhabited

def Options.ofPath (path : String) : Options :=
  { path, format := .plain, failOn := none, exclude := [], defaultExclusions := true,
    maxFileSize := defaultMaxFileSize, catalog := none, maxHops := none, baseline := none,
    writeBaseline := none, suppressComment := none, metrics := none, dumpFacts := false,
    debug := false, quiet := false }

end XPathTaint.Scan
