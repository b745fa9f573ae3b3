import XPathTaint.Finding.Basic
import XPathTaint.Report.Rate
import XPathTaint.Text.Lines

-- The report for people: a box with the numbers of the scan, and each finding with its
-- flow. Severities are coloured.

namespace XPathTaint.Report

/-- The numbers of a scan. -/
structure ScanInfo where
  filesAnalyzed : Nat
  failedFiles : Nat
  /-- Files analyzed in spite of syntax errors. -/
  partialFiles : Nat
  sinksChecked : Nat
  maxHops : Nat
  /-- How long the scan took, in milliseconds. -/
  duration : Nat
  deriving Repr, DecidableEq, Inhabited

/-! ## Boxes and rules -/

def box (title : String) : String :=
  let bar := String.ofList (List.replicate (title.length + 2) '─')
  "╭" ++ bar ++ "╮\n│ " ++ title ++ " │\n╰" ++ bar ++ "╯\n"

def ruler : String := "    " ++ String.ofList (List.replicate 78 '─') ++ "\n"

/-! ## Numbers of the scan -/

/-- A row of the table of numbers: the name takes 26 columns. -/
def statRow (name value : String) : String :=
  "    " ++ name ++ String.ofList (List.replicate (26 - name.length) ' ') ++ value ++ "\n"

/-- The number of files is a word of 64 bits. -/
def totalFiles (info : ScanInfo) : Nat := (info.filesAnalyzed + info.failedFiles) % UInt64.size

def stats (info : ScanInfo) : String :=
  box "Analysis Status" ++ "\n" ++
    "    Scanning " ++ toString info.filesAnalyzed ++ " Python files (max " ++
    toString info.maxHops ++ " hops per flow):\n\n" ++
    "    PERFORMANCE\n" ++ ruler ++ "\n" ++ statRow "Metric" "Value" ++ ruler ++
    statRow "Duration" (toString info.duration ++ "ms") ++
    statRow "Sinks checked" (toString info.sinksChecked) ++
    statRow "Failed files" (toString info.failedFiles) ++
    statRow "Partially parsed files" (toString info.partialFiles) ++
    statRow "Success rate" (writtenRate info.filesAnalyzed (totalFiles info))

/-! ## Findings -/

/-- The code that sets a severity's colour: green, yellow or red. -/
def colourCode : Severity → String
  | .info => "32"
  | .low => "32"
  | .medium => "33"
  | .error => "31"
  | .high => "31"
  | .critical => "31"

/-- A text in a colour, set back behind it. -/
def coloured (code text : String) : String := "\x1b[" ++ code ++ "m" ++ text ++ "\x1b[0m"

def place (line column : Nat) : String := toString line ++ ":" ++ toString column

def traceLines (trace : List TraceStep) : List String :=
  if trace.isEmpty then []
  else "    • Flow:" :: trace.map fun t => "        " ++ place t.line t.column ++ "  " ++ t.text

def remedyLines : Option String → List String
  | some remedy => ["    • Remediation: " ++ remedy]
  | none => []

def findingLines (f : Finding) : List String :=
  [coloured (colourCode f.severity) f.severity.written ++ " " ++ f.file ++ ":" ++
      place f.line f.column ++ " " ++ f.ruleId,
    "    " ++ f.message,
    "    ↳  " ++ Text.trimBlanks f.excerpt,
    "    • Function: " ++ f.function] ++
    traceLines f.trace ++ remedyLines f.remediation ++ [""]

/-- Lines, each closed by a line feed. -/
def closedLines (lines : List String) : String := String.join (lines.map (· ++ "\n"))

def results (findings : List Finding) : String :=
  let count := toString findings.length
  box "Results" ++ "\n" ++
    if findings.isEmpty then "✔ No XPath injection found.\n"
    else "⚠ Found " ++ count ++ " issue(s):\n\n" ++
      closedLines (findings.flatMap findingLines) ++ "Total: " ++ count ++ "\n"

/-- The whole report; the numbers of the scan come first if they are known. -/
def plain (findings : List Finding) (info : Option ScanInfo) : String :=
  match info with
  | some info => stats info ++ "\n" ++ results findings
  | none => results findings

end XPathTaint.Report
