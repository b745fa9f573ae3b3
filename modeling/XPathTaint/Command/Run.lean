import XPathTaint.Command.Line
import XPathTaint.Command.Signatures
import XPathTaint.Facts.Format
import XPathTaint.Scan.Run

-- The program: from a command line, the environment and a tree of files to the output, the
-- files that are written, and the code with which the program ends.

namespace XPathTaint.Command

/-- What the program finds around it. -/
structure World where
  tree : Files.Tree
  env : Environment
  /-- Whether the output goes to a terminal. -/
  isTerminal : Bool

/-- What the program leaves behind. -/
structure Outcome where
  code : Nat
  output : String
  errors : String
  tree : Files.Tree
  /-- The files that were written, by their paths. -/
  written : List (String × String)

/-- Why the program fails. -/
inductive Fault where
  | preferences (path : String) (fault : Scan.Preferences.Fault)
  | scan (fault : Scan.Fault)
  | metrics (path : String)
  deriving Repr, DecidableEq, Inhabited

/-- What went wrong, from the outside to the inside. -/
def Fault.chain : Fault → List String
  | preferences path fault => "failed to load configuration" :: fault.chain path
  | scan fault => fault.chain
  | metrics path => ["failed to write metrics: " ++ path]

/-- An error with its causes below it. -/
def Fault.report (f : Fault) : String :=
  let causes (rest : List String) : String :=
    if rest.isEmpty then "" else "\nCaused by:\n" ++ Report.closedLines (rest.map ("    " ++ ·))
  match f.chain with
  | [] => ""
  | first :: rest => "Error: " ++ first ++ "\n" ++ causes rest

namespace World

def ends (w : World) (code : Nat) (output errors : String) : Outcome :=
  ⟨code, output, errors, w.tree, []⟩

def fails (w : World) (f : Fault) : Outcome := w.ends 1 "" f.report

def preferences (w : World) : Except Fault Scan.Preferences :=
  match Scan.Preferences.load w.tree w.env with
  | .ok own => .ok own
  | .error fault => .error (.preferences (Scan.Preferences.filePath w.env) fault)

end World

namespace Outcome

/-- Ends in failure with what was done so far. -/
def fail (o : Outcome) (f : Fault) : Outcome :=
  { o with code := 1, errors := o.errors ++ f.report }

/-- Writes a file, or tells that it cannot be written. -/
def writeFile? (o : Outcome) (path text : String) : Option Outcome :=
  (o.tree.write? path text.toUTF8).map fun tree =>
    { o with tree, written := o.written ++ [(path, text)] }

/-- Writes the findings as a baseline where the user asks for it. -/
def storeBaseline (o : Outcome) (path : Option String) (findings : List Finding) :
    Except Outcome Outcome :=
  match path with
  | none => .ok o
  | some path =>
    match o.writeFile? path (Baseline.write o.tree.resolve findings) with
    | some o => .ok o
    | none => .error (o.fail (.scan (.baseline path .unwritable)))

/-- Writes the metrics where the user asks for them. -/
def storeMetrics (o : Outcome) (opts : Scan.Options) (m : Metrics) : Except Outcome Outcome :=
  match opts.metrics with
  | none => .ok o
  | some path =>
    let text := m.toJson.pretty
    if path = "-" then
      .ok (if opts.quiet then o else { o with errors := o.errors ++ text ++ "\n" })
    else
      match o.writeFile? path text with
      | some o => .ok o
      | none => .error (o.fail (.metrics path))

end Outcome

/-! ## Commands -/

/-- The facts of each unit, where the user asks for them. -/
def dumped (opts : Scan.Options) (units : List FileFacts) : String :=
  if opts.dumpFacts && !opts.quiet then
    Report.closedLines (units.map fun f => f.toJson.pretty)
  else ""

/-- The log of a scan: its warnings, and all events where the user asks for them. -/
def logged (opts : Scan.Options) (s : Scan.Scanned) : String :=
  if opts.quiet then ""
  else
    let events := if opts.debug then s.events else s.reading.events.filter (·.level = .warn)
    Report.closedLines (events.map (·.written))

/-- What is left to do after a scan that took some milliseconds: the baseline is written
first, then the report and the metrics. The program fails where a finding reaches the
severity that the user names. -/
def finishScan (w : World) (opts : Scan.Options) (s : Scan.Scanned) (duration : Nat) : Outcome :=
  let start := w.ends 0 "" (logged opts s ++ dumped opts s.reading.units)
  let steps : Except Outcome Outcome := do
    let o ← start.storeBaseline opts.writeBaseline s.findings
    let info := if opts.format = .plain then some (s.info duration) else none
    let o := { o with output := Report.write opts.format s.findings info }
    let o ← o.storeMetrics opts s.metrics
    .ok (if opts.failOn.any s.reaches then { o with code := 1 } else o)
  match steps with
  | .ok o => o
  | .error o => o

def runSignatures (w : World) (catalog : Option String) : Outcome :=
  match w.preferences with
  | .error f => w.fails f
  | .ok own =>
    match Scan.registryOf w.tree own catalog with
    | .error f => w.fails (.scan f)
    | .ok reg => w.ends 0 (signatureList reg w.env w.isTerminal) ""

def usage : String :=
  "Usage: " ++ Tool.name ++ " scan <PATH> [OPTIONS]\n" ++
  "       " ++ Tool.name ++ " signatures [--catalog <CATALOG>]\n" ++
  "       " ++ Tool.name ++ " --version\n\n" ++
  "Options of scan: " ++ " ".intercalate (scanRules.map fun r => "--" ++ r.name) ++ "\n"

/-- A program that has ended, or one that has scanned and still has to report. -/
inductive Progress where
  | ended (o : Outcome)
  | scanned (opts : Scan.Options) (s : Scan.Scanned)

/-- Runs the program up to the report. -/
def start (w : World) (args : List String) : Progress :=
  match Request.ofArgs? args with
  | none => .ended (w.ends 2 "" usage)
  | some .help => .ended (w.ends 0 usage "")
  | some .version => .ended (w.ends 0 (Tool.name ++ " " ++ Tool.version ++ "\n") "")
  | some (.signatures catalog) => .ended (runSignatures w catalog)
  | some (.scan opts) =>
    match w.preferences with
    | .error f => .ended (w.fails f)
    | .ok own =>
      match Scan.run w.tree own opts with
      | .error f => .ended (w.fails (.scan f))
      | .ok s => .scanned opts s

def Progress.finish (w : World) (duration : Nat) : Progress → Outcome
  | ended o => o
  | scanned opts s => finishScan w opts s duration

/-- Runs the whole program, given how long a scan took. -/
def run (w : World) (args : List String) (duration : Nat) : Outcome :=
  (start w args).finish w duration

end XPathTaint.Command
