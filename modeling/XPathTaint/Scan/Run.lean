import XPathTaint.Files.Walk
import XPathTaint.Finding.BaselineFile
import XPathTaint.Scan.Options
import XPathTaint.Scan.Preferences
import XPathTaint.Scan.Read

-- A scan: the source files below a path are collected, read and analyzed with the settings
-- of the user.

namespace XPathTaint.Scan

/-! ## Collecting -/

/-- What a scan of the entry at `names` leaves out; ignore files are those in the scanned
directory, or beside the scanned file. -/
def exclusionOf (t : Files.Tree) (opts : Options) (names : List String) : Files.Exclusion :=
  let root := Files.Tree.pathOf names
  let home := if t.isDir root then root else Files.Tree.pathOf names.dropLast
  { patterns := opts.exclude ++
      (if opts.defaultExclusions then Files.defaultPatterns else []) ++ t.ignorePatterns home
    maxSize := opts.maxFileSize }

/-- The paths of the source files at and below the entry at `names`. -/
def collect (t : Files.Tree) (opts : Options) (names : List String) : List String :=
  let files := t.walk? (Files.Tree.pathOf names) ((exclusionOf t opts names).excludes t)
  (files.getD []).filter Path.isPython

/-! ## Reading -/

/-- What came of reading several files. -/
structure Reading where
  units : List FileFacts
  failed : Nat
  counts : ReadCounts
  events : List Event
  deriving Inhabited

def Reading.empty : Reading := ⟨[], 0, .zero, []⟩

def Reading.add (r : Reading) (result : ReadResult) : Reading :=
  { units := r.units ++ result.facts?.toList
    failed := match result with
      | .unreadable => r.failed + 1
      | _ => r.failed
    counts := countRead r.counts result
    events := r.events ++ result.events }

def readAll (t : Files.Tree) (marker : String) (paths : List String)
    (parse : String → Python.Program := Python.Program.read) : Reading :=
  (paths.map fun path => readUnit t (some marker) path parse).foldl Reading.add .empty

/-! ## Scanning -/

/-- Why a scan came to no result. -/
inductive Fault where
  | noAccess (path : String)
  | catalog (path : String) (fault : Catalog.LoadFault)
  | baseline (path : String) (fault : Baseline.FileFault)
  deriving Repr, DecidableEq, Inhabited

/-- What went wrong, from the outside to the inside. -/
def Fault.chain : Fault → List String
  | noAccess path => ["failed to access " ++ path]
  | catalog path fault => fault.chain path
  | baseline path fault => [fault.message path]

/-- The result of a scan. -/
structure Scanned where
  findings : List Finding
  reading : Reading
  metrics : Metrics
  settings : Settings

/-- The registry of a scan. -/
def registryOf (t : Files.Tree) (own : Preferences) (catalog : Option String) :
    Except Fault Registry :=
  match own.registry t catalog with
  | .ok registry => .ok registry
  | .error fault => .error (.catalog (catalog.getD "") fault)

/-- The known findings of a scan, if it has any. -/
def baselineOf (t : Files.Tree) : Option String → Except Fault (Option Baseline)
  | none => .ok none
  | some path =>
    match Baseline.load t path with
    | .ok known => .ok (some known)
    | .error fault => .error (.baseline path fault)

/-- Scans what the path of the options leads to. An option counts before the preference,
and that before the built-in setting. -/
def run (t : Files.Tree) (own : Preferences) (opts : Options)
    (parse : String → Python.Program := Python.Program.read) : Except Fault Scanned :=
  match t.locate true opts.path with
  | .found names _ => do
    let registry ← registryOf t own opts.catalog
    let maxHops := (opts.maxHops.or own.maxHops).getD defaultMaxHops
    let marker := (opts.suppressComment.or own.suppressComment).getD defaultMarker
    let baseline ← baselineOf t opts.baseline
    let reading := readAll t marker (collect t opts names) parse
    let cfg : Settings :=
      { maxHops, baseline, suppressMarker := some marker, registry, resolve := t.resolve }
    .ok { findings := analyzeFiles cfg reading.units
          reading
          metrics := { Metrics.zero with parser := reading.counts }.afterAnalysis cfg reading.units
          settings := cfg }
  | _ => .error (.noAccess opts.path)

/-- The numbers of a scan that took some milliseconds. -/
def Scanned.info (s : Scanned) (duration : Nat) : Report.ScanInfo :=
  { filesAnalyzed := s.reading.units.length
    failedFiles := s.reading.failed
    partialFiles := (s.reading.units.filter (·.isPartial)).length
    sinksChecked := s.metrics.sinksChecked
    maxHops := s.settings.maxHops
    duration }

/-- What happened while the units were read and then analyzed. -/
def Scanned.events (s : Scanned) : List Event :=
  s.reading.events ++ s.reading.units.flatMap (analysisEvents s.settings)

/-- Whether there is a finding of a severity or a higher one. -/
def Scanned.reaches (s : Scanned) (limit : Severity) : Bool :=
  (Severity.maximum? (s.findings.map (·.severity))).any fun most => decide (limit ≤ most)

end XPathTaint.Scan
