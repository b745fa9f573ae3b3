import XPathTaint.Finding.Baseline
import XPathTaint.Sink.Match

-- The analysis of source units: every tainted argument of an XPath evaluation is a
-- finding. Over several units known and silenced findings are left out, each place is
-- reported once, and the rest is put in the order of files, lines and columns.

namespace XPathTaint

/-! ## Settings and counts -/

structure Settings where
  /-- The most bindings that are followed from an argument. -/
  maxHops : Nat
  baseline : Option Baseline
  /-- The marker of comments that silence findings; without it no finding is silenced. -/
  suppressMarker : Option String
  registry : Registry
  /-- How the path of a file is resolved where it stands for the file. -/
  resolve : String → String

def defaultMaxHops : Nat := 16

def defaultMarker : String := "xpath-ignore"

def Settings.default : Settings :=
  { maxHops := defaultMaxHops, baseline := none, suppressMarker := some defaultMarker,
    registry := .builtin, resolve := id }

/-- How many files were read, and how many of them not or only in part. -/
structure ReadCounts where
  filesParsed : Nat
  parseErrors : Nat
  deriving Repr, DecidableEq, Inhabited

def ReadCounts.zero : ReadCounts := ⟨0, 0⟩

/-- What was done so far. -/
structure Metrics where
  /-- The milliseconds that each file took. -/
  fileTimes : List (String × Nat)
  /-- The findings of the last analysis. -/
  findings : Nat
  sinksChecked : Nat
  /-- Findings left out as known or silenced. -/
  suppressed : Nat
  parser : ReadCounts
  deriving Repr, DecidableEq, Inhabited

def Metrics.zero : Metrics := ⟨[], 0, 0, 0, .zero⟩

/-! ## One unit -/

/-- The finding that a tainted argument makes. -/
def findingAt (cfg : Settings) (facts : FileFacts) (call : CallSite) (sink : SinkMatch)
    (taint : Taint) : Finding :=
  let place := sink.arg.value.place
  { id := findingId (cfg.resolve facts.path) place.line place.column
    ruleId := ruleId
    severity := cfg.registry.severity
    file := facts.path
    line := place.line
    column := place.column
    excerpt := ((facts.lineText? call.place.line).map Text.trimBlanks).getD call.text
    message := "Untrusted input from " ++ taint.source.written ++ " reaches " ++
      sink.kind.written ++ " as the XPath expression"
    remediation := some remediationText
    sink := sink.kind
    source := taint.source.written
    function := ((facts.scope? call.scope).map (·.name)).getD "<module>"
    trace := taint.trace ++ [.at call.text place] }

/-- What came of a call site: whether it is a sink, its finding if it has one, and the
events on the way. -/
structure Checked where
  isSink : Bool
  finding : Option Finding
  events : List Event

def checkCall (cfg : Settings) (facts : FileFacts) (call : CallSite) : Checked :=
  match sinkOf facts cfg.registry cfg.maxHops call with
  | (none, events) => ⟨false, none, events⟩
  | (some sink, events) =>
    let line := call.place.line
    let events := events ++ [.sinkMatched facts.path line sink.kind.written]
    match taintOf facts cfg.registry cfg.maxHops sink.arg.value call.scope call.block with
    | (some taint, more) => ⟨true, some (findingAt cfg facts call sink taint), events ++ more⟩
    | (none, more) => ⟨true, none, events ++ more ++ [.notTainted facts.path line]⟩

/-- What it takes for a call site to have a finding. -/
theorem exists_of_checkCall {cfg : Settings} {facts : FileFacts} {call : CallSite} {f : Finding}
    (h : (checkCall cfg facts call).finding = some f) :
    ∃ sink taint, (sinkOf facts cfg.registry cfg.maxHops call).1 = some sink ∧
      (taintOf facts cfg.registry cfg.maxHops sink.arg.value call.scope call.block).1 =
        some taint ∧ f = findingAt cfg facts call sink taint := by
  unfold checkCall at h
  split at h
  · cases h
  · rename_i sink events hsink
    dsimp only at h
    split at h
    · rename_i taint events' htaint
      exact ⟨sink, taint, by rw [hsink], by rw [htaint], (Option.some.inj h).symm⟩
    · cases h

theorem checkCall_finding (cfg : Settings) {facts : FileFacts} {call : CallSite}
    {sink : SinkMatch} {taint : Taint}
    (hsink : (sinkOf facts cfg.registry cfg.maxHops call).1 = some sink)
    (htaint : (taintOf facts cfg.registry cfg.maxHops sink.arg.value call.scope call.block).1 =
      some taint) :
    (checkCall cfg facts call).finding = some (findingAt cfg facts call sink taint) := by
  rcases hs : sinkOf facts cfg.registry cfg.maxHops call with ⟨found, events⟩
  rw [hs] at hsink
  obtain rfl : found = some sink := hsink
  rcases ht : taintOf facts cfg.registry cfg.maxHops sink.arg.value call.scope call.block with
    ⟨result, events'⟩
  rw [ht] at htaint
  obtain rfl : result = some taint := htaint
  unfold checkCall
  rw [hs]
  dsimp only
  rw [ht]

def checkCalls (cfg : Settings) (facts : FileFacts) : List Checked :=
  facts.calls.map (checkCall cfg facts)

/-- All findings of a unit, known and silenced ones too. -/
def analyzeFile (cfg : Settings) (facts : FileFacts) : List Finding :=
  (checkCalls cfg facts).filterMap (·.finding)

/-- How many call sites of a unit are sinks. -/
def sinkCount (cfg : Settings) (facts : FileFacts) : Nat :=
  ((checkCalls cfg facts).filter (·.isSink)).length

def analysisEvents (cfg : Settings) (facts : FileFacts) : List Event :=
  (checkCalls cfg facts).flatMap (·.events)

/-! ## Several units -/

/-- Whether a baseline knows a finding. -/
def isKnown (cfg : Settings) (f : Finding) : Bool :=
  match cfg.baseline with
  | some baseline => baseline.contains (.ofFinding cfg.resolve f)
  | none => false

/-- Whether a comment silences a finding. Of units with one path the last one counts. -/
def isSilenced (cfg : Settings) (files : List FileFacts) (f : Finding) : Bool :=
  cfg.suppressMarker.isSome &&
    match files.reverse.find? fun facts => Path.same facts.path f.file with
    | some facts => facts.suppressed.contains f.line
    | none => false

/-- Each finding once by its id, where it first stands. -/
def firstOfEach (findings : List Finding) : List Finding :=
  findings.foldl (fun kept f => if kept.any (fun k => k.id == f.id) then kept else kept ++ [f]) []

/-- By file, then line, then column. -/
def Finding.compare (a b : Finding) : Ordering :=
  (Path.compare a.file b.file).then ((Ord.compare a.line b.line).then (Ord.compare a.column b.column))

/-- All findings of several units before any is left out. -/
def rawFindings (cfg : Settings) (files : List FileFacts) : List Finding :=
  files.flatMap (analyzeFile cfg)

/-- The raw findings that are neither known nor silenced. -/
def newFindings (cfg : Settings) (files : List FileFacts) : List Finding :=
  (rawFindings cfg files).filter fun f => !isKnown cfg f && !isSilenced cfg files f

/-- The findings that are reported for several units. -/
def analyzeFiles (cfg : Settings) (files : List FileFacts) : List Finding :=
  (firstOfEach (newFindings cfg files)).mergeSort fun a b => (a.compare b).isLE

/-- A file's time in place of an older one. -/
def setTime (times : List (String × Nat)) (entry : String × Nat) : List (String × Nat) :=
  times.filter (fun t => t.1 != entry.1) ++ [entry]

/-- The counts after an analysis; a file takes no time that could be told here. -/
def Metrics.afterAnalysis (m : Metrics) (cfg : Settings) (files : List FileFacts) : Metrics :=
  { m with
    fileTimes := (files.map fun f => (f.path, 0)).foldl setTime m.fileTimes
    findings := (analyzeFiles cfg files).length
    sinksChecked := files.foldl (fun n f => n + sinkCount cfg f) m.sinksChecked
    suppressed := m.suppressed +
      ((rawFindings cfg files).length - (newFindings cfg files).length) }

/-! ## JSON -/

def ReadCounts.toJson (c : ReadCounts) : Json :=
  .object [("files_parsed", .nat c.filesParsed), ("parse_errors", .nat c.parseErrors)]

def Metrics.toJson (m : Metrics) : Json :=
  .object [("file_times_ms", .object (m.fileTimes.map fun t => (t.1, .nat t.2))),
    ("findings", .nat m.findings), ("sinks_checked", .nat m.sinksChecked),
    ("suppressed", .nat m.suppressed), ("parser", m.parser.toJson)]

end XPathTaint
