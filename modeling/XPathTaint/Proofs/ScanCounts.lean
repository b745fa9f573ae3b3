import Mathlib.Tactic.Common
import XPathTaint.Proofs.ScanPlaces
import XPathTaint.Proofs.ScanTwice

-- How the counts of a scan keep in step: the files collected, those read and those that could not
-- be, and what is counted while they are read. Every call of the reader is counted by its result
-- alone, in whatever state the files are by then.

namespace XPathTaint.Scan

/-! ## Results of reading -/

namespace ReadResult

def isRead (r : ReadResult) : Bool := r.facts?.isSome

def isFault : ReadResult → Bool
  | unreadable => true
  | _ => false

/-- Whether only the well-formed parts of a file were read. -/
def isPartial (r : ReadResult) : Bool := r.facts?.any (·.isPartial)

end ReadResult

variable {t : Files.Tree} {marker : Option String} {path : String} {parse : String → Python.Program}

theorem readUnit_of_not_isPython (h : Path.isPython path = false) :
    readUnit t marker path parse = .otherType := by
  unfold readUnit
  rw [if_neg (by simp [h])]

/-- A source file is read or refused. -/
theorem readUnit_of_isPython (h : Path.isPython path = true) :
    (readUnit t marker path parse).isFault = !(readUnit t marker path parse).isRead := by
  unfold readUnit
  rw [if_pos h]
  split <;> rfl

/-- What the bytes of a source file give under its canonical path. -/
def readBytes (marker : Option String) (path : String) (content : ByteArray) : ReadResult :=
  match String.fromUTF8? content with
  | some text =>
    .facts (FileFacts.ofSource path text marker).1 (FileFacts.ofSource path text marker).2
  | none => .unreadable

theorem readUnit_pathOf {top : List (String × Files.Entry)} {names : List String}
    {content : ByteArray} (hproper : t.root.IsProper) (hroot : t.root = .dir top)
    (hplace : t.root.at? names = some (.file content))
    (hpython : Path.isPython (Files.Tree.pathOf names) = true) :
    readUnit t marker (Files.Tree.pathOf names) =
      readBytes marker (Files.Tree.pathOf names) content := by
  have hresolve : t.resolve (Files.Tree.pathOf names) = Files.Tree.pathOf names := by
    unfold Files.Tree.resolve Files.Tree.canonical?
    rw [Files.locate_of_at? hproper hroot hplace fun _ => nofun]
    rfl
  have htext : t.readText? (Files.Tree.pathOf names) = String.fromUTF8? content := by
    unfold Files.Tree.readText?
    rw [Files.get?_of_at? hproper hroot hplace fun _ => nofun]
  cases hutf8 : String.fromUTF8? content <;>
    simp only [readUnit, readBytes, hpython, if_true, hresolve, htext, hutf8]

/-! ## Counting -/

/-- A result counts by its kind: facts as parsed, what failed or is partial as an error. -/
theorem countRead_eq (counts : ReadCounts) (result : ReadResult) :
    (countRead counts result).filesParsed =
        counts.filesParsed + (if result.isRead then 1 else 0) ∧
      (countRead counts result).parseErrors = counts.parseErrors +
        ((if result.isFault then 1 else 0) + if result.isPartial then 1 else 0) := by
  cases result with
  | otherType => exact ⟨rfl, rfl⟩
  | unreadable => exact ⟨rfl, rfl⟩
  | facts f events =>
    refine ⟨rfl, ?_⟩
    have hpartial : (ReadResult.facts f events).isPartial = f.isPartial := rfl
    have hfault : (ReadResult.facts f events).isFault = false := rfl
    rw [hpartial, hfault]
    cases h : f.isPartial <;> simp [countRead, h]

theorem foldl_countRead (counts : ReadCounts) (results : List ReadResult) :
    (results.foldl countRead counts).filesParsed =
        counts.filesParsed + results.countP (·.isRead) ∧
      (results.foldl countRead counts).parseErrors =
        counts.parseErrors + (results.countP (·.isFault) + results.countP (·.isPartial)) := by
  induction results generalizing counts with
  | nil => exact ⟨rfl, rfl⟩
  | cons result results ih =>
    obtain ⟨hparsed, herrors⟩ := countRead_eq counts result
    obtain ⟨hparsed', herrors'⟩ := ih (countRead counts result)
    rw [List.foldl_cons, hparsed', herrors', hparsed, herrors, List.countP_cons, List.countP_cons,
      List.countP_cons]
    exact ⟨by omega, by omega⟩

/-- One result more in a reading. -/
theorem add_eq (r : Reading) (result : ReadResult) :
    (r.add result).units = r.units ++ result.facts?.toList ∧
      (r.add result).failed = r.failed + (if result.isFault then 1 else 0) ∧
      (r.add result).counts = countRead r.counts result := by
  cases result <;> exact ⟨rfl, rfl, rfl⟩

/-- A reading holds the units of all results and their counts. -/
theorem foldl_add (r : Reading) (results : List ReadResult) :
    (results.foldl Reading.add r).units = r.units ++ results.filterMap (·.facts?) ∧
      (results.foldl Reading.add r).failed = r.failed + results.countP (·.isFault) ∧
      (results.foldl Reading.add r).counts = results.foldl countRead r.counts := by
  induction results generalizing r with
  | nil => exact ⟨(List.append_nil _).symm, rfl, rfl⟩
  | cons result results ih =>
    obtain ⟨hunits, hfailed, hcounts⟩ := add_eq r result
    obtain ⟨hunits', hfailed', hcounts'⟩ := ih (r.add result)
    rw [List.foldl_cons, hunits', hfailed', hcounts', hunits, hfailed, hcounts, List.countP_cons,
      List.foldl_cons]
    refine ⟨?_, by omega, rfl⟩
    cases result <;> simp [ReadResult.facts?]

theorem length_filterMap_facts? (results : List ReadResult) :
    (results.filterMap (·.facts?)).length = results.countP (·.isRead) :=
  List.length_filterMap_eq_countP

theorem length_filter_isPartial (results : List ReadResult) :
    ((results.filterMap (·.facts?)).filter (·.isPartial)).length =
      results.countP (·.isPartial) := by
  rw [List.filter_filterMap, List.length_filterMap_eq_countP]
  simp only [Option.isSome_filter]
  rfl

/-- Where every file is read or refused, none goes uncounted. -/
theorem countP_isRead_add_isFault {results : List ReadResult}
    (h : ∀ result ∈ results, result.isFault = !result.isRead) :
    results.countP (·.isRead) + results.countP (·.isFault) = results.length := by
  rw [List.length_eq_countP_add_countP (·.isRead)]
  congr 1
  refine List.countP_congr fun result hresult => ?_
  simp [h result hresult]

/-! ## Calls of the reader -/

/-- A call of the reader: the files at its time, the marker of comments, the path, and how a text is
made a program. -/
structure ReadCall where
  tree : Files.Tree
  marker : Option String
  path : String
  parse : String → Python.Program

def ReadCall.result (c : ReadCall) : ReadResult := readUnit c.tree c.marker c.path c.parse

/-- The counts after several calls in turn. -/
def countCalls (counts : ReadCounts) (calls : List ReadCall) : ReadCounts :=
  calls.foldl (fun counts c => countRead counts c.result) counts

theorem countCalls_eq (counts : ReadCounts) (calls : List ReadCall) :
    (countCalls counts calls).filesParsed =
        counts.filesParsed + calls.countP (·.result.isRead) ∧
      (countCalls counts calls).parseErrors = counts.parseErrors +
        (calls.countP (·.result.isFault) + calls.countP (·.result.isPartial)) := by
  have hfold := foldl_countRead counts (calls.map ReadCall.result)
  rw [List.foldl_map, List.countP_map, List.countP_map, List.countP_map] at hfold
  exact hfold

/-! ## Scans -/

/-- A reading holds as many units as results give facts, and counts as they do. -/
theorem readAll_eq (t : Files.Tree) (marker : String) (paths : List String)
    (parse : String → Python.Program) :
    let results := paths.map fun path => readUnit t (some marker) path parse
    let r := readAll t marker paths parse
    r.units.length = results.countP (·.isRead) ∧
      r.failed = results.countP (·.isFault) ∧
      (r.units.filter (·.isPartial)).length = results.countP (·.isPartial) ∧
      r.counts.filesParsed = r.units.length ∧
      r.counts.parseErrors = r.failed + (r.units.filter (·.isPartial)).length := by
  intro results r
  obtain ⟨hunits, hfailed, hcounts⟩ := foldl_add .empty results
  obtain ⟨hparsed, herrors⟩ := foldl_countRead Reading.empty.counts results
  simp only [r, readAll]
  rw [hunits, hfailed, hcounts, hparsed, herrors]
  simp only [Reading.empty, ReadCounts.zero, List.nil_append, Nat.zero_add,
    length_filterMap_facts?, length_filter_isPartial, and_self]

/-- Of source files each is read or has failed. -/
theorem length_readAll (t : Files.Tree) (marker : String) {paths : List String}
    (parse : String → Python.Program) (hpaths : ∀ path ∈ paths, Path.isPython path = true) :
    (readAll t marker paths parse).units.length + (readAll t marker paths parse).failed =
      paths.length := by
  obtain ⟨hread, hfault, -⟩ := readAll_eq t marker paths parse
  have hall : ∀ result ∈ paths.map fun path => readUnit t (some marker) path parse,
      result.isFault = !result.isRead := by
    intro result hresult
    obtain ⟨path, hpath, rfl⟩ := List.mem_map.mp hresult
    exact readUnit_of_isPython (hpaths path hpath)
  rw [hread, hfault, countP_isRead_add_isFault hall, List.length_map]

/-- The settings of a scan do not change what is counted while its files are read. -/
theorem run_reading {own : Preferences} {opts : Options} {names : List String}
    {entry : Files.Entry} {s : Scanned} (hplace : t.locate true opts.path = .found names entry)
    (hrun : run t own opts parse = .ok s) :
    ∃ marker, s.reading = readAll t marker (collect t opts names) parse ∧
      s.metrics.parser = s.reading.counts := by
  obtain ⟨names', entry', registry, baseline, hfound, _, _, rfl⟩ := exists_of_run hrun
  obtain ⟨rfl, -⟩ := Files.Location.found.inj (hplace.symm.trans hfound)
  exact ⟨_, rfl, rfl⟩

/-- The numbers of a scan that has collected its files add up: each file is analyzed or failed, the
reader has counted the files that are analyzed as parsed, and those that failed or were read in part
as errors. This holds of any calls of the reader that share their counts, whatever files they are
made for: the files parsed are the calls that gave facts, the errors those that failed or gave facts
of a part, and a call for a file of another type counts nothing. This does not depend on how
programs are read. -/
theorem the_counts_of_a_scan_add_up :
    (∀ (parse : String → Python.Program) (t : Files.Tree) (own : Preferences) (opts : Options) (names : List String)
        (entry : Files.Entry) (s : Scanned) (duration : Nat),
      t.locate true opts.path = .found names entry → run t own opts parse = .ok s →
      (s.info duration).filesAnalyzed + (s.info duration).failedFiles =
          (collect t opts names).length ∧
        s.metrics.parser.filesParsed = (s.info duration).filesAnalyzed ∧
        s.metrics.parser.parseErrors =
          (s.info duration).failedFiles + (s.info duration).partialFiles) ∧
    ∀ (counts : ReadCounts) (calls : List ReadCall),
      (countCalls counts calls).filesParsed =
          counts.filesParsed + calls.countP (·.result.isRead) ∧
        (countCalls counts calls).parseErrors = counts.parseErrors +
          (calls.countP (·.result.isFault) + calls.countP (·.result.isPartial)) ∧
        ∀ c ∈ calls, Path.isPython c.path = false → countRead counts c.result = counts := by
  constructor
  · intro parse t own opts names entry s duration hplace hrun
    obtain ⟨marker, hreading, hparser⟩ := run_reading hplace hrun
    have hpython : ∀ path ∈ collect t opts names, Path.isPython path = true :=
      fun path hpath => (List.mem_filter.mp hpath).2
    have hall := length_readAll t marker parse hpython
    obtain ⟨-, -, -, hparsed, herrors⟩ := readAll_eq t marker (collect t opts names) parse
    rw [← hreading] at hall hparsed herrors
    rw [← hparser] at hparsed herrors
    exact ⟨hall, hparsed, herrors⟩
  · intro counts calls
    obtain ⟨hparsed, herrors⟩ := countCalls_eq counts calls
    refine ⟨hparsed, herrors, fun c _ hother => ?_⟩
    rw [ReadCall.result, readUnit_of_not_isPython hother, countRead]

/-! ### A project of which one part can be read -/

open Files (Entry Tree)

/-- A source file, one that is no text, one that is malformed, and a file of another type. -/
def mixedChildren : List (String × Entry) :=
  [("a.py", .file "x = 1\n".toUTF8), ("b.py", .file ⟨#[255]⟩),
    ("c.py", .file "def broken(:\n".toUTF8), ("notes.txt", .file "x = 1\n".toUTF8)]

def mixedTree : Tree := ⟨.dir [("app", .dir mixedChildren)], []⟩

def mixedOptions : Options := { Options.ofPath "/app" with defaultExclusions := false }

def mixedSources : List String := ["/app/a.py", "/app/b.py", "/app/c.py"]

theorem liesAt_mixedTree : LiesAt mixedTree ["app"] mixedChildren := by
  have hchildren : (Entry.dir mixedChildren).IsProper := by
    refine .dir (by decide) (by decide +kernel) ?_
    simp only [mixedChildren, List.forall_mem_cons]
    exact ⟨.file, .file, .file, .file, nofun⟩
  refine ⟨.dir (by simp) (by decide +kernel) (by simpa using hchildren), rfl, ?_⟩
  have hnone : ∀ name ∈ Files.ignoreFiles, Entry.find? mixedChildren name = none := by
    decide +kernel
  intro name hname target
  simp [hnone name hname]

theorem sourcesWithin_mixed :
    sourcesWithin mixedOptions.maxFileSize [] mixedChildren = [["a.py"], ["b.py"], ["c.py"]] := by
  have hkept : ∀ within ∈ [[], ["a.py"], ["b.py"], ["c.py"], ["notes.txt"]],
      passesOver mixedOptions.maxFileSize [] mixedChildren within = false := by
    decide +kernel
  have hchildren : Files.namedChildren [] mixedChildren =
      [(["a.py"], .file "x = 1\n".toUTF8), (["b.py"], .file ⟨#[255]⟩),
        (["c.py"], .file "def broken(:\n".toUTF8), (["notes.txt"], .file "x = 1\n".toUTF8)] := by
    have hsorted : mixedChildren.Pairwise fun a b => decide (a.1 ≤ b.1) = true := by
      decide +kernel
    rw [Files.namedChildren, Files.sortByName, List.mergeSort_of_pairwise hsorted]
    rfl
  unfold sourcesWithin
  rw [Files.walkNames_dir (hkept [] (by simp)), List.nil_append, hchildren,
    Files.walkNames_file (hkept _ (by simp)), Files.walkNames_file (hkept _ (by simp)),
    Files.walkNames_file (hkept _ (by simp)), Files.walkNames_file (hkept _ (by simp)),
    Files.walkNames]
  decide +kernel

theorem collect_mixed : collect mixedTree mixedOptions ["app"] = mixedSources := by
  have hplain : '\n' ∉ textOf ["app"] := by decide +kernel
  have hnone : ownPatterns mixedChildren = [] := by decide +kernel
  rw [liesAt_mixedTree.collect_eq rfl rfl, if_neg hplain, hnone, sourcesWithin_mixed]
  decide +kernel

/-- One of the source files is refused, and one read in part. -/
theorem countP_mixed :
    (mixedSources.map (readUnit mixedTree (some defaultMarker))).countP (·.isFault) = 1 ∧
      (mixedSources.map (readUnit mixedTree (some defaultMarker))).countP (·.isPartial) = 1 := by
  have hread : ∀ name content, (Entry.dir mixedChildren).at? [name] = some (.file content) →
      Path.isPython (Tree.pathOf ["app", name]) = true →
      readUnit mixedTree (some defaultMarker) (Tree.pathOf ["app", name]) =
        readBytes (some defaultMarker) (Tree.pathOf ["app", name]) content :=
    fun name content h hpython => readUnit_pathOf liesAt_mixedTree.proper rfl
      ((liesAt_mixedTree.at?_append [name]).trans h) hpython
  have hpaths : mixedSources =
      ["a.py", "b.py", "c.py"].map fun name => Tree.pathOf ["app", name] := by decide +kernel
  have hrefused : String.fromUTF8? ⟨#[255]⟩ = none := by decide +kernel
  rw [hpaths]
  simp only [List.map_cons, List.map_nil]
  rw [hread _ "x = 1\n".toUTF8 rfl (by decide +kernel), hread _ ⟨#[255]⟩ rfl (by decide +kernel),
    hread _ "def broken(:\n".toUTF8 rfl (by decide +kernel)]
  simp only [readBytes, Files.fromUTF8?_toUTF8, hrefused]
  decide +kernel

theorem locate_mixed :
    mixedTree.locate true mixedOptions.path = .found ["app"] (.dir mixedChildren) := by
  have hpath : mixedOptions.path = Tree.pathOf ["app"] := by decide +kernel
  rw [hpath]
  exact liesAt_mixedTree.locate true

theorem run_mixed : ∃ s, run mixedTree .none mixedOptions = .ok s ∧
    s.reading = readAll mixedTree defaultMarker mixedSources := by
  unfold run
  rw [locate_mixed]
  dsimp only
  rw [collect_mixed]
  exact ⟨_, rfl, rfl⟩

theorem the_counts_of_a_scan_add_up_of_a_mixed_project :
    mixedTree.locate true mixedOptions.path = .found ["app"] (.dir mixedChildren) ∧
      ∃ s, run mixedTree .none mixedOptions = .ok s ∧
        ((s.info 0).filesAnalyzed, (s.info 0).failedFiles, (s.info 0).partialFiles) = (2, 1, 1) ∧
        (s.metrics.parser.filesParsed, s.metrics.parser.parseErrors) = (2, 2) ∧
        ∀ counts, countRead counts (readUnit mixedTree none "/app/notes.txt") = counts := by
  obtain ⟨s, hrun, hreading⟩ := run_mixed
  obtain ⟨hscan, hcalls⟩ := the_counts_of_a_scan_add_up
  obtain ⟨hall, hparsed, herrors⟩ := hscan .read mixedTree .none mixedOptions _ _ s 0 locate_mixed hrun
  obtain ⟨-, hfault, hpart, -⟩ := readAll_eq mixedTree defaultMarker mixedSources .read
  rw [← hreading, countP_mixed.1] at hfault
  rw [← hreading, countP_mixed.2] at hpart
  have hfailed : (s.info 0).failedFiles = 1 := hfault
  have hpartial : (s.info 0).partialFiles = 1 := hpart
  rw [collect_mixed, hfailed] at hall
  have hanalyzed : (s.info 0).filesAnalyzed = 2 := Nat.succ.inj hall
  rw [hanalyzed] at hparsed
  rw [hfailed, hpartial] at herrors
  refine ⟨locate_mixed, s, hrun, ?_, ?_, fun counts => ?_⟩
  · rw [hanalyzed, hfailed, hpartial]
  · rw [hparsed, herrors]
  · exact (hcalls counts [⟨mixedTree, none, "/app/notes.txt", .read⟩]).2.2 _ List.mem_cons_self
      (by decide +kernel)

end XPathTaint.Scan
