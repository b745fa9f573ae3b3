import XPathTaint.Command.Run
import XPathTaint.Proofs.KnownFindings

-- Two scans of one tree, the second with the baseline that the first one wrote. The first writes
-- what it reports, which is what its own baseline left over; so the second reports what that
-- baseline hid.

namespace XPathTaint

/-! ## Ids of raw findings -/

section

variable {cfg : Settings} {files : List FileFacts} {known : Baseline} {f g : Finding}

/-- Findings with one id have the same resolved file, line and column. -/
theorem place_eq_of_id (hdigests : NoCollision ((rawFindings cfg files).map (idText cfg)))
    (hf : f ∈ rawFindings cfg files) (hg : g ∈ rawFindings cfg files) (hid : f.id = g.id) :
    cfg.resolve f.file = cfg.resolve g.file ∧ f.line = g.line ∧ f.column = g.column := by
  obtain ⟨a, _, hfa⟩ := mem_rawFindings.mp hf
  obtain ⟨b, _, hgb⟩ := mem_rawFindings.mp hg
  rw [id_of_mem_analyzeFile hfa, id_of_mem_analyzeFile hgb] at hid
  exact placeText_inj (hdigests _ (List.mem_map_of_mem hf) _ (List.mem_map_of_mem hg) hid)

/-- So a baseline knows all of them or none. -/
theorem isKnown_congr_of_id (hdigests : NoCollision ((rawFindings cfg files).map (idText cfg)))
    (hf : f ∈ rawFindings cfg files) (hg : g ∈ rawFindings cfg files) (hid : f.id = g.id) :
    isKnown cfg f = isKnown cfg g := by
  obtain ⟨hfile, hline, _⟩ := place_eq_of_id hdigests hf hg hid
  unfold isKnown BaselineEntry.ofFinding
  rw [hid, hfile, hline]

/-- What is reported: of each id the first finding that is new. -/
theorem mem_analyzeFiles_iff : f ∈ analyzeFiles cfg files ↔
    (rawFindings cfg files).find? (fun g => isNew cfg files g && g.id == f.id) = some f := by
  unfold analyzeFiles
  rw [List.mem_mergeSort, mem_firstOfEach, newFindings_eq, List.find?_filter]
  simp only [Bool.decide_and, Bool.decide_eq_true]

theorem isNew_of_mem_analyzeFiles (h : f ∈ analyzeFiles cfg files) :
    f ∈ rawFindings cfg files ∧ isNew cfg files f = true := by
  have hfirst := mem_analyzeFiles_iff.mp h
  have hfound := List.find?_some hfirst
  rw [Bool.and_eq_true] at hfound
  exact ⟨List.mem_of_find?_eq_some hfirst, hfound.1⟩

/-- Each id of a new finding is reported. -/
theorem exists_reported_iff {id : String} : (∃ g ∈ analyzeFiles cfg files, g.id = id) ↔
    ∃ g ∈ rawFindings cfg files, isNew cfg files g = true ∧ g.id = id := by
  constructor
  · rintro ⟨g, hg, hid⟩
    obtain ⟨hraw, hnew⟩ := isNew_of_mem_analyzeFiles hg
    exact ⟨g, hraw, hnew, hid⟩
  · rintro ⟨g, hg, hnew, rfl⟩
    have hsome : ((rawFindings cfg files).find?
        fun k => isNew cfg files k && k.id == g.id).isSome := by
      rw [List.find?_isSome]
      exact ⟨g, hg, by simp [hnew]⟩
    obtain ⟨k, hk⟩ := Option.isSome_iff_exists.mp hsome
    have hfound := List.find?_some hk
    rw [Bool.and_eq_true, beq_iff_eq] at hfound
    exact ⟨k, mem_analyzeFiles_iff.mpr (by rw [hfound.2, hk]), hfound.2⟩

/-- The settings without a baseline. -/
def Settings.unaware (cfg : Settings) : Settings := { cfg with baseline := none }

section

variable (hdigests : NoCollision ((rawFindings cfg files).map (idText cfg)))
  (hread : Baseline.read? (Baseline.write cfg.resolve (analyzeFiles cfg files)) = some known)
  (hlines : ∀ f ∈ analyzeFiles cfg files, f.line < UInt64.size)

include hdigests hread hlines

/-- The baseline of what was reported knows the raw findings with the id of a new one. -/
theorem isKnown_reported (hf : f ∈ rawFindings cfg files) :
    isKnown (cfg.knowing known) f = true ↔
      ∃ g ∈ rawFindings cfg files, isNew cfg files g = true ∧ g.id = f.id := by
  rw [isKnown_of_read hread hlines, ← exists_reported_iff]
  constructor
  · rintro ⟨g, hg, hid, _⟩
    exact ⟨g, hg, hid⟩
  · rintro ⟨g, hg, hid⟩
    have hraw := (isNew_of_mem_analyzeFiles hg).1
    obtain ⟨hfile, hline, _⟩ := place_eq_of_id hdigests hraw hf hid
    refine ⟨g, hg, hid, hline, ?_⟩
    rw [hfile]
    exact Path.same_self _

/-- What is still new beside that baseline was known before: else it would have been reported. -/
theorem isKnown_of_isNew_knowing (hf : f ∈ rawFindings cfg files)
    (hnew : isNew (cfg.knowing known) files f = true) : isKnown cfg f = true := by
  rw [isNew, Bool.and_eq_true, Bool.not_eq_true', Bool.not_eq_true'] at hnew
  by_contra hknown
  have hunknown : isKnown cfg f = false := by simpa using hknown
  have hreported : isNew cfg files f = true := by
    have hsilenced : isSilenced cfg files f = false := hnew.2
    simp [isNew, hunknown, hsilenced]
  have hagain := (isKnown_reported hdigests hread hlines hf).mpr ⟨f, hf, hreported, rfl⟩
  rw [hnew.1] at hagain
  cases hagain

/-- It says nothing about the findings with the id of one that was known before, since none of them
is new. -/
theorem isNew_knowing_of_known (hf : f ∈ rawFindings cfg files) (hknown : isKnown cfg f = true)
    (hg : g ∈ rawFindings cfg files) (hid : g.id = f.id) :
    isNew (cfg.knowing known) files g = isNew cfg.unaware files g := by
  have hhidden : isKnown (cfg.knowing known) g = false := by
    rw [← Bool.not_eq_true, isKnown_reported hdigests hread hlines hg]
    rintro ⟨k, hk, hnew, hkid⟩
    have hkknown := isKnown_congr_of_id hdigests hk hf (hkid.trans hid)
    rw [isNew, hkknown, hknown] at hnew
    simp at hnew
  have hunaware : isKnown cfg.unaware g = false := rfl
  have hsilenced : isSilenced (cfg.knowing known) files g = isSilenced cfg.unaware files g := rfl
  rw [isNew, isNew, hhidden, hunaware, hsilenced]

/-- With the baseline of what was reported, just the findings are reported that the baseline before
had hidden. -/
theorem mem_analyzeFiles_knowing : f ∈ analyzeFiles (cfg.knowing known) files ↔
    f ∈ analyzeFiles cfg.unaware files ∧ isKnown cfg f = true := by
  have hraw : rawFindings (cfg.knowing known) files = rawFindings cfg files := rfl
  have hraw' : rawFindings cfg.unaware files = rawFindings cfg files := rfl
  have hsame (hf : f ∈ rawFindings cfg files) (hknown : isKnown cfg f = true) :
      ∀ g ∈ rawFindings cfg files, (isNew (cfg.knowing known) files g && g.id == f.id) =
        (isNew cfg.unaware files g && g.id == f.id) := by
    intro g hg
    by_cases hid : g.id = f.id
    · rw [isNew_knowing_of_known hdigests hread hlines hf hknown hg hid]
    · simp [beq_eq_false_iff_ne.mpr hid]
  constructor
  · intro h
    obtain ⟨hf, hnew⟩ := isNew_of_mem_analyzeFiles h
    have hknown := isKnown_of_isNew_knowing hdigests hread hlines hf hnew
    rw [mem_analyzeFiles_iff, hraw, find?_congr_of_mem (hsame hf hknown)] at h
    exact ⟨mem_analyzeFiles_iff.mpr h, hknown⟩
  · rintro ⟨h, hknown⟩
    have hf := (isNew_of_mem_analyzeFiles h).1
    rw [mem_analyzeFiles_iff, hraw', ← find?_congr_of_mem (hsame hf hknown)] at h
    exact mem_analyzeFiles_iff.mpr h

end

end

/-! ## Scans -/

/-- Settings that resolve the files in the same way report the same. -/
theorem analyzeFile_congr {cfg cfg' : Settings} {facts : FileFacts}
    (hhops : cfg'.maxHops = cfg.maxHops) (hregistry : cfg'.registry = cfg.registry)
    (hresolve : cfg'.resolve facts.path = cfg.resolve facts.path) :
    analyzeFile cfg' facts = analyzeFile cfg facts := by
  have hcheck : checkCall cfg' facts = checkCall cfg facts := by
    funext call
    unfold checkCall findingAt
    rw [hhops, hregistry, hresolve]
  unfold analyzeFile checkCalls
  rw [hcheck]

theorem analyzeFiles_congr (cfg : Settings) {files : List FileFacts} {resolve : String → String}
    (hresolve : ∀ a ∈ files, resolve a.path = cfg.resolve a.path) :
    analyzeFiles { cfg with resolve } files = analyzeFiles cfg files := by
  have hfile : ∀ a ∈ files, analyzeFile { cfg with resolve } a = analyzeFile cfg a :=
    fun a ha => analyzeFile_congr rfl rfl (hresolve a ha)
  have hraw : rawFindings { cfg with resolve } files = rawFindings cfg files := by
    unfold rawFindings
    rw [List.flatMap_def, List.flatMap_def, List.map_congr_left hfile]
  have hknown : ∀ f ∈ rawFindings cfg files,
      isKnown { cfg with resolve } f = isKnown cfg f := by
    intro f hf
    obtain ⟨a, ha, hfa⟩ := mem_rawFindings.mp hf
    unfold isKnown BaselineEntry.ofFinding
    rw [file_of_mem_analyzeFile hfa]
    dsimp only
    rw [hresolve a ha]
  unfold analyzeFiles newFindings
  rw [hraw]
  congr 2
  refine List.filter_congr fun f hf => ?_
  rw [hknown f hf]
  rfl

namespace Scan

variable {t t' : Files.Tree} {own : Preferences} {opts : Options} {s : Scanned}
  {parse : String → Python.Program}

/-- A scan comes by the same in another tree: the same source files with the same texts, under the
same canonical paths, and the same signatures. -/
structure Unchanged (t t' : Files.Tree) (own : Preferences) (opts : Options) : Prop where
  registry : registryOf t' own opts.catalog = registryOf t own opts.catalog
  place : ∀ names entry, t.locate true opts.path = .found names entry →
    ∃ entry', t'.locate true opts.path = .found names entry'
  sources : ∀ names entry, t.locate true opts.path = .found names entry →
    collect t' opts names = collect t opts names
  texts : ∀ names entry, t.locate true opts.path = .found names entry →
    ∀ path ∈ collect t opts names, t'.readText? path = t.readText? path
  paths : ∀ names entry, t.locate true opts.path = .found names entry →
    ∀ path ∈ collect t opts names, t'.resolve path = t.resolve path ∧
      t'.resolve (t.resolve path) = t.resolve (t.resolve path)

/-- What a scan does when it comes to a result. -/
theorem exists_of_run (h : run t own opts parse = .ok s) :
    ∃ names entry registry baseline, t.locate true opts.path = .found names entry ∧
      registryOf t own opts.catalog = .ok registry ∧ baselineOf t opts.baseline = .ok baseline ∧
      let marker := (opts.suppressComment.or own.suppressComment).getD defaultMarker
      let reading := readAll t marker (collect t opts names) parse
      let cfg : Settings :=
        { maxHops := (opts.maxHops.or own.maxHops).getD defaultMaxHops, baseline
          suppressMarker := some marker, registry, resolve := t.resolve }
      s =
        { findings := analyzeFiles cfg reading.units
          reading
          metrics := { Metrics.zero with parser := reading.counts }.afterAnalysis cfg reading.units
          settings := cfg } := by
  unfold run at h
  split at h
  · rename_i names entry hfound
    cases hregistry : registryOf t own opts.catalog with
    | error fault => simp [hregistry, bind, Except.bind] at h
    | ok registry =>
      cases hbaseline : baselineOf t opts.baseline with
      | error fault => simp [hregistry, hbaseline, bind, Except.bind] at h
      | ok baseline =>
        simp only [hregistry, hbaseline, bind, Except.bind, Except.ok.injEq] at h
        exact ⟨names, entry, registry, baseline, hfound, rfl, rfl, h.symm⟩
  · cases h

theorem run_eq_ok (h : run t own opts parse = .ok s) :
    ∃ names entry registry baseline, t.locate true opts.path = .found names entry ∧
      registryOf t own opts.catalog = .ok registry ∧ baselineOf t opts.baseline = .ok baseline ∧
      s.reading = readAll t ((opts.suppressComment.or own.suppressComment).getD defaultMarker)
        (collect t opts names) parse ∧
      s.settings =
        { maxHops := (opts.maxHops.or own.maxHops).getD defaultMaxHops, baseline
          suppressMarker := some ((opts.suppressComment.or own.suppressComment).getD defaultMarker)
          registry, resolve := t.resolve } ∧
      s.findings = analyzeFiles s.settings s.reading.units := by
  obtain ⟨names, entry, registry, baseline, hfound, hregistry, hbaseline, rfl⟩ := exists_of_run h
  exact ⟨names, entry, registry, baseline, hfound, hregistry, hbaseline, rfl, rfl, rfl⟩

theorem baselineOf_eq_ok {known : Baseline} {path : String}
    (hload : Baseline.load t path = .ok known) : baselineOf t (some path) = .ok (some known) := by
  unfold baselineOf
  simp only [hload]

theorem readAll_congr (parse : String → Python.Program) (marker : String) {paths : List String}
    (htexts : ∀ path ∈ paths, t'.readText? path = t.readText? path)
    (hpaths : ∀ path ∈ paths, t'.resolve path = t.resolve path) :
    readAll t' marker paths parse = readAll t marker paths parse := by
  have hunit : ∀ path ∈ paths,
      readUnit t' (some marker) path parse = readUnit t (some marker) path parse := by
    intro path hpath
    unfold readUnit
    rw [htexts path hpath, hpaths path hpath]
  unfold readAll
  rw [List.map_congr_left hunit]

/-- Each unit that was read stands under the canonical path of a source file. -/
theorem exists_path_of_unit {marker : String} {paths : List String} {a : FileFacts}
    (h : a ∈ (readAll t marker paths parse).units) : ∃ path ∈ paths, a.path = t.resolve path := by
  have hadd : ∀ (results : List ReadResult) (r : Reading), a ∈ (results.foldl Reading.add r).units →
      a ∈ r.units ∨ ∃ result ∈ results, result.facts? = some a := by
    intro results
    induction results with
    | nil => exact fun r ha => .inl ha
    | cons result results ih =>
      intro r ha
      rcases ih _ ha with ha | ⟨other, hother, hfacts⟩
      · rcases List.mem_append.mp ha with ha | ha
        · exact .inl ha
        · exact .inr ⟨result, List.mem_cons_self, by simpa using ha⟩
      · exact .inr ⟨other, List.mem_cons_of_mem _ hother, hfacts⟩
  rcases hadd _ _ h with h | ⟨result, hresult, hfacts⟩
  · cases h
  · obtain ⟨path, hpath, rfl⟩ := List.mem_map.mp hresult
    refine ⟨path, hpath, ?_⟩
    unfold readUnit at hfacts
    split at hfacts
    · split at hfacts
      · obtain rfl := Option.some.inj hfacts
        rfl
      · cases hfacts
    · cases hfacts

/-- The unit of the second scan are those of the first, and it resolves them in the same way. -/
theorem run_again {known : Baseline} {path : String} (hrun : run t own opts parse = .ok s)
    (hsame : Unchanged t t' own opts) (hload : Baseline.load t' path = .ok known) :
    ∃ s', run t' own { opts with baseline := some path } parse = .ok s' ∧
      s'.findings = analyzeFiles (s.settings.knowing known) s.reading.units := by
  obtain ⟨names, entry, registry, baseline, hfound, hregistry, _, hreading, hsettings, _⟩ :=
    run_eq_ok hrun
  obtain ⟨entry', hfound'⟩ := hsame.place names entry hfound
  have hregistry' := hsame.registry.trans hregistry
  have hcollect : collect t' { opts with baseline := some path } names = collect t opts names :=
    hsame.sources names entry hfound
  have hread := readAll_congr parse
    ((opts.suppressComment.or own.suppressComment).getD defaultMarker)
    (hsame.texts names entry hfound) fun p hp => (hsame.paths names entry hfound p hp).1
  have hresolve : ∀ a ∈ s.reading.units, t'.resolve a.path = s.settings.resolve a.path := by
    intro a ha
    rw [hreading] at ha
    obtain ⟨p, hp, hpath⟩ := exists_path_of_unit ha
    rw [hpath, hsettings]
    exact (hsame.paths names entry hfound p hp).2
  have hagain := analyzeFiles_congr (s.settings.knowing known) hresolve
  unfold run
  rw [hfound']
  simp only [hregistry', baselineOf, hload, hcollect, hread, bind, Except.bind]
  refine ⟨_, rfl, ?_⟩
  dsimp only
  rw [← hreading, ← hagain, hsettings]
  rfl

end Scan

/-! ## The written baseline -/

namespace Command

variable {o o' : Outcome} {path : String} {findings : List Finding}

/-- The file that was written says what is known. -/
theorem readText?_of_storeBaseline
    (h : o.storeBaseline (some path) findings = .ok o') :
    o'.tree.readText? path = some (Baseline.write o.tree.resolve findings) := by
  unfold Outcome.storeBaseline Outcome.writeFile? at h
  dsimp only at h
  split at h
  · rename_i written hwritten
    obtain rfl := Except.ok.inj h
    obtain ⟨tree, htree, rfl⟩ := Option.map_eq_some_iff.mp hwritten
    exact Files.Tree.readText?_of_write? htree
  · cases h

/-- A baseline can be written under a new name at the top. -/
theorem exists_stored (findings : List Finding) {children : List (String × Files.Entry)}
    {name : String}
    (hroot : o.tree.root = .dir children) (htop : Files.IsAtTop path name)
    (hvacant : Files.Entry.find? children name = none) :
    ∃ o', o.storeBaseline (some path) findings = .ok o' ∧
      o'.tree.root = .dir (Files.Entry.setChild children name
        (.file (Baseline.write o.tree.resolve findings).toUTF8)) := by
  unfold Outcome.storeBaseline Outcome.writeFile?
  dsimp only
  rw [htop.write? hroot hvacant]
  exact ⟨_, rfl, rfl⟩

end Command

/-- After a scan that wrote a baseline, a scan of the unchanged tree with that baseline and the
other options as before reports just the findings that the first scan did not report because of the
baseline it had itself. So it reports none if the first scan had no baseline. This does not depend
on how programs are read. -/
theorem a_second_scan_reports_what_the_first_baseline_hid (parse : String → Python.Program)
    (w : Command.World) (own : Scan.Preferences) (opts : Scan.Options) (path errors : String)
    (s : Scan.Scanned) (o : Command.Outcome) (hrun : Scan.run w.tree own opts parse = .ok s)
    (hstored : (w.ends 0 "" errors).storeBaseline (some path) s.findings = .ok o)
    (t : Files.Tree) (hsame : Scan.Unchanged w.tree t own opts)
    (hkept : t.readText? path = o.tree.readText? path)
    (hdigests : NoCollision ((rawFindings s.settings s.reading.units).map (idText s.settings)))
    (hlines : ∀ f ∈ s.findings, f.line < UInt64.size) :
    ∃ s', Scan.run t own { opts with baseline := some path } parse = .ok s' ∧
      (∀ f, f ∈ s'.findings ↔
        f ∈ analyzeFiles s.settings.unaware s.reading.units ∧ isKnown s.settings f = true) ∧
      (opts.baseline = none → s'.findings = []) := by
  obtain ⟨names, entry, registry, baseline, hfound, hregistry, hbaseline, hreading, hsettings,
    hfindings⟩ := Scan.run_eq_ok hrun
  have htext : t.readText? path = some (Baseline.write s.settings.resolve s.findings) := by
    rw [hkept, Command.readText?_of_storeBaseline hstored, hsettings]
    rfl
  have hread := Baseline.read?_write s.settings.resolve hlines
  generalize Baseline.ofEntries (Baseline.entriesOf s.settings.resolve s.findings) = known at hread
  have hload : Baseline.load t path = .ok known := Baseline.load_eq_ok htext hread
  obtain ⟨s', hrun', hagain⟩ := Scan.run_again hrun hsame hload
  have hreports : ∀ f, f ∈ s'.findings ↔
      f ∈ analyzeFiles s.settings.unaware s.reading.units ∧ isKnown s.settings f = true := by
    intro f
    rw [hfindings] at hread hlines
    rw [hagain]
    exact mem_analyzeFiles_knowing hdigests hread hlines
  refine ⟨s', hrun', hreports, ?_⟩
  intro hnone
  have hall : ∀ f, isKnown s.settings f = false := by
    intro f
    rw [hnone, Scan.baselineOf, Except.ok.injEq] at hbaseline
    unfold isKnown
    rw [hsettings, ← hbaseline]
  refine List.eq_nil_iff_forall_not_mem.mpr fun f hf => ?_
  have hknown := ((hreports f).mp hf).2
  rw [hall f] at hknown
  cases hknown

/-! ## One program -/

open Files

/-- A program that evaluates what a request holds. -/
def evaluatingText : String := "lxml.etree.XPath(request.args)\n"

/-- The facts of the program. -/
def evaluatingFacts : FileFacts :=
  (FileFacts.ofSource "/a.py" evaluatingText (some defaultMarker)).1

/-- A tree with the program at the top and no ignore files there. -/
structure HoldsProgram (t : Tree) (children : List (String × Entry)) : Prop where
  root : t.root = .dir children
  program : Entry.find? children "a.py" = some (.file evaluatingText.toUTF8)
  ignored : ∀ name ∈ ignoreFiles, Entry.find? children name = none

namespace HoldsProgram

variable {t t' : Tree} {children children' : List (String × Entry)} {baseline : Option Baseline}
  {opts : Scan.Options} {follow : Bool}

theorem isAtTop_program : IsAtTop "/a.py" "a.py" := ⟨rfl, by decide +kernel, by decide⟩

theorem locate_program (h : HoldsProgram t children) :
    t.locate follow "/a.py" = .found ["a.py"] (.file evaluatingText.toUTF8) :=
  isAtTop_program.found h.root h.program

theorem readText?_program (h : HoldsProgram t children) :
    t.readText? "/a.py" = some evaluatingText := by
  unfold Tree.readText? Tree.get?
  rw [h.locate_program]
  exact fromUTF8?_toUTF8 evaluatingText

theorem pathOf_program : Tree.pathOf ["a.py"] = "/a.py" := by decide +kernel

theorem resolve_program (h : HoldsProgram t children) : t.resolve "/a.py" = "/a.py" := by
  unfold Tree.resolve Tree.canonical?
  rw [h.locate_program]
  exact pathOf_program

theorem ignorePatterns_top (h : HoldsProgram t children) : t.ignorePatterns "/" = [] := by
  have hmissing : ∀ name ∈ ignoreFiles, t.readText? (Path.join "/" name) = none := by
    intro name hname
    have htop : IsAtTop (Path.join "/" name) name := by
      simp only [ignoreFiles, List.mem_cons, List.not_mem_nil, or_false] at hname
      rcases hname with rfl | rfl
      · exact ⟨by decide +kernel, by decide +kernel, by decide⟩
      · exact ⟨by decide +kernel, by decide +kernel, by decide⟩
    unfold Tree.readText? Tree.get?
    rw [htop.vacant h.root (h.ignored name hname)]
  unfold Tree.ignorePatterns
  rw [List.flatMap_eq_nil_iff]
  intro name hname
  rw [hmissing name hname]

/-- A scan of the program finds just its file. -/
theorem collect_program (h : HoldsProgram t children) (baseline : Option String) :
    Scan.collect t { Scan.Options.ofPath "/a.py" with baseline } ["a.py"] = ["/a.py"] := by
  have hdir : t.isDir "/a.py" = false := by
    unfold Tree.isDir Tree.get?
    rw [h.locate_program]
  have hexclusion : Scan.exclusionOf t { Scan.Options.ofPath "/a.py" with baseline } ["a.py"] =
      ⟨defaultPatterns, Scan.defaultMaxFileSize⟩ := by
    have hhome : Tree.pathOf ["a.py"].dropLast = "/" := by decide +kernel
    unfold Scan.exclusionOf
    simp only [pathOf_program, hdir, hhome]
    simp [h.ignorePatterns_top, Scan.Options.ofPath]
  have hsize : t.fileSize? "/a.py" = some evaluatingText.toUTF8.size := by
    unfold Tree.fileSize? Tree.get?
    rw [h.locate_program]
  have hkept : (Exclusion.mk defaultPatterns Scan.defaultMaxFileSize).excludes t "/a.py" =
      false := by
    have hpatterns : (Exclusion.mk defaultPatterns Scan.defaultMaxFileSize).matchesPath "/a.py" =
        false := by decide +kernel
    unfold Exclusion.excludes Exclusion.isTooLarge
    rw [hpatterns, hsize]
    decide +kernel
  have hpython : Path.isPython "/a.py" = true := by decide +kernel
  unfold Scan.collect Tree.walk?
  rw [hexclusion, pathOf_program, hkept, h.locate_program]
  simp [filesBelow, hkept, hpython]

/-- Nothing that a scan comes by differs between two such trees. -/
theorem unchanged (h : HoldsProgram t children) (h' : HoldsProgram t' children')
    (baseline : Option String) :
    Scan.Unchanged t t' .none { Scan.Options.ofPath "/a.py" with baseline } := by
  have hplace : ∀ {names : List String} {entry : Entry},
      t.locate true "/a.py" = .found names entry → names = ["a.py"] := by
    intro names entry hfound
    rw [h.locate_program, Location.found.injEq] at hfound
    exact hfound.1.symm
  refine ⟨rfl, ?_, ?_, ?_, ?_⟩
  · intro names entry hfound
    obtain rfl := hplace hfound
    exact ⟨_, h'.locate_program⟩
  · intro names entry hfound
    obtain rfl := hplace hfound
    rw [h.collect_program, h'.collect_program]
  · intro names entry hfound path hpath
    obtain rfl := hplace hfound
    rw [h.collect_program, List.mem_singleton] at hpath
    rw [hpath, h.readText?_program, h'.readText?_program]
  · intro names entry hfound path hpath
    obtain rfl := hplace hfound
    rw [h.collect_program, List.mem_singleton] at hpath
    rw [hpath, h.resolve_program, h'.resolve_program, h.resolve_program]
    exact ⟨rfl, rfl⟩

/-- What a scan of the program reports with a baseline. -/
theorem exists_run (h : HoldsProgram t children) {known : Option String}
    (hbaseline : Scan.baselineOf t known = .ok baseline) :
    ∃ s, Scan.run t .none { Scan.Options.ofPath "/a.py" with baseline := known } = .ok s ∧
      s.reading.units = [evaluatingFacts] ∧
      s.settings = { Settings.default with baseline, resolve := t.resolve } ∧
      s.findings = analyzeFiles { Settings.default with baseline } [evaluatingFacts] := by
  have hunits : (Scan.readAll t defaultMarker ["/a.py"]).units = [evaluatingFacts] := by
    have hpython : Path.isPython "/a.py" = true := by decide +kernel
    simp [Scan.readAll, Scan.readUnit, hpython, h.readText?_program, h.resolve_program,
      Scan.Reading.add, Scan.Reading.empty, Scan.ReadResult.facts?, evaluatingFacts]
  have hresolve : ∀ a ∈ [evaluatingFacts], t.resolve a.path = a.path := by
    intro a ha
    rw [List.mem_singleton.mp ha]
    exact h.resolve_program
  have hcongr := analyzeFiles_congr { Settings.default with baseline } hresolve
  unfold Scan.run
  rw [show (Scan.Options.ofPath "/a.py").path = "/a.py" from rfl, h.locate_program]
  simp only [hbaseline, h.collect_program, bind, Except.bind]
  refine ⟨_, rfl, hunits, rfl, ?_⟩
  dsimp only
  rw [← hcongr]
  exact congrArg (analyzeFiles _) hunits

end HoldsProgram

/-- The entry of the finding in the program. -/
def evaluatingEntry : BaselineEntry :=
  ⟨"a862bfa2be9e55da6834b50e0c8ac6b332dedf5b7f8f9b2e7632a17c58949efd", "/a.py", 1⟩

/-- The program beside a baseline that knows its finding. -/
def evaluatingChildren : List (String × Entry) :=
  [("a.py", .file evaluatingText.toUTF8),
   ("b0.json", .file (Json.array [evaluatingEntry.toJson]).pretty.toUTF8)]

def evaluatingWorld : Command.World :=
  { tree := ⟨.dir evaluatingChildren, []⟩, env := [], isTerminal := false }

/-- The options of a scan of the program with a baseline. -/
def scanWith (baseline : String) : Scan.Options :=
  { Scan.Options.ofPath "/a.py" with baseline := some baseline }

theorem holdsProgram_evaluatingWorld : HoldsProgram evaluatingWorld.tree evaluatingChildren := by
  refine ⟨rfl, rfl, fun name hname => ?_⟩
  have hother : ∀ name ∈ ignoreFiles, name ≠ "a.py" ∧ name ≠ "b0.json" := by decide
  obtain ⟨hprogram, hbaseline⟩ := hother name hname
  simp [evaluatingChildren, Entry.find?, hprogram.symm, hbaseline.symm]

/-- The baseline beside the program knows its finding. -/
theorem baselineOf_evaluatingWorld :
    Scan.baselineOf evaluatingWorld.tree (some "/b0.json") = .ok (some [evaluatingEntry]) := by
  have htext : evaluatingWorld.tree.readText? "/b0.json" =
      some (Json.array [evaluatingEntry.toJson]).pretty := by
    have htop : IsAtTop "/b0.json" "b0.json" := ⟨rfl, by decide +kernel, by decide⟩
    have hfile : Entry.find? evaluatingChildren "b0.json" =
        some (.file (Json.array [evaluatingEntry.toJson]).pretty.toUTF8) := rfl
    unfold Tree.readText? Tree.get?
    rw [htop.found holdsProgram_evaluatingWorld.root hfile]
    exact fromUTF8?_toUTF8 _
  have hone : Baseline.ofEntries [evaluatingEntry] = [evaluatingEntry] := rfl
  have hread := Baseline.read?_pretty [evaluatingEntry] (by decide)
  rw [List.map_singleton, hone] at hread
  exact Scan.baselineOf_eq_ok (Baseline.load_eq_ok htext hread)

/-- The tree after a scan that wrote a baseline still holds the program. -/
theorem holdsProgram_stored {content : ByteArray} {t : Tree}
    (h : t.root = .dir (Entry.setChild evaluatingChildren "b1.json" (.file content))) :
    HoldsProgram t (Entry.setChild evaluatingChildren "b1.json" (.file content)) := by
  refine ⟨h, ?_, ?_⟩
  · rw [Entry.find?_setChild_other (by decide)]
    rfl
  · intro name hname
    rw [Entry.find?_setChild_other (by rintro rfl; exact absurd hname (by decide))]
    exact holdsProgram_evaluatingWorld.ignored name hname

theorem isAtTop_written : IsAtTop "/b1.json" "b1.json" := ⟨rfl, by decide +kernel, by decide⟩

/-- The first scan reports nothing as its baseline knows the finding, so it writes an empty one. -/
theorem analyzeFiles_evaluating :
    analyzeFiles { Settings.default with baseline := some [evaluatingEntry] } [evaluatingFacts] =
      [] := by
  decide +kernel

theorem noCollision_of_length_le_one {texts : List String} (h : texts.length ≤ 1) :
    NoCollision texts := by
  intro a ha b hb _
  match texts with
  | [] => cases ha
  | [text] => rw [List.mem_singleton.mp ha, List.mem_singleton.mp hb]
  | _ :: _ :: _ => simp at h

theorem a_second_scan_reports_what_the_first_baseline_hid_of_a_program :
    ∃ s o s', Scan.run evaluatingWorld.tree .none (scanWith "/b0.json") = .ok s ∧
      (evaluatingWorld.ends 0 "" "").storeBaseline (some "/b1.json") s.findings = .ok o ∧
      Scan.Unchanged evaluatingWorld.tree o.tree .none (scanWith "/b0.json") ∧
      NoCollision ((rawFindings s.settings s.reading.units).map (idText s.settings)) ∧
      Scan.run o.tree .none (scanWith "/b1.json") = .ok s' ∧
      ∀ f, f ∈ s'.findings ↔
        f ∈ analyzeFiles s.settings.unaware s.reading.units ∧ isKnown s.settings f = true := by
  obtain ⟨s, hrun, hunits, hsettings, hfindings⟩ :=
    holdsProgram_evaluatingWorld.exists_run baselineOf_evaluatingWorld
  rw [analyzeFiles_evaluating] at hfindings
  obtain ⟨o, hstored, hroot⟩ := Command.exists_stored (o := evaluatingWorld.ends 0 "" "")
    s.findings holdsProgram_evaluatingWorld.root isAtTop_written rfl
  have hsame := holdsProgram_evaluatingWorld.unchanged (holdsProgram_stored hroot) (some "/b0.json")
  have hdigests :
      NoCollision ((rawFindings s.settings s.reading.units).map (idText s.settings)) := by
    have hcalls : evaluatingFacts.calls.length = 1 := by decide +kernel
    have hone : (analyzeFile s.settings evaluatingFacts).length ≤ 1 := by
      rw [← hcalls, ← List.length_map (f := checkCall s.settings evaluatingFacts)]
      exact List.length_filterMap_le _ _
    rw [hunits]
    exact noCollision_of_length_le_one (by simpa [rawFindings] using hone)
  obtain ⟨s', hrun', hreports, _⟩ := a_second_scan_reports_what_the_first_baseline_hid .read
    evaluatingWorld .none (scanWith "/b0.json") "/b1.json" "" s o hrun hstored o.tree hsame rfl
    hdigests (by simp [hfindings])
  exact ⟨s, o, s', hrun, hstored, hsame, hdigests, hrun', hreports⟩

/-- A scan that had a baseline wrote another one, and a scan with that one reports a finding. -/
theorem a_baseline_written_beside_another_does_not_silence :
    ∃ s o s', Scan.run evaluatingWorld.tree .none (scanWith "/b0.json") = .ok s ∧
      (evaluatingWorld.ends 0 "" "").storeBaseline (some "/b1.json") s.findings = .ok o ∧
      Scan.Unchanged evaluatingWorld.tree o.tree .none (scanWith "/b0.json") ∧
      Scan.run o.tree .none (scanWith "/b1.json") = .ok s' ∧
      s'.findings.map Finding.location = [("/a.py", 1, 18)] := by
  obtain ⟨s, hrun, _, _, hfindings⟩ :=
    holdsProgram_evaluatingWorld.exists_run baselineOf_evaluatingWorld
  rw [analyzeFiles_evaluating] at hfindings
  obtain ⟨o, hstored, hroot⟩ := Command.exists_stored (o := evaluatingWorld.ends 0 "" "")
    s.findings holdsProgram_evaluatingWorld.root isAtTop_written rfl
  have hholds := holdsProgram_stored hroot
  have hload : Scan.baselineOf o.tree (some "/b1.json") = .ok (some []) := by
    have hlines : ∀ f ∈ ([] : List Finding), f.line < UInt64.size := by simp
    have hread := Baseline.read?_write evaluatingWorld.tree.resolve hlines
    have hempty : Baseline.ofEntries (Baseline.entriesOf evaluatingWorld.tree.resolve []) = [] := by
      simp [Baseline.entriesOf, Baseline.ofEntries]
    have htext := Command.readText?_of_storeBaseline hstored
    rw [hfindings] at htext
    rw [hempty] at hread
    exact Scan.baselineOf_eq_ok (Baseline.load_eq_ok htext hread)
  obtain ⟨s', hrun', _, _, hfindings'⟩ := hholds.exists_run hload
  refine ⟨s, o, s', hrun, hstored, holdsProgram_evaluatingWorld.unchanged hholds _, hrun', ?_⟩
  rw [hfindings']
  decide +kernel

end XPathTaint
