import Mathlib.Data.List.Perm.Subperm
import XPathTaint.Finding.BaselineFile
import XPathTaint.Proofs.RecordFields
import XPathTaint.Proofs.ReportedFindings
import XPathTaint.Proofs.TreeWriting

-- What a baseline knows: the entries of a list of findings are read back from the text that is
-- written for it, and they hide those findings and no other, with all that was found at their
-- places.

namespace XPathTaint

open Std

/-! ## Entries -/

namespace BaselineEntry

variable {a b e : BaselineEntry}

theorem matches?_iff : a.matches? b = true ↔
    a.id = b.id ∧ a.line = b.line ∧ Path.same a.file b.file = true := by
  simp [matches?, and_assoc]

theorem matches?_trans {c : BaselineEntry} (h : a.matches? b = true) (h' : b.matches? c = true) :
    a.matches? c = true := by
  obtain ⟨hid, hline, hfile⟩ := matches?_iff.mp h
  obtain ⟨hid', hline', hfile'⟩ := matches?_iff.mp h'
  refine matches?_iff.mpr ⟨hid.trans hid', hline.trans hline', ?_⟩
  simp only [Path.same, beq_iff_eq] at hfile hfile' ⊢
  exact hfile.trans hfile'

/-- An entry is read back as it was written. -/
theorem ofJson?_toJson (h : e.line < UInt64.size) : ofJson? e.toJson = some e := by
  unfold ofJson? toJson
  rw [Json.fields?_object (by simp)]
  simp [List.lookup_cons, Json.asNat?_nat h]

theorem isWhole_toJson (h : e.line < UInt64.size) : e.toJson.IsWhole := by
  simp [toJson, Json.IsWhole.nat h]

theorem compare_eq_lex :
    BaselineEntry.compare = compareLex (fun a b => Path.compare a.file b.file)
      (compareLex (compareOn BaselineEntry.line) (compareOn BaselineEntry.id)) := rfl

instance : TransCmp BaselineEntry.compare := by
  have hfile : TransCmp fun a b : BaselineEntry => Path.compare a.file b.file :=
    { eq_swap := OrientedCmp.eq_swap, isLE_trans := TransCmp.isLE_trans }
  rw [compare_eq_lex]
  infer_instance

theorem id_eq_of_compare (h : a.compare b = .eq) : a.id = b.id := by
  unfold BaselineEntry.compare at h
  rw [Ordering.then_eq_eq, Ordering.then_eq_eq] at h
  exact LawfulEqOrd.eq_of_compare h.2.2

end BaselineEntry

/-! ## Baselines -/

namespace Baseline

variable {known : Baseline} {e k : BaselineEntry} {es : List BaselineEntry}

theorem contains_iff : known.contains e = true ↔ ∃ k ∈ known, k.matches? e = true := by
  simp [contains]

/-- A baseline of entries knows what matches one of them. -/
theorem contains_ofEntries : (ofEntries es).contains e = true ↔ ∃ k ∈ es, k.matches? e = true := by
  have hfold : ∀ known : Baseline,
      (es.foldl (fun known e => if Baseline.contains known e then known else known ++ [e])
        known).contains e = true ↔
      known.contains e = true ∨ ∃ k ∈ es, k.matches? e = true := by
    induction es with
    | nil => simp
    | cons first es ih =>
      intro known
      rw [List.foldl_cons, ih]
      have hfirst : (if Baseline.contains known first then known else known ++ [first]).contains e =
          true ↔ known.contains e = true ∨ first.matches? e = true := by
        by_cases hknown : known.contains first = true
        · rw [if_pos hknown]
          constructor
          · exact Or.inl
          · rintro (hmem | hmatch)
            · exact hmem
            · obtain ⟨k, hk, hkfirst⟩ := contains_iff.mp hknown
              exact contains_iff.mpr ⟨k, hk, BaselineEntry.matches?_trans hkfirst hmatch⟩
        · rw [if_neg hknown]
          simp [contains]
      rw [hfirst, or_assoc]
      simp
  have hempty : Baseline.contains [] e = false := rfl
  unfold ofEntries
  rw [hfold]
  simp [hempty]

/-- The entries of findings in the order in which they are written. -/
def entriesOf (resolve : String → String) (findings : List Finding) : List BaselineEntry :=
  (findings.map (BaselineEntry.ofFinding resolve)).mergeSort fun a b => (a.compare b).isLE

variable {resolve : String → String} {fs gs : List Finding}

/-- Entries are read back as they were written. -/
theorem read?_pretty (es : List BaselineEntry) (h : ∀ e ∈ es, e.line < UInt64.size) :
    read? (Json.array (es.map BaselineEntry.toJson)).pretty = some (ofEntries es) := by
  have hwhole : (Json.array (es.map BaselineEntry.toJson)).IsWhole :=
    Json.isWhole_map fun e he => BaselineEntry.isWhole_toJson (h e he)
  have hitems : Json.asList? BaselineEntry.ofJson? (.array (es.map BaselineEntry.toJson)) =
      some es :=
    Json.asList?_map fun e he => BaselineEntry.ofJson?_toJson (h e he)
  unfold read?
  rw [hwhole.read?_pretty, Option.bind_some, ofJson?, hitems]
  rfl

/-- What was written for findings is read back as the baseline of their entries. -/
theorem read?_write (resolve : String → String) (h : ∀ f ∈ fs, f.line < UInt64.size) :
    read? (write resolve fs) = some (ofEntries (entriesOf resolve fs)) := by
  have hlines : ∀ e ∈ entriesOf resolve fs, e.line < UInt64.size := by
    intro e he
    unfold entriesOf at he
    rw [List.mem_mergeSort, List.mem_map] at he
    obtain ⟨f, hf, rfl⟩ := he
    exact h f hf
  exact read?_pretty _ hlines

/-- A baseline that was written for findings knows what matches the entry of one of them. -/
theorem contains_of_read (hread : read? (write resolve fs) = some known)
    (h : ∀ f ∈ fs, f.line < UInt64.size) : known.contains e = true ↔
      ∃ f ∈ fs, (BaselineEntry.ofFinding resolve f).matches? e = true := by
  rw [read?_write resolve h, Option.some.injEq] at hread
  rw [← hread, contains_ofEntries]
  simp [entriesOf, List.mem_mergeSort]

theorem load_eq_ok {t : Files.Tree} {path text : String} (htext : t.readText? path = some text)
    (hread : read? text = some known) : load t path = .ok known := by
  unfold load
  rw [htext]
  simp only [hread]

/-- A baseline that was stored in a file is loaded from there. -/
theorem load_of_store {t t' : Files.Tree} {path : String} (hstore : store t path fs = .ok t')
    (hread : read? (write t.resolve fs) = some known) : load t' path = .ok known := by
  unfold store at hstore
  split at hstore
  · rename_i stored hwrite
    obtain rfl := Except.ok.inj hstore
    exact load_eq_ok (Files.Tree.readText?_of_write? hwrite) hread
  · cases hstore

/-- The order of findings with ids of their own does not matter. -/
theorem write_perm (hids : fs.Pairwise fun f g => f.id ≠ g.id) (hperm : fs.Perm gs) :
    write resolve gs = write resolve fs := by
  have hentries : (gs.map (BaselineEntry.ofFinding resolve)).Perm
      (fs.map (BaselineEntry.ofFinding resolve)) := hperm.symm.map _
  have hsorted : (entriesOf resolve gs).Perm (entriesOf resolve fs) :=
    (List.mergeSort_perm _ _).trans (hentries.trans (List.mergeSort_perm _ _).symm)
  have heq : entriesOf resolve gs = entriesOf resolve fs := by
    refine hsorted.eq_of_pairwise ?_ (pairwise_isLE_mergeSort _) (pairwise_isLE_mergeSort _)
    intro a b ha hb hab hba
    have htie : a.compare b = .eq := OrientedCmp.isLE_antisymm hab hba
    unfold entriesOf at ha hb
    rw [List.mem_mergeSort, List.mem_map] at ha hb
    obtain ⟨f, hf, rfl⟩ := ha
    obtain ⟨g, hg, rfl⟩ := hb
    have hid : f.id = g.id := BaselineEntry.id_eq_of_compare htie
    have hsymm : Std.Symm fun f g : Finding => f.id ≠ g.id := ⟨fun _ _ hne => hne.symm⟩
    have hfg : f = g := by
      by_contra hne
      exact hids.forall (hperm.mem_iff.mpr hf) hg hne hid
    rw [hfg]
  unfold write
  rw [← entriesOf, ← entriesOf, heq]

end Baseline

/-! ## Known findings -/

section

variable {cfg : Settings} {files : List FileFacts} {known : Baseline} {hidden : List Finding}
  {f g : Finding}

/-- The settings with a baseline. -/
def Settings.knowing (cfg : Settings) (known : Baseline) : Settings :=
  { cfg with baseline := some known }

/-- What a baseline written for findings knows has the id, line and resolved file of one of them. -/
theorem isKnown_of_read (hread : Baseline.read? (Baseline.write cfg.resolve hidden) = some known)
    (hlines : ∀ f ∈ hidden, f.line < UInt64.size) :
    isKnown (cfg.knowing known) f = true ↔
      ∃ g ∈ hidden, g.id = f.id ∧ g.line = f.line ∧
        Path.same (cfg.resolve g.file) (cfg.resolve f.file) = true := by
  unfold isKnown Settings.knowing
  rw [Baseline.contains_of_read hread hlines]
  simp [BaselineEntry.matches?_iff, BaselineEntry.ofFinding]

theorem Apart.knowing (h : Apart cfg files) (known : Baseline) : Apart (cfg.knowing known) files :=
  ⟨h.paths, h.resolved, h.digests⟩

theorem Apart.mem_raw (h : Apart cfg files) (hf : f ∈ analyzeFiles cfg files) :
    f ∈ rawFindings cfg files := List.mem_of_find?_eq_some (h.mem_analyzeFiles.mp hf).2

/-- Reported findings are told apart by their ids. -/
theorem pairwise_id_analyzeFiles (cfg : Settings) (files : List FileFacts) :
    (analyzeFiles cfg files).Pairwise fun f g => f.id ≠ g.id := by
  unfold analyzeFiles
  rw [(List.mergeSort_perm _ _).pairwise_iff fun hne => hne.symm]
  exact pairwise_firstOfEach _

/-- Reported findings are known again by their places. -/
theorem Apart.isKnown_iff (h : Apart cfg files)
    (hread : Baseline.read? (Baseline.write cfg.resolve hidden) = some known)
    (hlines : ∀ f ∈ hidden, f.line < UInt64.size) (hsub : ∀ g ∈ hidden, g ∈ rawFindings cfg files)
    (hf : f ∈ rawFindings cfg files) :
    isKnown (cfg.knowing known) f = true ↔ ∃ g ∈ hidden, g.location = f.location := by
  rw [isKnown_of_read hread hlines]
  constructor
  · rintro ⟨g, hg, hid, _⟩
    exact ⟨g, hg, (h.id_eq_iff (hsub g hg) hf).mp hid⟩
  · rintro ⟨g, hg, hlocation⟩
    have hid := (h.id_eq_iff (hsub g hg) hf).mpr hlocation
    simp only [Finding.location, Prod.mk.injEq] at hlocation
    refine ⟨g, hg, hid, hlocation.2.1, ?_⟩
    rw [hlocation.1]
    exact Path.same_self _

/-- Of the findings that would be reported, a baseline knows those it was written for. -/
theorem Apart.isKnown_iff_mem (h : Apart cfg files)
    (hread : Baseline.read? (Baseline.write cfg.resolve hidden) = some known)
    (hlines : ∀ f ∈ hidden, f.line < UInt64.size)
    (hsub : ∀ g ∈ hidden, g ∈ analyzeFiles cfg files)
    (hfirst : (rawFindings cfg files).find? (fun g => g.location == f.location) = some f) :
    isKnown (cfg.knowing known) f = true ↔ f ∈ hidden := by
  rw [h.isKnown_iff hread hlines (fun g hg => h.mem_raw (hsub g hg))
    (List.mem_of_find?_eq_some hfirst)]
  constructor
  · rintro ⟨g, hg, hlocation⟩
    -- both are the first at this place
    have hgfirst := (h.mem_analyzeFiles.mp (hsub g hg)).2
    rw [hlocation, hfirst] at hgfirst
    rwa [Option.some.inj hgfirst]
  · exact fun hf => ⟨f, hf, rfl⟩

end

/-- With a baseline that was written for some of the findings, in any order, the analysis reports
the others as before: those findings are hidden and no other. The text of a baseline does not
depend on the order of the findings, and it is the same baseline if it is stored in a file. -/
theorem a_baseline_hides_exactly_its_findings (cfg : Settings) (files : List FileFacts)
    (h : Apart cfg files) (hnone : cfg.baseline = none) (hidden : List Finding)
    (hsub : hidden.Subperm (analyzeFiles cfg files))
    (hlines : ∀ f ∈ hidden, f.line < UInt64.size) :
    ∃ known, Baseline.read? (Baseline.write cfg.resolve hidden) = some known ∧
      (∀ t t' : Files.Tree, ∀ path, t.resolve = cfg.resolve →
        Baseline.store t path hidden = .ok t' → Baseline.load t' path = .ok known) ∧
      analyzeFiles (cfg.knowing known) files =
        (analyzeFiles cfg files).filter (fun f => f ∉ hidden) ∧
      ∀ hidden', hidden.Perm hidden' →
        Baseline.write cfg.resolve hidden' = Baseline.write cfg.resolve hidden := by
  have hread := Baseline.read?_write cfg.resolve hlines
  generalize Baseline.ofEntries (Baseline.entriesOf cfg.resolve hidden) = known at hread
  refine ⟨known, hread, ?_, ?_, ?_⟩
  · intro t t' path hresolve hstore
    exact Baseline.load_of_store hstore (by rw [hresolve, hread])
  · refine eq_of_pairwise_lt (h.knowing known).pairwise_lt (h.pairwise_lt.filter _) ?_
    intro f
    rw [List.mem_filter, decide_eq_true_eq, (h.knowing known).mem_analyzeFiles, h.mem_analyzeFiles,
      and_assoc, and_comm (a := isNew cfg files f = true), and_assoc,
      and_comm (a := isNew (cfg.knowing known) files f = true)]
    refine and_congr_right fun hfirst => ?_
    have hknown := h.isKnown_iff_mem hread hlines (fun g hg => hsub.subset hg) hfirst
    have hall : isKnown cfg f = false := by
      unfold isKnown
      rw [hnone]
    have hsilenced : isSilenced (cfg.knowing known) files f = isSilenced cfg files f := rfl
    unfold isNew
    rw [hsilenced, hall, ← hknown]
    simp [and_comm]
  · intro hidden' hperm
    obtain ⟨l, hl, hsublist⟩ := hsub
    have hids := (pairwise_id_analyzeFiles cfg files).sublist hsublist
    exact Baseline.write_perm ((hl.pairwise_iff fun hne => hne.symm).mp hids) hperm

/-- Settings under which no comment silences a finding. -/
def withoutMarker : Settings := { Settings.default with suppressMarker := none }

theorem a_baseline_hides_exactly_its_findings_of_two_files :
    Apart withoutMarker evaluations ∧
      ∃ f ∈ analyzeFiles withoutMarker evaluations, f.location = ("b.py", 4, 13) ∧
        ∃ known, Baseline.read? (Baseline.write id [f]) = some known ∧
          f ∉ analyzeFiles (withoutMarker.knowing known) evaluations ∧
          ∃ g ∈ analyzeFiles (withoutMarker.knowing known) evaluations,
            g.location = ("a.py", 4, 13) := by
  have h : Apart withoutMarker evaluations :=
    { paths := by decide +kernel
      resolved := by decide +kernel
      digests := noCollision_of_nodup (by decide +kernel) }
  obtain ⟨f, hf, hflocation⟩ := (h.exists_location_iff ("b.py", 4, 13)).mpr (by decide +kernel)
  obtain ⟨g, hg, hglocation⟩ := (h.exists_location_iff ("a.py", 4, 13)).mpr (by decide +kernel)
  have hline : f.line = 4 := congrArg (fun l : String × Nat × Nat => l.2.1) hflocation
  obtain ⟨known, hread, _, hrest, _⟩ := a_baseline_hides_exactly_its_findings withoutMarker
    evaluations h rfl [f] (List.singleton_subperm_iff.mpr hf) (by simp [hline, UInt64.size])
  have hne : g ≠ f := by
    rintro rfl
    rw [hflocation] at hglocation
    exact absurd hglocation (by decide)
  refine ⟨h, f, hf, hflocation, known, hread, ?_, g, ?_, hglocation⟩
  · simp [hrest]
  · simp [hrest, hg, hne]

end XPathTaint
