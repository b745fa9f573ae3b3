import Mathlib.Algebra.Ring.Nat
import XPathTaint.Proofs.ReportedFindings

-- What the counts say after several analyses with settings of their own. The sinks and the findings
-- left out are summed up over all of them; the number of findings is that of the last one.

namespace XPathTaint

/-! ## What becomes of raw findings -/

/-- Whether a finding is left out: the baseline knows it, a comment silences it, or both. -/
def isRemoved (cfg : Settings) (files : List FileFacts) (f : Finding) : Bool :=
  isKnown cfg f || isSilenced cfg files f

/-- The findings whose id an earlier one has, given the ids that came before. -/
def repeatsOf (ids : List String) : List Finding → List Finding
  | [] => []
  | f :: rest => if f.id ∈ ids then f :: repeatsOf ids rest else repeatsOf (f.id :: ids) rest

/-- Each finding is the first of its id or repeats it. -/
theorem length_foldl_keepNew {fs kept : List Finding} {ids : List String}
    (hids : ∀ id, id ∈ ids ↔ ∃ k ∈ kept, k.id = id) :
    (fs.foldl keepNew kept).length + (repeatsOf ids fs).length = kept.length + fs.length := by
  induction fs generalizing kept ids with
  | nil => rfl
  | cons f fs ih =>
    rw [List.foldl_cons, repeatsOf]
    by_cases hknown : f.id ∈ ids
    · have hfold := ih hids
      rw [if_pos hknown, keepNew_known ((hids f.id).mp hknown), List.length_cons, List.length_cons]
      omega
    · have hids' : ∀ id, id ∈ f.id :: ids ↔ ∃ k ∈ kept ++ [f], k.id = id := by
        intro id
        rw [List.mem_cons, hids]
        simp [or_and_right, exists_or, eq_comm, or_comm]
      have hfold := ih hids'
      rw [if_neg hknown, keepNew_new fun h => hknown ((hids f.id).mpr h), List.length_cons]
      rw [List.length_append, List.length_singleton] at hfold
      omega

theorem length_firstOfEach (fs : List Finding) :
    (firstOfEach fs).length + (repeatsOf [] fs).length = fs.length := by
  rw [firstOfEach_eq, length_foldl_keepNew (by simp), List.length_nil, Nat.zero_add]

/-- A finding is left out unless it is new. -/
theorem length_newFindings (cfg : Settings) (files : List FileFacts) :
    (newFindings cfg files).length + ((rawFindings cfg files).filter (isRemoved cfg files)).length =
      (rawFindings cfg files).length := by
  have hremoved : isRemoved cfg files = fun f => !isNew cfg files f := by
    funext f
    simp [isRemoved, isNew]
  rw [newFindings_eq, hremoved]
  exact (List.length_eq_length_filter_add _).symm

/-! ## Sinks -/

theorem checkCall_isSink (cfg : Settings) (facts : FileFacts) (call : CallSite) :
    (checkCall cfg facts call).isSink = (sinkOf facts cfg.registry cfg.maxHops call).1.isSome := by
  unfold checkCall
  split
  · rename_i h
    rw [h]
    rfl
  · rename_i h
    rw [h]
    dsimp only
    split <;> rfl

/-- The call sites of a unit that evaluate an XPath expression. -/
def sinkCalls (cfg : Settings) (facts : FileFacts) : List CallSite :=
  facts.calls.filter fun call => (sinkOf facts cfg.registry cfg.maxHops call).1.isSome

theorem sinkCount_eq (cfg : Settings) (facts : FileFacts) :
    sinkCount cfg facts = (sinkCalls cfg facts).length := by
  unfold sinkCount checkCalls sinkCalls
  rw [List.filter_map, List.length_map]
  congr 2
  funext call
  exact checkCall_isSink cfg facts call

theorem foldl_sinkCount (cfg : Settings) (files : List FileFacts) (n : Nat) :
    files.foldl (fun n f => n + sinkCount cfg f) n =
      n + (files.flatMap (sinkCalls cfg)).length := by
  induction files generalizing n with
  | nil => rfl
  | cons f files ih =>
    rw [List.foldl_cons, ih, List.flatMap_cons, List.length_append, sinkCount_eq, Nat.add_assoc]

/-! ## Sessions -/

/-- One analysis: the settings at its time, and the units. -/
structure Analysis where
  settings : Settings
  files : List FileFacts

namespace Analysis

/-- All that an analysis finds. -/
def raw (a : Analysis) : List Finding := rawFindings a.settings a.files

/-- What an analysis reports. -/
def reported (a : Analysis) : List Finding := analyzeFiles a.settings a.files

/-- What the baseline or a comment leaves out, each once. -/
def removed (a : Analysis) : List Finding := a.raw.filter (isRemoved a.settings a.files)

/-- What is left out because its id was reported before. -/
def repeated (a : Analysis) : List Finding := repeatsOf [] (newFindings a.settings a.files)

/-- The call sites that evaluate an XPath expression. -/
def sinks (a : Analysis) : List CallSite := a.files.flatMap (sinkCalls a.settings)

/-- Every raw finding is reported, left out or repeated. -/
theorem length_raw (a : Analysis) :
    a.raw.length = a.reported.length + a.removed.length + a.repeated.length := by
  have hnew := length_newFindings a.settings a.files
  have hfirst := length_firstOfEach (newFindings a.settings a.files)
  have hsort : a.reported.length = (firstOfEach (newFindings a.settings a.files)).length :=
    List.length_mergeSort _
  unfold raw removed repeated
  rw [hsort]
  unfold raw
  omega

end Analysis

/-- The counts after several analyses in turn. -/
def Metrics.afterAnalyses (m : Metrics) (analyses : List Analysis) : Metrics :=
  analyses.foldl (fun m a => m.afterAnalysis a.settings a.files) m

/-- What one analysis adds to the counts. -/
theorem Metrics.afterAnalysis_counts (m : Metrics) (a : Analysis) :
    (m.afterAnalysis a.settings a.files).findings = a.reported.length ∧
      (m.afterAnalysis a.settings a.files).sinksChecked = m.sinksChecked + a.sinks.length ∧
      (m.afterAnalysis a.settings a.files).suppressed = m.suppressed + a.removed.length := by
  refine ⟨rfl, foldl_sinkCount _ _ _, ?_⟩
  have hnew := length_newFindings a.settings a.files
  unfold Metrics.afterAnalysis Analysis.removed Analysis.raw
  dsimp only
  omega

theorem Metrics.afterAnalyses_sums (m : Metrics) (analyses : List Analysis) :
    (m.afterAnalyses analyses).sinksChecked =
        m.sinksChecked + (analyses.map (·.sinks.length)).sum ∧
      (m.afterAnalyses analyses).suppressed =
        m.suppressed + (analyses.map (·.removed.length)).sum := by
  induction analyses generalizing m with
  | nil => exact ⟨rfl, rfl⟩
  | cons a analyses ih =>
    obtain ⟨_, hsinks, hremoved⟩ := m.afterAnalysis_counts a
    obtain ⟨hsinks', hremoved'⟩ := ih (m.afterAnalysis a.settings a.files)
    unfold Metrics.afterAnalyses at hsinks' hremoved' ⊢
    rw [List.foldl_cons, hsinks', hremoved', hsinks, hremoved, List.map_cons, List.map_cons,
      List.sum_cons, List.sum_cons, Nat.add_assoc, Nat.add_assoc]
    exact ⟨rfl, rfl⟩

/-- The last analysis alone says how many findings there are. -/
theorem Metrics.afterAnalyses_findings (m : Metrics) (analyses : List Analysis) (last : Analysis) :
    (m.afterAnalyses (analyses ++ [last])).findings = last.reported.length := by
  unfold Metrics.afterAnalyses
  rw [List.foldl_append]
  exact (Metrics.afterAnalysis_counts _ last).1

/-- Over a session with any settings and units, the sinks checked and the findings left out by the
baseline or a comment are those of all analyses together, and every raw finding is reported, left
out or repeated. The number of findings is that of the last analysis, so it is the sum over all
just if those before it report nothing. -/
theorem counts_of_a_session_add_up_but_for_its_findings (m : Metrics) (analyses : List Analysis) :
    (m.afterAnalyses analyses).sinksChecked =
        m.sinksChecked + (analyses.map (·.sinks.length)).sum ∧
      (m.afterAnalyses analyses).suppressed =
        m.suppressed + (analyses.map (·.removed.length)).sum ∧
      (∀ a : Analysis,
        a.raw.length = a.reported.length + a.removed.length + a.repeated.length) ∧
      (m.afterAnalyses analyses).findings =
        analyses.getLast?.elim m.findings (·.reported.length) ∧
      ((Metrics.zero.afterAnalyses analyses).findings = (analyses.map (·.reported.length)).sum ↔
        ∀ a ∈ analyses.dropLast, a.reported = []) := by
  obtain ⟨hsinks, hremoved⟩ := m.afterAnalyses_sums analyses
  refine ⟨hsinks, hremoved, Analysis.length_raw, ?_⟩
  rcases List.eq_nil_or_concat' analyses with rfl | ⟨before, last, rfl⟩
  · exact ⟨rfl, by simp [Metrics.afterAnalyses, Metrics.zero]⟩
  · rw [m.afterAnalyses_findings, Metrics.zero.afterAnalyses_findings, List.getLast?_concat,
      List.dropLast_concat, List.map_append, List.sum_append, List.map_singleton,
      List.sum_singleton]
    refine ⟨rfl, ?_⟩
    have hzero : (before.map (·.reported.length)).sum = 0 ↔ ∀ a ∈ before, a.reported = [] := by
      simp [List.sum_eq_zero_iff_forall_eq_nat]
    rw [← hzero]
    omega

/-! ## Two analyses of the same files -/

/-- The analysis of two files that evaluate what a request holds, with a comment in the first. -/
def evaluationAnalysis : Analysis := ⟨.default, evaluations⟩

/-- Behind the second analysis the number of findings is not the sum of both. -/
theorem a_second_analysis_replaces_the_findings :
    (Metrics.zero.afterAnalyses [evaluationAnalysis, evaluationAnalysis]).findings ≠
      ([evaluationAnalysis, evaluationAnalysis].map (·.reported.length)).sum := by
  have hreported : evaluationAnalysis.reported.length = 1 := by decide +kernel
  have hfindings := Metrics.zero.afterAnalyses_findings [evaluationAnalysis] evaluationAnalysis
  rw [List.singleton_append] at hfindings
  simp [hfindings, hreported]

end XPathTaint
