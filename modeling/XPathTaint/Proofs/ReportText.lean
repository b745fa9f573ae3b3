import XPathTaint.Proofs.RecordFields
import XPathTaint.Report.Format

-- A report in JSON holds its findings: what is read from its text is the list that was reported, in
-- its order, and their number.

namespace XPathTaint

open Json

/-! ## Names -/

theorem Severity.ofJson?_toJson (s : Severity) : Severity.ofJson? s.toJson = some s := by
  cases s <;> rfl

theorem SinkKind.ofJson?_toJson (k : SinkKind) : SinkKind.ofJson? k.toJson = some k := by
  cases k <;> rfl

/-! ## Findings -/

/-- The line and the column of a step fit into 64 bits. -/
structure TraceStep.InWords (t : TraceStep) : Prop where
  line : t.line < UInt64.size
  column : t.column < UInt64.size

/-- The place of a finding and the places of its flow fit into 64 bits. -/
structure Finding.InWords (f : Finding) : Prop where
  line : f.line < UInt64.size
  column : f.column < UInt64.size
  trace : ∀ t ∈ f.trace, t.InWords

theorem TraceStep.ofJson?_toJson {t : TraceStep} (h : t.InWords) :
    TraceStep.ofJson? t.toJson = some t := by
  unfold TraceStep.ofJson? TraceStep.toJson
  rw [fields?_object (by simp)]
  simp [List.lookup_cons, asNat?_nat, h.line, h.column]

theorem TraceStep.isWhole_toJson {t : TraceStep} (h : t.InWords) : t.toJson.IsWhole := by
  simp [TraceStep.toJson, IsWhole.nat h.line, IsWhole.nat h.column]

/-- A trace is read back, also an empty one, which is left out. -/
theorem Finding.trace_read {trace : List TraceStep} (h : ∀ t ∈ trace, t.InWords) :
    withDefault [] (asList? TraceStep.ofJson?) ((Finding.traceMember trace).lookup "trace") =
      some trace := by
  unfold Finding.traceMember
  cases trace with
  | nil => rfl
  | cons t rest =>
    have hlist : asList? TraceStep.ofJson? (.array ((t :: rest).map TraceStep.toJson)) =
        some (t :: rest) :=
      asList?_map fun t ht => TraceStep.ofJson?_toJson (h t ht)
    simpa [List.lookup_cons] using hlist

theorem Finding.ofJson?_toJson {f : Finding} (h : f.InWords) :
    Finding.ofJson? f.toJson = some f := by
  have htrace := Finding.trace_read h.trace
  unfold Finding.ofJson? Finding.toJson Finding.fieldNames
  rw [fields?_object]
  · simp [List.lookup_cons, Severity.ofJson?_toJson, SinkKind.ofJson?_toJson, asNat?_nat h.line,
      asNat?_nat h.column, htrace]
  · cases f.trace <;> simp [Finding.traceMember]

theorem Finding.isWhole_toJson {f : Finding} (h : f.InWords) : f.toJson.IsWhole := by
  have htrace : ∀ m ∈ Finding.traceMember f.trace, m.2.IsWhole := by
    have hlist : (Json.array (f.trace.map TraceStep.toJson)).IsWhole :=
      isWhole_map fun t ht => TraceStep.isWhole_toJson (h.trace t ht)
    unfold Finding.traceMember
    split
    · simp
    · simpa using hlist
  refine .object (List.forall_mem_append.mpr ⟨?_, htrace⟩)
  simp [Severity.toJson, SinkKind.toJson, IsWhole.nat h.line, IsWhole.nat h.column]

/-! ## Reports -/

/-- The text of a report in JSON is one object, whose `findings` are read as the findings that were
reported, in the same order, and whose `total` is their number. -/
theorem a_json_report_holds_its_findings (findings : List Finding) (info : Option Report.ScanInfo)
    (hwords : ∀ f ∈ findings, f.InWords) (hlength : findings.length < UInt64.size) :
    ∃ members, Json.read? (Report.write .json findings info) = some (.object members) ∧
      ((Json.object members).get? "findings").bind (asList? Finding.ofJson?) = some findings ∧
      ((Json.object members).get? "total").bind asNat? = some findings.length := by
  have hlist : (Json.array (findings.map Finding.toJson)).IsWhole :=
    isWhole_map fun f hf => Finding.isWhole_toJson (hwords f hf)
  have hwhole : (Report.toJson findings).IsWhole := by
    simp [-isWhole_array_iff, Report.toJson, hlist, IsWhole.nat hlength]
  have hend : IsBlank "\n" := by simp [IsBlank, isSpace]
  refine ⟨_, hwhole.read?_pretty_append hend, ?_, ?_⟩
  · exact asList?_map fun f hf => Finding.ofJson?_toJson (hwords f hf)
  · exact asNat?_nat hlength

/-! ## A report of two findings -/

/-- A finding with quotes, a line end, a control character and letters beyond ASCII in its texts. -/
def quotedFinding : Finding :=
  { id := "1", ruleId := ruleId, severity := .critical, file := "app/é.py", line := 3, column := 12,
    excerpt := "tree.xpath(\"//a\\b\" + q)", message := "line\nend\x01", remediation := some "→",
    sink := .treeXPath, source := "request.args", function := "<module>",
    trace := [⟨3, 27, "q"⟩, ⟨UInt64.size - 1, 1, ""⟩] }

/-- A finding without flow and without remedy. -/
def bareFinding : Finding :=
  { quotedFinding with
    severity := .info, remediation := none, sink := .xpathWithOptions, trace := [] }

theorem a_json_report_holds_its_findings_of_two_findings :
    (∀ f ∈ [quotedFinding, bareFinding], f.InWords) ∧ 2 < UInt64.size ∧
      ∃ members, Json.read? (Report.write .json [quotedFinding, bareFinding] none) =
          some (.object members) ∧
        ((Json.object members).get? "findings").bind (asList? Finding.ofJson?) =
          some [quotedFinding, bareFinding] ∧
        ((Json.object members).get? "total").bind asNat? = some 2 := by
  have hwords : ∀ f ∈ [quotedFinding, bareFinding], f.InWords := by
    simp only [List.mem_cons, List.not_mem_nil, or_false, forall_eq_or_imp, forall_eq]
    refine ⟨⟨by decide, by decide, ?_⟩, ⟨by decide, by decide, by simp [bareFinding]⟩⟩
    simp only [quotedFinding, List.mem_cons, List.not_mem_nil, or_false, forall_eq_or_imp,
      forall_eq]
    exact ⟨⟨by decide, by decide⟩, ⟨by decide, by decide⟩⟩
  have hlength : 2 < UInt64.size := by decide
  exact ⟨hwords, hlength, a_json_report_holds_its_findings _ none hwords hlength⟩

end XPathTaint
