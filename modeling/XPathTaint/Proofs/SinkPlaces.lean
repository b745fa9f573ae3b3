import XPathTaint.Proofs.ArgumentPlaces
import XPathTaint.Proofs.KnownFindings
import XPathTaint.Python.Source

-- Every call site of a program that is a sink has its expression in a place of its own, so no
-- finding is taken for another one and left out.

namespace XPathTaint

namespace Python

/-! ## Lines and columns -/

/-- One place stands before another one in a text, and so do their lines and columns. -/
def Cursor.Before (c d : Cursor) : Prop :=
  c.pos < d.pos ∧ (c.line < d.line ∨ c.line = d.line ∧ c.column < d.column)

namespace Cursor

theorem skip_add (c : Cursor) (m n : Nat) : c.skip (m + n) = (c.skip m).skip n := by
  induction m generalizing c with
  | zero => rw [Nat.zero_add, skip]
  | succ m ih => rw [Nat.succ_add, skip, skip, ih]

theorem Before.trans {c d e : Cursor} (h : c.Before d) (h' : d.Before e) : c.Before e := by
  unfold Before at *
  omega

theorem next_before (c : Cursor) : c.next = c ∨ c.Before c.next := by
  unfold next Before
  split
  · exact Or.inl rfl
  · refine Or.inr ⟨?_, Or.inl ?_⟩
    · exact Nat.lt_succ_self _
    · exact Nat.lt_succ_self _
  · rename_i ch rest _ _
    have hsize := ch.utf8Size_pos
    refine Or.inr ⟨?_, Or.inr ⟨rfl, ?_⟩⟩
    · exact Nat.lt_add_of_pos_right hsize
    · exact Nat.lt_add_of_pos_right hsize

theorem skip_before (c : Cursor) (n : Nat) : c.skip n = c ∨ c.Before (c.skip n) := by
  induction n generalizing c with
  | zero => exact Or.inl rfl
  | succ n ih =>
    rw [skip]
    rcases c.next_before with hsame | hbefore
    · rw [hsame]
      exact ih c
    · rcases ih c.next with hsame | hbefore'
      · rw [hsame]
        exact Or.inr hbefore
      · exact Or.inr (hbefore.trans hbefore')

/-- Line and column tell the byte. -/
theorem pos_of_place (c : Cursor) {m n : Nat} (hline : (c.skip m).line = (c.skip n).line)
    (hcolumn : (c.skip m).column = (c.skip n).column) : (c.skip m).pos = (c.skip n).pos := by
  have hforward : ∀ m k, (c.skip m).line = (c.skip (m + k)).line →
      (c.skip m).column = (c.skip (m + k)).column → (c.skip m).pos = (c.skip (m + k)).pos := by
    intro m k hline hcolumn
    rw [skip_add] at hline hcolumn ⊢
    rcases (c.skip m).skip_before k with hsame | ⟨_, hplace⟩
    · rw [hsame]
    · omega
  rcases Nat.le_total m n with hle | hle
  · obtain ⟨k, rfl⟩ := Nat.exists_eq_add_of_le hle
    exact hforward m k hline hcolumn
  · obtain ⟨k, rfl⟩ := Nat.exists_eq_add_of_le hle
    exact (hforward n k hline.symm hcolumn.symm).symm

end Cursor

/-- A piece has the byte, line and column of a place in the text. -/
def Span.IsPlacedIn (text : String) (s : Span) : Prop :=
  ∃ n, (s.pos, s.line, s.column) =
    (((Cursor.ofText text).skip n).pos, ((Cursor.ofText text).skip n).line,
      ((Cursor.ofText text).skip n).column)

/-- The nodes in the arguments of calls have the lines and columns of their first bytes. -/
def Program.IsPlacedIn (text : String) (p : Program) : Prop :=
  ∀ c ∈ p.calls, ∀ arg ∈ c.args, ∀ n ∈ arg.value.nodes, n.span.IsPlacedIn text

theorem Span.IsPlacedIn.pos_eq {text : String} {s t : Span} (hs : s.IsPlacedIn text)
    (ht : t.IsPlacedIn text) (hplace : (s.line, s.column) = (t.line, t.column)) :
    s.pos = t.pos := by
  obtain ⟨m, hm⟩ := hs
  obtain ⟨n, hn⟩ := ht
  simp only [Prod.mk.injEq] at hm hn hplace
  rw [hm.1, hn.1]
  apply Cursor.pos_of_place
  · rw [← hm.2.1, ← hn.2.1, hplace.1]
  · rw [← hm.2.2, ← hn.2.2, hplace.2]

theorem isPlacedIn_of_mem_argSpans {text : String} {p : Program} (h : p.IsPlacedIn text) {s : Span}
    (hs : s ∈ argSpans p.calls) : s.IsPlacedIn text := by
  obtain ⟨c, hc, hs⟩ := List.mem_flatMap.mp hs
  obtain ⟨arg, harg, rfl⟩ := List.mem_map.mp hs
  exact h c (List.mem_filter.mp hc).1 arg harg _ (core_mem_nodes arg.value)

end Python

/-- Line and column of the first byte of an expression. -/
def Expr.lineColumn (e : Expr) : Nat × Nat := (e.place.line, e.place.column)

namespace Python

/-- No two arguments of call sites stand in the same place. -/
theorem pairwise_arguments (path : String) (symbols : Symbols) {text : String} {p : Program}
    (hlaid : p.IsLaidOut) (hplaced : p.IsPlacedIn text) :
    ((lowerProgram path symbols p).calls.flatMap (·.args)).Pairwise
      fun a b => a.value.lineColumn ≠ b.value.lineColumn := by
  have hspans : (argSpans p.calls).Pairwise
      fun s t => (s.line, s.column) ≠ (t.line, t.column) := by
    refine (argsApart_program hlaid).imp_of_mem fun hs ht hne hplace => hne ?_
    exact (isPlacedIn_of_mem_argSpans hplaced hs).pos_eq (isPlacedIn_of_mem_argSpans hplaced ht)
      hplace
  have horigins : ((argSpans p.calls).map (originIn path)).Pairwise
      fun o o' => (o.place.line, o.place.column) ≠ (o'.place.line, o'.place.column) :=
    List.pairwise_map.mpr hspans
  rw [← origins_of_calls path symbols p, List.pairwise_map] at horigins
  exact horigins

end Python

/-! ## Sinks -/

section

variable {call : CallSite} {arg : Argument} {sink : SinkMatch} {facts : FileFacts} {reg : Registry}
  {maxHops : Nat}

theorem mem_args_of_designated {keyword : String} (h : (designated call keyword).1 = some arg) :
    arg ∈ call.args := by
  unfold designated at h
  split at h
  · exact List.mem_of_find?_eq_some h
  · rename_i only hfilter
    have honly : only ∈ call.args.filter fun a => a.keyword.isNone && a.splat != .dict := by
      rw [hfilter]
      exact List.mem_cons_self
    split at h
    · obtain rfl := Option.some.inj h
      exact (List.mem_filter.mp honly).1
    · cases h
  · cases h

theorem mem_args_of_openSignature {kind : SinkKind} (h : (openSignature call kind).1 = some sink) :
    sink.arg ∈ call.args := by
  unfold openSignature at h
  obtain ⟨arg, harg, rfl⟩ := Option.map_eq_some_iff.mp h
  exact mem_args_of_designated harg

theorem mem_args_of_closedSignature {kind : SinkKind}
    (h : (closedSignature call kind).1 = some sink) : sink.arg ∈ call.args := by
  unfold closedSignature at h
  dsimp only at h
  split at h
  · cases h
  · obtain ⟨arg, harg, rfl⟩ := Option.map_eq_some_iff.mp h
    exact mem_args_of_designated harg

/-- The expression of a sink is one of its arguments. -/
theorem mem_args_of_sinkOf (h : (sinkOf facts reg maxHops call).1 = some sink) :
    sink.arg ∈ call.args := by
  unfold sinkOf at h
  split at h
  · split at h
    · exact mem_args_of_closedSignature h
    · split at h
      · exact mem_args_of_closedSignature h
      · cases h
  · split at h
    · split at h
      · split at h
        · exact mem_args_of_openSignature h
        · cases h
      · cases h
    · split at h
      · exact mem_args_of_openSignature h
      · split at h <;> cases h

end

/-! ## Sinks of a file -/

/-- Line and column of the expression that a sink evaluates. -/
def SinkMatch.lineColumn (sink : SinkMatch) : Nat × Nat := sink.arg.value.lineColumn

/-- The text behind the id that a finding for a sink has. -/
def SinkMatch.idText (cfg : Settings) (facts : FileFacts) (sink : SinkMatch) : String :=
  placeText (cfg.resolve facts.path) sink.arg.value.place.line sink.arg.value.place.column

/-- The id of a finding for a sink, whether or not there is one. -/
def SinkMatch.id (cfg : Settings) (facts : FileFacts) (sink : SinkMatch) : String :=
  findingId (cfg.resolve facts.path) sink.arg.value.place.line sink.arg.value.place.column

/-- What a call site evaluates, if it is a sink. -/
def sink? (cfg : Settings) (facts : FileFacts) (call : CallSite) : Option SinkMatch :=
  (sinkOf facts cfg.registry cfg.maxHops call).1

/-- The finding of a call site that is a sink with a tainted expression. -/
def taintedSink? (cfg : Settings) (facts : FileFacts) (call : CallSite) : Option Finding :=
  (sink? cfg facts call).bind fun sink =>
    (taintOf facts cfg.registry cfg.maxHops sink.arg.value call.scope call.block).1.map
      (findingAt cfg facts call sink)

/-- If both call sites are sinks, their expressions have different places and their findings
different ids. -/
def AreApart (cfg : Settings) (facts : FileFacts) (call other : CallSite) : Prop :=
  ∀ sink, sink? cfg facts call = some sink → ∀ sink', sink? cfg facts other = some sink' →
    sink.lineColumn ≠ sink'.lineColumn ∧ sink.id cfg facts ≠ sink'.id cfg facts

/-- No two places of sinks of a file have the same digest. -/
def SinksTellApart (cfg : Settings) (facts : FileFacts) : Prop :=
  NoCollision ((facts.calls.filterMap (sink? cfg facts)).map (SinkMatch.idText cfg facts))

section

variable {cfg : Settings} {facts : FileFacts} {call : CallSite} {f : Finding}

theorem checkCall_finding_eq (cfg : Settings) (facts : FileFacts) (call : CallSite) :
    (checkCall cfg facts call).finding = taintedSink? cfg facts call := by
  unfold taintedSink? sink? checkCall
  split
  · rename_i events hsink
    rw [hsink]
    rfl
  · rename_i sink events hsink
    rw [hsink, Option.bind_some]
    dsimp only
    split
    · rename_i taint more htaint
      rw [htaint]
      rfl
    · rename_i more htaint
      rw [htaint]
      rfl

theorem analyzeFile_eq (cfg : Settings) (facts : FileFacts) :
    analyzeFile cfg facts = facts.calls.filterMap (taintedSink? cfg facts) := by
  unfold analyzeFile checkCalls
  rw [List.filterMap_map]
  congr 1
  funext call
  exact checkCall_finding_eq cfg facts call

theorem id_of_taintedSink? (h : taintedSink? cfg facts call = some f) :
    ∃ sink, sink? cfg facts call = some sink ∧ f.id = sink.id cfg facts := by
  obtain ⟨sink, hsink, h⟩ := Option.bind_eq_some_iff.mp h
  obtain ⟨taint, _, rfl⟩ := Option.map_eq_some_iff.mp h
  exact ⟨sink, hsink, rfl⟩

/-- Sinks whose expressions have different places have different ids. -/
theorem areApart_of_arguments (hdigests : SinksTellApart cfg facts)
    (hargs : facts.calls.Pairwise fun call other => ∀ a ∈ call.args, ∀ b ∈ other.args,
      a.value.lineColumn ≠ b.value.lineColumn) : facts.calls.Pairwise (AreApart cfg facts) := by
  have hmem : ∀ {call sink}, call ∈ facts.calls → sink? cfg facts call = some sink →
      sink.idText cfg facts ∈ (facts.calls.filterMap (sink? cfg facts)).map
        (SinkMatch.idText cfg facts) := fun hcall hsink =>
    List.mem_map_of_mem (List.mem_filterMap.mpr ⟨_, hcall, hsink⟩)
  refine hargs.imp_of_mem fun hcall hother hne sink hsink sink' hsink' => ?_
  have hplace := hne sink.arg (mem_args_of_sinkOf hsink) sink'.arg (mem_args_of_sinkOf hsink')
  refine ⟨hplace, fun hid => hplace ?_⟩
  have htext := hdigests _ (hmem hcall hsink) _ (hmem hother hsink') hid
  obtain ⟨_, hline, hcolumn⟩ := placeText_inj htext
  exact Prod.ext hline hcolumn

/-! ## Findings -/

/-- Findings with different ids are all kept. -/
theorem firstOfEach_eq_self {fs : List Finding} (h : fs.Pairwise fun f g => f.id ≠ g.id) :
    firstOfEach fs = fs := by
  have hfold : ∀ kept : List Finding, (kept ++ fs).Pairwise (fun f g => f.id ≠ g.id) →
      fs.foldl keepNew kept = kept ++ fs := by
    clear h
    induction fs with
    | nil => simp
    | cons f fs ih =>
      intro kept h
      have hnew : ¬ ∃ k ∈ kept, k.id = f.id := by
        rintro ⟨k, hk, hid⟩
        exact (List.pairwise_append.mp h).2.2 k hk f List.mem_cons_self hid
      rw [List.foldl_cons, keepNew_new hnew, ih, List.append_assoc, List.singleton_append]
      rwa [List.append_assoc, List.singleton_append]
  exact hfold [] h

theorem newFindings_of_plain (hbaseline : cfg.baseline = none) (hmarker : cfg.suppressMarker = none)
    (files : List FileFacts) : newFindings cfg files = rawFindings cfg files := by
  unfold newFindings isKnown isSilenced
  simp [hbaseline, hmarker]

/-- Sinks that are apart have all their findings reported. -/
theorem analyzeFiles_of_areApart (hbaseline : cfg.baseline = none)
    (hmarker : cfg.suppressMarker = none) (hapart : facts.calls.Pairwise (AreApart cfg facts)) :
    (analyzeFiles cfg [facts]).Perm (facts.calls.filterMap (taintedSink? cfg facts)) := by
  have hids : (analyzeFile cfg facts).Pairwise fun f g => f.id ≠ g.id := by
    rw [analyzeFile_eq, List.pairwise_filterMap]
    refine hapart.imp fun hne f hf g hg => ?_
    obtain ⟨sink, hsink, hfid⟩ := id_of_taintedSink? hf
    obtain ⟨sink', hsink', hgid⟩ := id_of_taintedSink? hg
    rw [hfid, hgid]
    exact (hne sink hsink sink' hsink').2
  unfold analyzeFiles
  rw [newFindings_of_plain hbaseline hmarker, rawFindings, List.flatMap_singleton,
    firstOfEach_eq_self hids, analyzeFile_eq]
  exact List.mergeSort_perm _ _

end

/-- In a program that stands in its text, two call sites that are sinks never have their expressions
in the same place, and so the ids of their findings differ; and without baseline and comments that
silence, each call site that is a sink with a tainted expression has its finding reported, and no
others are. -/
theorem every_tainted_sink_has_a_finding_of_its_own (path text : String) (marker : Option String)
    (p : Python.Program) (facts : FileFacts)
    (hfacts : (FileFacts.ofProgram path text marker p).1 = facts) (hlaid : p.IsLaidOut)
    (hplaced : p.IsPlacedIn text) (cfg : Settings) (hbaseline : cfg.baseline = none)
    (hmarker : cfg.suppressMarker = none) (hdigests : SinksTellApart cfg facts) :
    facts.calls.Pairwise (AreApart cfg facts) ∧
      (analyzeFiles cfg [facts]).Perm (facts.calls.filterMap (taintedSink? cfg facts)) := by
  have hcalls : facts.calls = (Python.lowerProgram path facts.symbols p).calls := by
    rw [← hfacts]
    rfl
  have hplaces := Python.pairwise_arguments path facts.symbols hlaid hplaced
  rw [← hcalls, List.pairwise_flatMap] at hplaces
  have hapart := areApart_of_arguments hdigests hplaces.2
  exact ⟨hapart, analyzeFiles_of_areApart hbaseline hmarker hapart⟩

/-! ## A call in the argument of another one -/

/-- `lxml.etree.XPath(arg)` in the first line. -/
def evaluationOf (pos stop : Nat) (text : String) (arg : Python.Node) : Python.Node :=
  .call ⟨pos, stop, 1, pos + 1, text⟩
    (.member ⟨pos, pos + 16, 1, pos + 1, "lxml.etree.XPath"⟩
      (.member ⟨pos, pos + 10, 1, pos + 1, "lxml.etree"⟩
        (.name ⟨pos, pos + 4, 1, pos + 1, "lxml"⟩) "etree") "XPath")
    [⟨none, .none, arg⟩]

def nestedText : String := "lxml.etree.XPath((q := lxml.etree.XPath(request.args)))\n"

/-- The tree of that text: the argument of the outer call starts at the inner one. -/
def nestedEvaluation : Python.Program :=
  let request : Python.Node :=
    .member ⟨40, 52, 1, 41, "request.args"⟩ (.name ⟨40, 47, 1, 41, "request"⟩) "args"
  let inner := evaluationOf 23 53 "lxml.etree.XPath(request.args)" request
  let bound : Python.Node := .paren ⟨17, 54, 1, 18, "(q := lxml.etree.XPath(request.args))"⟩ none
    (.walrus ⟨18, 53, 1, 19, "q := lxml.etree.XPath(request.args)"⟩ ⟨18, 19, 1, 19, "q"⟩ inner)
  { start := ⟨0, 0, 1, 1, ""⟩, isPartial := false
    body := [.values [evaluationOf 0 55
      "lxml.etree.XPath((q := lxml.etree.XPath(request.args)))" bound]] }

/-- The facts of the text. -/
def nestedFacts : FileFacts := (FileFacts.ofProgram "a.py" nestedText none nestedEvaluation).1

theorem isLaidOut_nestedEvaluation : nestedEvaluation.IsLaidOut :=
  ⟨55, 55, ⟨55, by decide +kernel, Nat.le_refl 55⟩, Nat.le_refl 55⟩

theorem isPlacedIn_nestedEvaluation : nestedEvaluation.IsPlacedIn nestedText := by
  have h : ∀ c ∈ nestedEvaluation.calls, ∀ arg ∈ c.args, ∀ n ∈ arg.value.nodes,
      (n.span.pos, n.span.line, n.span.column) =
        (((Python.Cursor.ofText nestedText).skip n.span.pos).pos,
          ((Python.Cursor.ofText nestedText).skip n.span.pos).line,
          ((Python.Cursor.ofText nestedText).skip n.span.pos).column) := by decide +kernel
  exact fun c hc arg harg n hn => ⟨n.span.pos, h c hc arg harg n hn⟩

theorem every_tainted_sink_has_a_finding_of_its_own_of_nested_calls :
    nestedEvaluation.IsLaidOut ∧ nestedEvaluation.IsPlacedIn nestedText ∧
      SinksTellApart withoutMarker nestedFacts ∧
      nestedFacts.calls.Pairwise (AreApart withoutMarker nestedFacts) ∧
      ((analyzeFiles withoutMarker [nestedFacts]).map Finding.location).Perm
        [("a.py", 1, 41), ("a.py", 1, 24)] := by
  have hdigests : SinksTellApart withoutMarker nestedFacts :=
    noCollision_of_nodup (by decide +kernel)
  obtain ⟨hapart, hperm⟩ := every_tainted_sink_has_a_finding_of_its_own "a.py" nestedText none
    nestedEvaluation nestedFacts rfl isLaidOut_nestedEvaluation isPlacedIn_nestedEvaluation
    withoutMarker rfl rfl hdigests
  have hfound : (nestedFacts.calls.filterMap (taintedSink? withoutMarker nestedFacts)).map
      Finding.location = [("a.py", 1, 41), ("a.py", 1, 24)] := by decide +kernel
  refine ⟨isLaidOut_nestedEvaluation, isPlacedIn_nestedEvaluation, hdigests, hapart, ?_⟩
  rw [← hfound]
  exact hperm.map Finding.location

end XPathTaint
