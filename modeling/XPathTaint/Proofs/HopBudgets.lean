import XPathTaint.Finding.Analysis
import XPathTaint.Proofs.FlowChains
import XPathTaint.Proofs.RegistryOrder

-- What a larger budget of hops does to an analysis: chains that were short enough stay so, hence
-- no sink and no flow is lost, and every finding is still there with its place and its sink.
-- Receivers and sinks are also compared between registries of which one names more libraries.

namespace XPathTaint

section

variable {facts : FileFacts} {reg reg' : Registry} {scope : ScopeId} {block : BlockPath} {e : Expr}
  {less more : Nat}

/-! ## Chains -/

/-- What a chain leads to with few hops it leads to with more, if what counts as its end still does
with the hops that are left over. -/
theorem LeadsWithin.mono {parts : Expr → Expr → Prop} {ends ends' : Nat → BlockPath → Expr → Prop}
    (hends : ∀ left left' block e, left ≤ left' → ends left block e → ends' left' block e)
    (hle : less ≤ more) (h : LeadsWithin facts scope parts ends less block e) :
    LeadsWithin facts scope parts ends' more block e := by
  obtain ⟨bs, last, v, hchain, hlen, hend⟩ := h
  refine ⟨bs, last, v, hchain, Nat.le_trans hlen hle, ?_⟩
  apply hends (less - bs.length)
  · omega
  · exact hend

/-- A parameter that some binding may have replaced counts as soon as one hop is left, so it counts
with more hops too. -/
theorem FlowEnds.mono (hle : less ≤ more) (h : FlowEnds facts reg scope less block e) :
    FlowEnds facts reg scope more block e := by
  obtain ⟨r, hr, hend⟩ := h
  refine ⟨r, hr, ?_⟩
  rcases hend with hsource | ⟨name, f, hd, hparam, hleft⟩
  · exact Or.inl hsource
  · refine Or.inr ⟨name, f, hd, hparam, fun hmore => ?_⟩
    apply hleft
    omega

/-! ## The two searches -/

/-- What carries taint with few hops carries it with more. -/
theorem Carries.more_hops (hle : less ≤ more)
    (h : Carries facts.symbols reg (TaintsRead facts reg scope less block) e) :
    Carries facts.symbols reg (TaintsRead facts reg scope more block) e := by
  rw [carries_iff_leadsWithin] at h ⊢
  have hends : ∀ left left' block e, left ≤ left' → FlowEnds facts reg scope left block e →
      FlowEnds facts reg scope left' block e := fun _ _ _ _ hl hend => hend.mono hl
  exact h.mono hends hle

theorem taintOf_mono (hids : DistinctIds facts) (hle : less ≤ more)
    (h : (taintOf facts reg less e scope block).1.isSome) :
    (taintOf facts reg more e scope block).1.isSome := by
  rw [taintOf_isSome_iff hids] at h ⊢
  exact h.more_hops hle

/-- A test that looks through bindings passes with more hops what one passes with few that has the
same parts and accepts less. -/
theorem LooksThrough.resolveWithin_mono {test test' : Resolve → Resolve}
    {parts : Expr → Expr → Prop} {made made' : Expr → Prop} (hlooks : LooksThrough test parts made)
    (hlooks' : LooksThrough test' parts made') (hmade : ∀ e, made e → made' e)
    (hids : DistinctIds facts) (hle : less ≤ more)
    (h : (resolveWithin facts scope test less block e []).1 = true) :
    (resolveWithin facts scope test' more block e []).1 = true := by
  rw [hlooks.resolveWithin_iff hids] at h
  rw [hlooks'.resolveWithin_iff hids]
  have hends : ∀ left left' : Nat, ∀ block : BlockPath, ∀ e, left ≤ left' → HasMade parts made e →
      HasMade parts made' e := by
    rintro _ _ _ e _ ⟨r, hr, hrmade⟩
    exact ⟨r, hr, hmade r hrmade⟩
  exact h.mono hends hle

theorem isDocument_mono (hids : DistinctIds facts) (hnames : reg.NamesMore reg') (hle : less ≤ more)
    (h : isDocument facts reg scope block less e = true) :
    isDocument facts reg' scope block more e = true :=
  (looksThrough_isDocumentBy reg).resolveWithin_mono (looksThrough_isDocumentBy reg')
    (fun _ => .of_namesMore hnames) hids hle h

theorem isEvaluator_mono (hids : DistinctIds facts) (hnames : reg.NamesMore reg')
    (hle : less ≤ more) (h : isEvaluator facts reg scope block less e = true) :
    isEvaluator facts reg' scope block more e = true :=
  (looksThrough_isEvaluatorBy reg).resolveWithin_mono (looksThrough_isEvaluatorBy reg')
    (fun _ => .of_namesMore hnames) hids hle h

/-! ## Call sites -/

/-- A call site that is a sink stays the same sink, with the same argument, if its callee names the
same member of a library as before. -/
theorem sinkOf_mono (hids : DistinctIds facts) (hnames : reg.NamesMore reg') (hle : less ≤ more)
    {call : CallSite} (hcallee : call.callee.bind reg'.xmlMember? = call.callee.bind reg.xmlMember?)
    {sink : SinkMatch} (h : (sinkOf facts reg less call).1 = some sink) :
    (sinkOf facts reg' more call).1 = some sink := by
  unfold sinkOf at h ⊢
  rcases hmember : call.callee.bind reg.xmlMember? with _ | member
  · simp only [hcallee, hmember] at h ⊢
    split at h
    · rename_i object attr o hfunc
      split at h
      · split at h
        · rename_i hattr hobject
          rw [if_pos hattr, if_pos (isDocument_mono hids hnames hle hobject)]
          exact h
        · cases h
      · cases h
    · rename_i hfunc
      split at h
      · rename_i hfound
        rw [if_pos (isEvaluator_mono hids hnames hle hfound)]
        exact h
      · split at h <;> cases h
  · -- a member of a library is told by its name alone
    simp only [hcallee, hmember] at h ⊢
    exact h

/-- Where a finding stands, and which sink it reaches. -/
def Finding.spot (f : Finding) : String × Nat × Nat × SinkKind := (f.file, f.line, f.column, f.sink)

/-- The same settings with another budget of hops. -/
def Settings.within (cfg : Settings) (maxHops : Nat) : Settings := { cfg with maxHops }

variable {cfg : Settings} {call : CallSite} {f : Finding}

theorem spot_findingAt (cfg : Settings) (facts : FileFacts) (call : CallSite) (sink : SinkMatch)
    (taint : Taint) : (findingAt cfg facts call sink taint).spot =
      (facts.path, sink.arg.value.place.line, sink.arg.value.place.column, sink.kind) := rfl

/-- A call site has a finding at the same spot with settings that keep its sink and lose no flow. -/
theorem exists_finding_at_spot (cfg cfg' : Settings)
    (hsink : ∀ sink, (sinkOf facts cfg.registry cfg.maxHops call).1 = some sink →
      (sinkOf facts cfg'.registry cfg'.maxHops call).1 = some sink)
    (htaint : ∀ e, (taintOf facts cfg.registry cfg.maxHops e call.scope call.block).1.isSome →
      (taintOf facts cfg'.registry cfg'.maxHops e call.scope call.block).1.isSome)
    (h : (checkCall cfg facts call).finding = some f) :
    ∃ g, (checkCall cfg' facts call).finding = some g ∧ g.spot = f.spot := by
  obtain ⟨sink, taint, hfound, hflow, rfl⟩ := exists_of_checkCall h
  have hsome := htaint sink.arg.value (Option.isSome_iff_exists.mpr ⟨taint, hflow⟩)
  obtain ⟨taint', hflow'⟩ := Option.isSome_iff_exists.mp hsome
  refine ⟨_, checkCall_finding cfg' (hsink sink hfound) hflow', ?_⟩
  rw [spot_findingAt, spot_findingAt]

theorem checkCall_mono (hids : DistinctIds facts) (hle : less ≤ more)
    (h : (checkCall (cfg.within less) facts call).finding = some f) :
    ∃ g, (checkCall (cfg.within more) facts call).finding = some g ∧ g.spot = f.spot :=
  exists_finding_at_spot (cfg.within less) (cfg.within more)
    (fun _ => sinkOf_mono hids (.refl _) hle rfl) (fun _ => taintOf_mono hids hle) h

end

/-! ## Findings -/

/-- The spots of the findings of call sites, in order. -/
theorem spots_sublist {α : Type} {before after : α → Option Finding} {calls : List α}
    (h : ∀ call ∈ calls, ∀ f, before call = some f → ∃ g, after call = some g ∧ g.spot = f.spot) :
    ((calls.filterMap before).map Finding.spot).Sublist
      ((calls.filterMap after).map Finding.spot) := by
  induction calls with
  | nil => simp
  | cons call rest ih =>
    have hrest := ih fun c hc => h c (List.mem_cons_of_mem _ hc)
    rw [List.filterMap_cons, List.filterMap_cons]
    cases hbefore : before call with
    | none =>
      cases after call with
      | none => exact hrest
      | some g => exact hrest.cons _
    | some f =>
      obtain ⟨g, hafter, hspot⟩ := h call (by simp) f hbefore
      simp only [hafter, List.map_cons, hspot]
      exact hrest.cons_cons _

/-- A larger budget of hops loses no finding: each call site that has one with few hops has one
with more, at the same place and for the same sink, and the findings of the file come in the same
order, with others in between. -/
theorem more_hops_lose_no_finding (cfg : Settings) (facts : FileFacts) (hids : DistinctIds facts)
    (less more : Nat) (hle : less ≤ more) :
    (∀ call ∈ facts.calls, ∀ f, (checkCall (cfg.within less) facts call).finding = some f →
      ∃ g, (checkCall (cfg.within more) facts call).finding = some g ∧ g.file = f.file ∧
        g.line = f.line ∧ g.column = f.column ∧ g.sink = f.sink) ∧
    ((analyzeFile (cfg.within less) facts).map Finding.spot).Sublist
      ((analyzeFile (cfg.within more) facts).map Finding.spot) := by
  constructor
  · intro call _ f hf
    obtain ⟨g, hg, hspot⟩ := checkCall_mono hids hle hf
    simp only [Finding.spot, Prod.mk.injEq] at hspot
    exact ⟨g, hg, hspot⟩
  · unfold analyzeFile checkCalls
    rw [List.filterMap_map, List.filterMap_map]
    exact spots_sublist fun call _ f hf => checkCall_mono hids hle hf

/-! ## A call behind two bindings -/

/-- The call `etree.XPath(a)`. -/
def evaluationOfA : CallSite :=
  { id := 3, callee := some "lxml.etree.XPath", func := readOf "XPath",
    args := [⟨none, .none, readOf "a"⟩], scope := moduleScope, block := [], pos := 9,
    place := default, text := "etree.XPath(a)" }

/-- The two bindings that read one another, with a call that evaluates the first. -/
def evaluatedFacts : FileFacts := { mutualFacts with calls := [evaluationOfA] }

theorem more_hops_lose_no_finding_of_mutual_bindings :
    DistinctIds evaluatedFacts ∧ 2 ≤ 16 ∧
      ∃ f g, (checkCall (Settings.default.within 2) evaluatedFacts evaluationOfA).finding = some f ∧
        (checkCall (Settings.default.within 16) evaluatedFacts evaluationOfA).finding = some g ∧
        g.sink = f.sink := by
  have hids : DistinctIds evaluatedFacts := by decide
  have hle : 2 ≤ 16 := by decide
  have hsink : (sinkOf evaluatedFacts .builtin 2 evaluationOfA).1 =
      some ⟨.xpath, ⟨none, .none, readOf "a"⟩⟩ := rfl
  have htaint : (taintOf evaluatedFacts .builtin 2 (readOf "a") moduleScope []).1 =
      some ⟨.requestInput "request" "args",
        [⟨0, 0, "request.args"⟩, ⟨0, 0, "b"⟩, ⟨0, 0, "a"⟩]⟩ := by cbv
  have hfound := checkCall_finding (Settings.default.within 2) hsink htaint
  obtain ⟨g, hg, _, _, _, hsame⟩ :=
    (more_hops_lose_no_finding .default evaluatedFacts hids 2 16 hle).1 evaluationOfA
      (List.mem_singleton_self _) _ hfound
  exact ⟨hids, hle, _, g, hfound, hg, hsame⟩

end XPathTaint
