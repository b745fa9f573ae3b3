import XPathTaint.Proofs.HopBudgets

-- What it does to an analysis that the registry is extended: new sources lose no finding, new
-- sanitizers add none, and neither changes which call sites are sinks.

namespace XPathTaint

/-! ## Extensions -/

/-- A catalog with nothing but request objects and their surfaces. -/
def Catalog.ofSources (requestObjects surfaces : List String) : Catalog :=
  { Catalog.empty with requestObjects, surfaces }

/-- A catalog with nothing but sanitizers. -/
def Catalog.ofSanitizers (sanitizers : List String) : Catalog := { Catalog.empty with sanitizers }

namespace Registry

variable {reg reg' : Registry}

theorem seesMore_ofSources (reg : Registry) (requestObjects surfaces : List String) :
    reg.SeesMore (reg.extend (.ofSources requestObjects surfaces)) where
  requestObjects := fun _ h => mem_extendNew.mpr (Or.inl h)
  surfaces := fun _ h => mem_extendNew.mpr (Or.inl h)
  sanitizers := fun _ h => h

theorem ofSanitizers_seesMore (reg : Registry) (sanitizers : List String) :
    (reg.extend (.ofSanitizers sanitizers)).SeesMore reg where
  requestObjects := fun _ h => h
  surfaces := fun _ h => h
  sanitizers := fun _ h => mem_extendNew.mpr (Or.inl h)

theorem xmlMember?_congr (h : reg.xmlLibraries = reg'.xmlLibraries) :
    reg.xmlMember? = reg'.xmlMember? := by
  funext path
  unfold xmlMember?
  rw [h]

end Registry

section

variable {facts : FileFacts} {reg reg' : Registry} {cfg cfg' : Settings} {maxHops : Nat}
  {call : CallSite}

/-- Which call sites are sinks, and with which argument, is told by the libraries alone. -/
theorem sinkOf_congr (hids : DistinctIds facts) (h : reg.xmlLibraries = reg'.xmlLibraries) :
    (sinkOf facts reg maxHops call).1 = (sinkOf facts reg' maxHops call).1 := by
  have hmember := Registry.xmlMember?_congr h
  refine Option.ext fun sink => ⟨?_, ?_⟩
  · exact sinkOf_mono hids (fun _ hlib => h ▸ hlib) (Nat.le_refl _) (by rw [hmember])
  · exact sinkOf_mono hids (fun _ hlib => h ▸ hlib) (Nat.le_refl _) (by rw [hmember])

/-! ## Findings -/

/-- Every call site that has a finding with some settings has one with others too, at the same spot,
and the spots of the file come in the same order. -/
structure KeepsFindings (facts : FileFacts) (cfg cfg' : Settings) : Prop where
  calls : ∀ call ∈ facts.calls, ∀ f, (checkCall cfg facts call).finding = some f →
    ∃ g, (checkCall cfg' facts call).finding = some g ∧ g.spot = f.spot
  file : ((analyzeFile cfg facts).map Finding.spot).Sublist
    ((analyzeFile cfg' facts).map Finding.spot)

/-- Settings that see more find more, if they know the same libraries. -/
theorem keepsFindings_of_seesMore (hids : DistinctIds facts)
    (hsees : cfg.registry.SeesMore cfg'.registry)
    (hlibraries : cfg.registry.xmlLibraries = cfg'.registry.xmlLibraries)
    (hhops : cfg.maxHops = cfg'.maxHops) : KeepsFindings facts cfg cfg' := by
  have hcall : ∀ call f, (checkCall cfg facts call).finding = some f →
      ∃ g, (checkCall cfg' facts call).finding = some g ∧ g.spot = f.spot := by
    intro call f hf
    apply exists_finding_at_spot cfg cfg' _ _ hf
    · intro sink hsink
      rwa [← hhops, ← sinkOf_congr hids hlibraries]
    · intro e he
      rw [← hhops]
      exact taintOf_of_seesMore hids hsees he
  refine ⟨fun call _ => hcall call, ?_⟩
  unfold analyzeFile checkCalls
  rw [List.filterMap_map, List.filterMap_map]
  exact spots_sublist fun call _ => hcall call

end

/-- The same settings with a catalog added to what they know. -/
def Settings.extendedBy (cfg : Settings) (c : Catalog) : Settings :=
  { cfg with registry := cfg.registry.extend c }

/-- Sources are monotone and sanitizers antitone: with more request objects and surfaces every call
site that had a finding still has one, at the same spot, with more sanitizers only call sites that
had one have one, and with either the same call sites are sinks, with the same arguments. -/
theorem sources_add_findings_and_sanitizers_drop_them (cfg : Settings) (facts : FileFacts)
    (hids : DistinctIds facts) :
    (∀ requestObjects surfaces,
      KeepsFindings facts cfg (cfg.extendedBy (.ofSources requestObjects surfaces)) ∧
        ∀ call, (sinkOf facts (cfg.registry.extend (.ofSources requestObjects surfaces)) cfg.maxHops
          call).1 = (sinkOf facts cfg.registry cfg.maxHops call).1) ∧
    ∀ sanitizers,
      KeepsFindings facts (cfg.extendedBy (.ofSanitizers sanitizers)) cfg ∧
        ∀ call, (sinkOf facts (cfg.registry.extend (.ofSanitizers sanitizers)) cfg.maxHops
          call).1 = (sinkOf facts cfg.registry cfg.maxHops call).1 := by
  constructor
  · intro requestObjects surfaces
    refine ⟨keepsFindings_of_seesMore hids ?_ rfl rfl, fun call => sinkOf_congr hids rfl⟩
    exact cfg.registry.seesMore_ofSources requestObjects surfaces
  · intro sanitizers
    refine ⟨keepsFindings_of_seesMore hids ?_ rfl rfl, fun call => sinkOf_congr hids rfl⟩
    exact cfg.registry.ofSanitizers_seesMore sanitizers

theorem sources_add_findings_and_sanitizers_drop_them_of_mutual_bindings :
    DistinctIds evaluatedFacts ∧
      ∃ f g, (checkCall (Settings.default.extendedBy (.ofSanitizers ["quote"])) evaluatedFacts
          evaluationOfA).finding = some f ∧
        (checkCall (Settings.default.extendedBy (.ofSources ["bottle.request"] ["query"]))
          evaluatedFacts evaluationOfA).finding = some g ∧ g.spot = f.spot := by
  have hids : DistinctIds evaluatedFacts := by decide
  have hsink : (sinkOf evaluatedFacts (Registry.builtin.extend (.ofSanitizers ["quote"])) 16
      evaluationOfA).1 = some ⟨.xpath, ⟨none, .none, readOf "a"⟩⟩ := rfl
  have htaint : (taintOf evaluatedFacts (Registry.builtin.extend (.ofSanitizers ["quote"])) 16
      (readOf "a") moduleScope []).1 = some ⟨.requestInput "request" "args",
        [⟨0, 0, "request.args"⟩, ⟨0, 0, "b"⟩, ⟨0, 0, "a"⟩]⟩ := by cbv
  have hfound := checkCall_finding (Settings.default.extendedBy (.ofSanitizers ["quote"])) hsink
    htaint
  have hcall : evaluationOfA ∈ evaluatedFacts.calls := List.mem_singleton_self _
  have hall := sources_add_findings_and_sanitizers_drop_them .default evaluatedFacts hids
  obtain ⟨f, hf, hspot⟩ := (hall.2 ["quote"]).1.calls _ hcall _ hfound
  obtain ⟨g, hg, hspot'⟩ := (hall.1 ["bottle.request"] ["query"]).1.calls _ hcall _ hf
  exact ⟨hids, _, g, hfound, hg, hspot'.trans hspot⟩

end XPathTaint
