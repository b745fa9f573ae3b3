import XPathTaint.Proofs.HopBudgets

-- What it does to a sink that more XML libraries are registered. It stays the sink that it was
-- unless its callee is a member of one of the new libraries; such a call is judged by the name of
-- that member alone, whatever its receiver is.

namespace XPathTaint

/-- A catalog with nothing but XML libraries. -/
def Catalog.ofLibraries (xmlLibraries : List String) : Catalog :=
  { Catalog.empty with xmlLibraries }

/-- A call whose callee is a member of one of the new libraries and of none that is registered. -/
def NamedAnew (reg : Registry) (libraries : List String) (call : CallSite) (member : String) :
    Prop :=
  ∃ path, call.callee = some path ∧ IsMember libraries path member ∧
    ∀ old, ¬ IsMember reg.xmlLibraries path old

/-- What a call is whose callee is a member of a library. -/
def sinkByName (call : CallSite) (member : String) : Option SinkMatch :=
  if member = "XPath" then (closedSignature call .xpath).1
  else if member = "ETXPath" then (closedSignature call .etXPath).1
  else none

section

variable {facts : FileFacts} {reg : Registry} {libraries : List String} {maxHops : Nat}
  {call : CallSite} {member : String}

theorem sinkOf_member (h : call.callee.bind reg.xmlMember? = some member) :
    (sinkOf facts reg maxHops call).1 = sinkByName call member := by
  unfold sinkOf sinkByName
  simp only [h]
  split
  · rfl
  · split <;> rfl

theorem namesMore_ofLibraries (reg : Registry) (libraries : List String) :
    reg.NamesMore (reg.extend (.ofLibraries libraries)) :=
  fun _ h => mem_extendNew.mpr (Or.inl h)

theorem isMember_extend {path : String} :
    IsMember (reg.extend (.ofLibraries libraries)).xmlLibraries path member ↔
      IsMember reg.xmlLibraries path member ∨ IsMember libraries path member := by
  constructor
  · rintro ⟨lib, hlib, hpath⟩
    exact (mem_extendNew.mp hlib).imp (⟨lib, ·, hpath⟩) (⟨lib, ·, hpath⟩)
  · rintro (⟨lib, hlib, hpath⟩ | ⟨lib, hlib, hpath⟩)
    · exact ⟨lib, mem_extendNew.mpr (Or.inl hlib), hpath⟩
    · exact ⟨lib, mem_extendNew.mpr (Or.inr hlib), hpath⟩

theorem NamedAnew.xmlMember? (h : NamedAnew reg libraries call member) :
    call.callee.bind (reg.extend (.ofLibraries libraries)).xmlMember? = some member := by
  obtain ⟨path, hcallee, hmember, _⟩ := h
  rw [hcallee]
  exact Registry.xmlMember?_eq_some_iff.mpr (isMember_extend.mpr (Or.inr hmember))

/-- A callee that is not named anew is the member of a library that it was before, or none. -/
theorem xmlMember?_of_not_namedAnew (h : ∀ member, ¬ NamedAnew reg libraries call member) :
    call.callee.bind (reg.extend (.ofLibraries libraries)).xmlMember? =
      call.callee.bind reg.xmlMember? := by
  cases hcallee : call.callee with
  | none => rfl
  | some path =>
    refine Option.ext fun member => ?_
    rw [Option.bind_some, Option.bind_some, Registry.xmlMember?_eq_some_iff,
      Registry.xmlMember?_eq_some_iff, isMember_extend]
    refine ⟨?_, Or.inl⟩
    rintro (hold | hnew)
    · exact hold
    · by_contra hnone
      refine h member ⟨path, hcallee, hnew, fun old hold => hnone ?_⟩
      rwa [hnew.eq hold]

end

/-! ## Sinks -/

/-- With more libraries a sink stays the same sink with the same argument, unless its callee is a
member of a new library: then the name of the member alone decides what the call is. -/
theorem more_libraries_hide_only_what_they_name (facts : FileFacts) (hids : DistinctIds facts)
    (reg : Registry) (libraries : List String) (maxHops : Nat) (call : CallSite)
    (sink : SinkMatch) (h : (sinkOf facts reg maxHops call).1 = some sink) :
    ((∀ member, ¬ NamedAnew reg libraries call member) →
        (sinkOf facts (reg.extend (.ofLibraries libraries)) maxHops call).1 = some sink) ∧
      ∀ member, NamedAnew reg libraries call member →
        (sinkOf facts (reg.extend (.ofLibraries libraries)) maxHops call).1 =
          sinkByName call member := by
  constructor
  · intro hold
    exact sinkOf_mono hids (namesMore_ofLibraries reg libraries) (Nat.le_refl _)
      (xmlMember?_of_not_namedAnew hold) h
  · intro member hnew
    exact sinkOf_member hnew.xmlMember?

/-! ## A document and a library of one name -/

/-- The call `tree.xpath(q)` on the parsed document. -/
def queryOfTree : CallSite :=
  { id := 3, callee := some "tree.xpath",
    func := .member (.name "tree" ⟨"tree", 44, default⟩) "xpath" ⟨"tree.xpath", 44, default⟩,
    args := [⟨none, .none, readOf "q"⟩], scope := moduleScope, block := [], pos := 44,
    place := default, text := "tree.xpath(q)" }

theorem sinkOf_queryOfTree : (sinkOf parsedFacts .builtin 16 queryOfTree).1 =
    some ⟨.treeXPath, ⟨none, .none, readOf "q"⟩⟩ := by
  have hmember : Registry.builtin.xmlMember? "tree.xpath" = none := by cbv
  have hdocument : isDocument parsedFacts .builtin moduleScope [] 16
      (.name "tree" ⟨"tree", 44, default⟩) = true := by cbv
  unfold sinkOf
  simp only [queryOfTree, Option.bind_some, hmember, hdocument, if_true]
  rfl

theorem more_libraries_hide_only_what_they_name_of_a_document :
    DistinctIds parsedFacts ∧
      (sinkOf parsedFacts .builtin 16 queryOfTree).1 =
        some ⟨.treeXPath, ⟨none, .none, readOf "q"⟩⟩ ∧
      (∀ member, ¬ NamedAnew .builtin ["mylib.xml"] queryOfTree member) ∧
      (sinkOf parsedFacts (Registry.builtin.extend (.ofLibraries ["mylib.xml"])) 16
        queryOfTree).1 = some ⟨.treeXPath, ⟨none, .none, readOf "q"⟩⟩ := by
  have hids : DistinctIds parsedFacts := by decide
  have hold : ∀ member, ¬ NamedAnew .builtin ["mylib.xml"] queryOfTree member := by
    rintro member ⟨path, hpath, hmember, _⟩
    obtain rfl : "tree.xpath" = path := Option.some.inj hpath
    have hnone : { Registry.builtin with xmlLibraries := ["mylib.xml"] }.xmlMember? "tree.xpath" =
        none := by cbv
    cases hnone.symm.trans (Registry.xmlMember?_eq_some_iff.mpr hmember)
  exact ⟨hids, sinkOf_queryOfTree, hold, (more_libraries_hide_only_what_they_name parsedFacts hids
    .builtin ["mylib.xml"] 16 queryOfTree _ sinkOf_queryOfTree).1 hold⟩

/-- Once a library has the name of the variable, the query of the document is no sink any more. -/
theorem a_library_named_like_a_document_hides_its_query :
    DistinctIds parsedFacts ∧
      (sinkOf parsedFacts .builtin 16 queryOfTree).1 =
        some ⟨.treeXPath, ⟨none, .none, readOf "q"⟩⟩ ∧
      (sinkOf parsedFacts (Registry.builtin.extend (.ofLibraries ["tree"])) 16 queryOfTree).1 =
        none := by
  exact ⟨by decide, sinkOf_queryOfTree, rfl⟩

end XPathTaint
