import Mathlib.Logic.Relation
import XPathTaint.Proofs.LibraryNames

-- The arguments of `XPath` and `ETXPath`. Three scans of the same list decide what such a call
-- evaluates: for keywords that it does not take, for the argument in the slot of the expression,
-- and for options. None of them looks at options or mappings of keywords on the way to the slot.

namespace XPathTaint

/-! ## Arguments -/

/-- Whether an argument is an option, or a mapping of keywords. -/
def isInert (a : Argument) : Bool :=
  match a.keyword with
  | some keyword => isOption keyword
  | none => a.splat == .dict

/-- Whether an argument takes a place of its own among the positional ones. -/
def takesPlace (a : Argument) : Bool := a.keyword.isNone && a.splat != .dict

/-- Whether the keyword of an argument is none that the call takes. -/
def isStray (a : Argument) : Bool := a.keyword.any fun k => k != "path" && !isOption k

/-- An inert argument is put in, taken out, or moved past others. -/
inductive InertEdit : List Argument → List Argument → Prop
  | putIn (before after : List Argument) (a : Argument) (h : isInert a = true) :
      InertEdit (before ++ after) (before ++ a :: after)
  | takeOut (before after : List Argument) (a : Argument) (h : isInert a = true) :
      InertEdit (before ++ a :: after) (before ++ after)
  | moveBack (before between after : List Argument) (a : Argument) (h : isInert a = true) :
      InertEdit (before ++ a :: between ++ after) (before ++ between ++ a :: after)
  | moveUp (before between after : List Argument) (a : Argument) (h : isInert a = true) :
      InertEdit (before ++ between ++ a :: after) (before ++ a :: between ++ after)

/-- The arguments that are not inert. -/
def essential (args : List Argument) : List Argument := args.filter fun a => !isInert a

theorem InertEdit.essential_eq {args args' : List Argument} (h : InertEdit args args') :
    essential args' = essential args := by
  cases h <;> rename_i h <;> simp [essential, List.filter_append, h]

theorem essential_eq_of_edits {args args' : List Argument}
    (h : Relation.ReflTransGen InertEdit args args') : essential args' = essential args := by
  induction h with
  | refl => rfl
  | tail _ hedit ih => exact hedit.essential_eq.trans ih

theorem isInert_of_takesPlace {a : Argument} (h : takesPlace a = true) : isInert a = false := by
  obtain ⟨keyword, splat, value⟩ := a
  cases keyword with
  | none => simpa [takesPlace, isInert] using h
  | some keyword => simp [takesPlace] at h

theorem isInert_of_isStray {a : Argument} (h : isStray a = true) : isInert a = false := by
  obtain ⟨keyword, splat, value⟩ := a
  cases keyword with
  | none => simp [isStray] at h
  | some keyword =>
    have hstray : keyword ≠ "path" ∧ isOption keyword = false := by simpa [isStray] using h
    simpa [isInert] using hstray.2

theorem isInert_of_path {a : Argument} (h : (a.keyword == some "path") = true) :
    isInert a = false := by
  have hpath : isOption "path" = false := by decide
  simp [isInert, beq_iff_eq.mp h, hpath]

/-- What a test finds that no inert argument passes. -/
theorem find?_essential {test : Argument → Bool} (htest : ∀ a, test a = true → isInert a = false)
    (args : List Argument) : (essential args).find? test = args.find? test := by
  rw [essential, List.find?_filter]
  congr 1
  funext a
  cases h : test a with
  | false => simp
  | true => simp [htest a h]

theorem filter_essential (args : List Argument) :
    (essential args).filter takesPlace = args.filter takesPlace := by
  rw [essential, List.filter_filter]
  congr 1
  funext a
  cases h : takesPlace a with
  | false => simp
  | true => simp [isInert_of_takesPlace h]

/-! ## Calls with other arguments -/

/-- The argument that a call evaluates, if it evaluates one. -/
def evaluated (facts : FileFacts) (reg : Registry) (maxHops : Nat) (call : CallSite) :
    Option Argument :=
  (sinkOf facts reg maxHops call).1.map (·.arg)

/-- The argument in the slot of `XPath` and `ETXPath`. -/
def slotOf (args : List Argument) : Option Argument :=
  if args.any isStray then none
  else
    match args.filter takesPlace with
    | [] => args.find? (·.keyword == some "path")
    | [only] => if only.splat = .none then some only else none
    | _ => none

theorem any_isStray_essential (args : List Argument) :
    (essential args).any isStray = args.any isStray := by
  rw [← List.isSome_find?, ← List.isSome_find?, find?_essential fun _ => isInert_of_isStray]

theorem slotOf_essential (args : List Argument) : slotOf (essential args) = slotOf args := by
  unfold slotOf
  rw [filter_essential, any_isStray_essential, find?_essential fun _ => isInert_of_path]

theorem slotOf_eq_of_edits {args args' : List Argument}
    (h : Relation.ReflTransGen InertEdit args args') : slotOf args' = slotOf args := by
  rw [← slotOf_essential args', essential_eq_of_edits h, slotOf_essential]

section

variable {call : CallSite} {kind : SinkKind} {sink : SinkMatch}

theorem isSome_find?_keyword (args : List Argument) :
    ((args.filterMap (·.keyword)).find? fun k => k != "path" && !isOption k).isSome =
      args.any isStray := by
  rw [List.isSome_find?, List.any_filterMap]
  rfl

theorem arg_designated : (designated call "path").1 =
    match call.args.filter takesPlace with
    | [] => call.args.find? (·.keyword == some "path")
    | [only] => if only.splat = .none then some only else none
    | _ => none := by
  have htest : (fun a : Argument => a.keyword.isNone && a.splat != .dict) = takesPlace := rfl
  unfold designated
  rw [htest]
  rcases call.args.filter takesPlace with _ | ⟨only, _ | ⟨second, rest⟩⟩
  · rfl
  · dsimp only
    split <;> rfl
  · rfl

theorem arg_closedSignature : (closedSignature call kind).1.map (·.arg) = slotOf call.args := by
  unfold closedSignature slotOf
  dsimp only
  rw [← isSome_find?_keyword]
  split
  · rename_i hstray
    simp [hstray]
  · rename_i hnone
    simp only [hnone, Option.isSome_none, Bool.false_eq_true, if_false, Option.map_map]
    rw [← arg_designated]
    exact Option.map_id'

theorem kind_closedSignature (h : (closedSignature call kind).1 = some sink) :
    sink.kind = if kind = .xpath && (call.args.filterMap (·.keyword)).any isOption then
      .xpathWithOptions else kind := by
  unfold closedSignature at h
  dsimp only at h
  split at h
  · cases h
  · obtain ⟨arg, _, rfl⟩ := Option.map_eq_some_iff.mp h
    rfl

theorem any_isOption_iff (args : List Argument) : (args.filterMap (·.keyword)).any isOption = true ↔
    ∃ a ∈ args, ∃ k, a.keyword = some k ∧ isOption k = true := by
  rw [List.any_eq_true]
  constructor
  · rintro ⟨k, hk, hoption⟩
    obtain ⟨a, ha, hkeyword⟩ := List.mem_filterMap.mp hk
    exact ⟨a, ha, k, hkeyword, hoption⟩
  · rintro ⟨a, ha, k, hkeyword, hoption⟩
    exact ⟨k, List.mem_filterMap.mpr ⟨a, ha, hkeyword⟩, hoption⟩

end

section

variable {facts : FileFacts} {reg : Registry} {maxHops : Nat} {call : CallSite} {member : String}

theorem evaluated_eq_slotOf (hmember : call.callee.bind reg.xmlMember? = some member)
    (hname : member = "XPath" ∨ member = "ETXPath") :
    evaluated facts reg maxHops call = slotOf call.args := by
  unfold evaluated sinkOf
  simp only [hmember]
  rcases hname with rfl | rfl
  · exact arg_closedSignature
  · exact arg_closedSignature

theorem kind_eq_xpathWithOptions_iff (hmember : call.callee.bind reg.xmlMember? = some member)
    (hname : member = "XPath" ∨ member = "ETXPath") {sink : SinkMatch}
    (h : (sinkOf facts reg maxHops call).1 = some sink) :
    sink.kind = .xpathWithOptions ↔
      member = "XPath" ∧ ∃ a ∈ call.args, ∃ k, a.keyword = some k ∧ isOption k = true := by
  rw [sinkOf_member hmember] at h
  rw [← any_isOption_iff]
  rcases hname with rfl | rfl
  · rw [kind_closedSignature h]
    split <;> simp_all
  · rw [@kind_closedSignature call .etXPath sink h]
    simp

end

/-! ## The slot -/

section

variable {before after args : List Argument} {a : Argument}

/-- None of these is a value in place, or has the keyword of the slot. -/
def LeavesSlot (others : List Argument) : Prop :=
  ∀ b ∈ others, (b.keyword = none → b.splat ≠ .none) ∧ b.keyword ≠ some "path"

theorem slotOf_of_isStray (ha : a ∈ args) (h : isStray a = true) : slotOf args = none := by
  unfold slotOf
  rw [if_pos (List.any_eq_true.mpr ⟨a, ha, h⟩)]

theorem slotOf_of_several (h : 2 ≤ (args.filter takesPlace).length) : slotOf args = none := by
  unfold slotOf
  split
  · rfl
  · split
    · rename_i hnone
      simp [hnone] at h
    · rename_i hone
      simp [hone] at h
    · rfl

theorem slotOf_of_splat (ha : a ∈ args) (hkeyword : a.keyword = none) (hsplat : a.splat = .list) :
    slotOf args = none := by
  have hmem : a ∈ args.filter takesPlace :=
    List.mem_filter.mpr ⟨ha, by simp [takesPlace, hkeyword, hsplat]⟩
  unfold slotOf
  split
  · rfl
  · split
    · rename_i hnone
      simp [hnone] at hmem
    · rename_i only hone
      obtain rfl : a = only := List.mem_singleton.mp (hone ▸ hmem)
      simp [hsplat]
    · rfl

/-- What leaves the slot and is not inert keeps the call from fitting at all. -/
theorem slotOf_of_not_inert (ha : a ∈ args) (h : isInert a = false)
    (hkeyword : a.keyword = none → a.splat ≠ .none) (hpath : a.keyword ≠ some "path") :
    slotOf args = none := by
  cases hk : a.keyword with
  | some keyword =>
    have hoption : isOption keyword = false := by simpa [isInert, hk] using h
    refine slotOf_of_isStray ha ?_
    simpa [isStray, hk, hoption] using hpath
  | none =>
    have hdict : a.splat ≠ .dict := by simpa [isInert, hk] using h
    refine slotOf_of_splat ha hk ?_
    cases hs : a.splat with
    | none => exact absurd hs (hkeyword hk)
    | list => rfl
    | dict => exact absurd hs hdict

/-- One argument among others that leave it the slot. -/
theorem slotOf_insert (h : LeavesSlot (before ++ after)) (ha : isInert a = false) :
    slotOf (before ++ a :: after) =
      if (before ++ after).all isInert then slotOf [a] else none := by
  split
  · rename_i hall
    have hnone : essential (before ++ after) = [] :=
      List.filter_eq_nil_iff.mpr fun b hb => by simp [List.all_eq_true.mp hall b hb]
    obtain ⟨hbefore, hafter⟩ : essential before = [] ∧ essential after = [] :=
      List.append_eq_nil_iff.mp (List.filter_append .. ▸ hnone)
    have hessential :
        essential (before ++ a :: after) = essential before ++ a :: essential after := by
      simp [essential, ha]
    rw [← slotOf_essential, hessential, hbefore, hafter, List.nil_append]
  · rename_i hall
    obtain ⟨b, hb, hinert⟩ : ∃ b ∈ before ++ after, isInert b = false := by
      simpa only [List.all_eq_true, not_forall, exists_prop, Bool.not_eq_true] using hall
    have hmem : b ∈ before ++ a :: after := by
      rcases List.mem_append.mp hb with hb | hb
      · exact List.mem_append_left _ hb
      · exact List.mem_append_right _ (List.mem_cons_of_mem a hb)
    exact slotOf_of_not_inert hmem hinert (h b hb).1 (h b hb).2

end

/-! ## Calls -/

/-- In a call of `XPath` or `ETXPath`, options and mappings of keywords can be put in, taken out and
moved without a change of what is evaluated. A value in place and the same value with the keyword of
the slot are evaluated alike, and are so unless something that is not inert stands beside it. With
another keyword, a second value in place or the items of a list nothing is evaluated. The kind tells
options from none, for `XPath` only. -/
theorem options_do_not_change_what_is_evaluated (facts : FileFacts) (reg : Registry) (maxHops : Nat)
    (call : CallSite) (path member : String) (hcallee : call.callee = some path)
    (hmember : IsMember reg.xmlLibraries path member)
    (hname : member = "XPath" ∨ member = "ETXPath") :
    (∀ args args', Relation.ReflTransGen InertEdit args args' →
      evaluated facts reg maxHops { call with args := args' } =
        evaluated facts reg maxHops { call with args := args }) ∧
    (∀ before after value, LeavesSlot (before ++ after) →
      (evaluated facts reg maxHops
          { call with args := before ++ ⟨none, .none, value⟩ :: after }).map (·.value) =
        (if (before ++ after).all isInert then some value else none) ∧
      (evaluated facts reg maxHops
          { call with args := before ++ ⟨some "path", .none, value⟩ :: after }).map (·.value) =
        (if (before ++ after).all isInert then some value else none)) ∧
    (∀ args, (∃ a ∈ args, isStray a = true) ∨ 2 ≤ (args.filter takesPlace).length ∨
        (∃ a ∈ args, a.keyword = none ∧ a.splat = .list) →
      evaluated facts reg maxHops { call with args := args } = none) ∧
    (∀ args sink, (sinkOf facts reg maxHops { call with args := args }).1 = some sink →
      (sink.kind = .xpathWithOptions ↔
        member = "XPath" ∧ ∃ a ∈ args, ∃ k, a.keyword = some k ∧ isOption k = true)) := by
  have hfound (args : List Argument) :
      ({ call with args := args } : CallSite).callee.bind reg.xmlMember? = some member := by
    rw [hcallee]
    exact Registry.xmlMember?_eq_some_iff.mpr hmember
  have hslot : ∀ args, evaluated facts reg maxHops { call with args := args } = slotOf args :=
    fun args => evaluated_eq_slotOf (hfound args) hname
  refine ⟨?edits, ?slot, ?misfits, ?kinds⟩
  case edits =>
    intro args args' hedits
    rw [hslot, hslot, slotOf_eq_of_edits hedits]
  case slot =>
    intro before after value hothers
    constructor
    · rw [hslot, slotOf_insert hothers rfl]
      split <;> rfl
    · rw [hslot, slotOf_insert hothers (isInert_of_path rfl)]
      split <;> rfl
  case misfits =>
    intro args hargs
    rw [hslot]
    rcases hargs with ⟨a, ha, hstray⟩ | hseveral | ⟨a, ha, hkeyword, hsplat⟩
    · exact slotOf_of_isStray ha hstray
    · exact slotOf_of_several hseveral
    · exact slotOf_of_splat ha hkeyword hsplat
  case kinds =>
    intro args sink hsink
    exact kind_eq_xpathWithOptions_iff (hfound args) hname hsink

/-- The call `lxml.etree.XPath(q)`. -/
def compiledQuery : CallSite :=
  { id := 3, callee := some "lxml.etree.XPath", func := readOf "lxml.etree.XPath",
    args := [⟨none, .none, readOf "q"⟩], scope := moduleScope, block := [], pos := 44,
    place := default, text := "lxml.etree.XPath(q)" }

theorem options_do_not_change_what_is_evaluated_of_a_query :
    compiledQuery.callee = some "lxml.etree.XPath" ∧
      IsMember Registry.builtin.xmlLibraries "lxml.etree.XPath" "XPath" ∧
      evaluated parsedFacts .builtin 16 { compiledQuery with
        args := [⟨some "smart_strings", .none, readOf "s"⟩, ⟨none, .none, readOf "q"⟩,
          ⟨none, .dict, readOf "more"⟩] } = some ⟨none, .none, readOf "q"⟩ ∧
      (evaluated parsedFacts .builtin 16 { compiledQuery with
        args := [⟨some "namespaces", .none, readOf "n"⟩, ⟨some "path", .none, readOf "q"⟩] }).map
          (·.value) = some (readOf "q") ∧
      evaluated parsedFacts .builtin 16 { compiledQuery with
        args := [⟨none, .none, readOf "q"⟩, ⟨some "depth", .none, readOf "d"⟩] } = none := by
  have hmember : IsMember Registry.builtin.xmlLibraries "lxml.etree.XPath" "XPath" :=
    ⟨"lxml.etree", by decide, by decide, by decide, by decide⟩
  obtain ⟨hedits, hslot, hmisfits, _⟩ :=
    options_do_not_change_what_is_evaluated parsedFacts .builtin
    16 compiledQuery "lxml.etree.XPath" "XPath" rfl hmember (Or.inl rfl)
  have hplain :
      evaluated parsedFacts .builtin 16 compiledQuery = some ⟨none, .none, readOf "q"⟩ := rfl
  have hfront : InertEdit [⟨none, .none, readOf "q"⟩]
      [⟨some "smart_strings", .none, readOf "s"⟩, ⟨none, .none, readOf "q"⟩] :=
    .putIn [] _ _ (by decide)
  have hback : InertEdit [⟨some "smart_strings", .none, readOf "s"⟩, ⟨none, .none, readOf "q"⟩]
      [⟨some "smart_strings", .none, readOf "s"⟩, ⟨none, .none, readOf "q"⟩,
        ⟨none, .dict, readOf "more"⟩] :=
    .putIn [⟨some "smart_strings", .none, readOf "s"⟩, ⟨none, .none, readOf "q"⟩] [] _ (by decide)
  refine ⟨rfl, hmember, ?_, ?_, ?_⟩
  · rw [hedits _ _ ((Relation.ReflTransGen.single hfront).tail hback)]
    exact hplain
  · refine (hslot [⟨some "namespaces", .none, readOf "n"⟩] [] (readOf "q") ?_).2.trans (by rfl)
    intro b hb
    obtain rfl := List.mem_singleton.mp hb
    exact ⟨nofun, by decide⟩
  · exact hmisfits _ (Or.inl ⟨_, List.mem_cons_of_mem _ List.mem_cons_self, by decide⟩)

end XPathTaint
