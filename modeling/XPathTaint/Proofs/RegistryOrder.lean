import XPathTaint.Proofs.ReceiverChains
import XPathTaint.Proofs.TaintMemory

-- Registries in order. One sees more than another when it knows all of its sources and has no
-- sanitizer besides; one names more when it knows all of its libraries. What is found with the
-- lesser of two registries is found with the greater one.

namespace XPathTaint

/-! ## Members of libraries -/

/-- A path is a member of one of some libraries: the library, a dot and one more segment. -/
def IsMember (libraries : List String) (path member : String) : Prop :=
  ∃ lib ∈ libraries, path = lib ++ "." ++ member ∧ member ≠ "" ∧ '.' ∉ member.toList

/-- What stands behind the last dot. -/
theorem eq_of_behind_last_dot {lib lib' member member' : List Char} (hdot : '.' ∉ member)
    (hdot' : '.' ∉ member') (h : lib ++ '.' :: member = lib' ++ '.' :: member') :
    member = member' := by
  rcases List.append_eq_append_iff.mp h with ⟨more, _, hrest⟩ | ⟨more, _, hrest⟩
  · cases more with
    | nil => exact (List.cons.inj hrest).2
    | cons c more =>
      obtain ⟨_, rfl⟩ := List.cons.inj hrest
      simp at hdot
  · cases more with
    | nil => exact (List.cons.inj hrest).2.symm
    | cons c more =>
      obtain ⟨_, rfl⟩ := List.cons.inj hrest
      simp at hdot'

/-- A path is the same member of all libraries that it is a member of. -/
theorem IsMember.eq {libraries libraries' : List String} {path member member' : String}
    (h : IsMember libraries path member) (h' : IsMember libraries' path member') :
    member = member' := by
  obtain ⟨lib, _, rfl, _, hdot⟩ := h
  obtain ⟨lib', _, heq, _, hdot'⟩ := h'
  have hchars : lib.toList ++ '.' :: member.toList = lib'.toList ++ '.' :: member'.toList := by
    simpa using congrArg String.toList heq
  exact String.toList_injective (eq_of_behind_last_dot hdot hdot' hchars)

theorem IsMember.mono {libraries libraries' : List String} {path member : String}
    (hsub : libraries ⊆ libraries') (h : IsMember libraries path member) :
    IsMember libraries' path member := by
  obtain ⟨lib, hlib, hpath⟩ := h
  exact ⟨lib, hsub hlib, hpath⟩

namespace Registry

theorem memberOf_eq_some_iff {path lib member : List Char} :
    memberOf path lib = some member ↔ path = lib ++ '.' :: member ∧ member ≠ [] ∧ '.' ∉ member := by
  unfold memberOf
  constructor
  · intro h
    split at h
    · rename_i hprefix
      obtain ⟨rest, rfl⟩ := List.isPrefixOf_iff_prefix.mp hprefix
      rw [List.drop_left] at h
      split at h
      · split at h
        · cases h
        · rename_i hplain
          simp only [Bool.or_eq_true, List.isEmpty_iff, List.contains_iff_mem, not_or] at hplain
          cases h
          exact ⟨rfl, hplain⟩
      · cases h
    · cases h
  · rintro ⟨rfl, hne, hdot⟩
    simp [hne, hdot]

theorem memberOf_toList_eq_some_iff {path lib member : String} :
    (memberOf path.toList lib.toList).map String.ofList = some member ↔
      path = lib ++ "." ++ member ∧ member ≠ "" ∧ '.' ∉ member.toList := by
  rw [Option.map_eq_some_iff]
  simp only [memberOf_eq_some_iff]
  constructor
  · rintro ⟨cs, ⟨hpath, hne, hdot⟩, rfl⟩
    refine ⟨String.toList_injective ?_, ?_, ?_⟩
    · simpa using hpath
    · simpa using hne
    · simpa using hdot
  · rintro ⟨rfl, hne, hdot⟩
    exact ⟨member.toList, ⟨by simp, by simpa using hne, hdot⟩, String.ofList_toList⟩

/-- The first library that has a path as a member decides nothing: any other says the same. -/
theorem xmlMember?_eq_some_iff {reg : Registry} {path member : String} :
    reg.xmlMember? path = some member ↔ IsMember reg.xmlLibraries path member := by
  unfold xmlMember?
  constructor
  · intro h
    obtain ⟨lib, hlib, hmember⟩ := List.exists_of_findSome?_eq_some h
    exact ⟨lib, hlib, memberOf_toList_eq_some_iff.mp hmember⟩
  · intro h
    obtain ⟨lib, hlib, hmember⟩ := id h
    rcases hfound : reg.xmlLibraries.findSome? fun lib =>
        (memberOf path.toList lib.toList).map String.ofList with _ | found
    · have hnone := List.findSome?_eq_none_iff.mp hfound lib hlib
      rw [memberOf_toList_eq_some_iff.mpr hmember] at hnone
      cases hnone
    · obtain ⟨first, hfirst, hother⟩ := List.exists_of_findSome?_eq_some hfound
      have hsame : found = member :=
        IsMember.eq ⟨first, hfirst, memberOf_toList_eq_some_iff.mp hother⟩ h
      exact hfound.trans (congrArg some hsame)

/-! ## Registries that know more -/

/-- All that is tainted with the lesser registry is tainted with the greater one: it knows every
source of the lesser one, and has no sanitizer that the lesser one lacks. -/
structure SeesMore (less more : Registry) : Prop where
  requestObjects : less.requestObjects ⊆ more.requestObjects
  surfaces : less.surfaces ⊆ more.surfaces
  sanitizers : more.sanitizers ⊆ less.sanitizers

/-- The greater registry knows every library of the lesser one. -/
def NamesMore (less more : Registry) : Prop := less.xmlLibraries ⊆ more.xmlLibraries

variable {less more : Registry}

theorem NamesMore.refl (reg : Registry) : NamesMore reg reg := fun _ h => h

theorem NamesMore.xmlMember? (h : NamesMore less more) {path member : String}
    (hmember : less.xmlMember? path = some member) : more.xmlMember? path = some member :=
  xmlMember?_eq_some_iff.mpr ((xmlMember?_eq_some_iff.mp hmember).mono h)

theorem SeesMore.isSanitizer (h : SeesMore less more) {callee : String}
    (hcallee : more.isSanitizer callee = true) : less.isSanitizer callee = true := by
  obtain ⟨s, hs, hends⟩ := List.any_eq_true.mp hcallee
  exact List.any_eq_true.mpr ⟨s, h.sanitizers hs, hends⟩

end Registry

open Registry

/-! ## Sources -/

section

variable {symbols : Symbols} {reg less more : Registry} {path object member : String}

theorem requestMember_mono (h : SeesMore less more)
    (hmember : requestMember less path = some (object, member)) :
    requestMember more path = some (object, member) := by
  unfold requestMember at hmember ⊢
  cases hsplit : splitLast path with
  | none => rw [hsplit] at hmember; cases hmember
  | some found =>
    rw [hsplit] at hmember
    simp only [isRequestObject, List.contains_iff_mem, Option.ite_none_right_eq_some] at hmember ⊢
    exact ⟨h.requestObjects hmember.1, hmember.2⟩

theorem inputCollection_mono (h : SeesMore less more)
    (hinput : (inputCollection less path).isSome) : (inputCollection more path).isSome := by
  unfold inputCollection at hinput ⊢
  rcases hmember : requestMember less path with _ | ⟨object, surface⟩
  · rw [hmember] at hinput
    cases hinput
  · rw [hmember] at hinput
    rw [requestMember_mono h hmember]
    simp only [isSurface, List.contains_iff_mem, Option.isSome_ite] at hinput ⊢
    exact h.surfaces hinput

/-- A path of names that stands for a collection of input. -/
def NamesInput (symbols : Symbols) (reg : Registry) (e : Expr) : Prop :=
  ((canonicalOf symbols e).bind (inputCollection reg)).isSome

/-- A call is a source when it asks a request object for its body, or calls a method of a collection
of input. -/
theorem sourceOf_call_isSome {func : Expr} {callee : Option String} {args : List Argument}
    {o : Origin} : (sourceOf symbols reg (.call func callee args o)).isSome ↔
      ∃ path, callee = some path ∧
        ((∃ object method, requestMember reg path = some (object, method) ∧
            method ∈ bodyMethods) ∨
          ∃ object, func.receiver? = some object ∧ NamesInput symbols reg object) := by
  cases callee with
  | none => simp [sourceOf]
  | some path =>
    unfold sourceOf
    dsimp only
    rcases hmember : requestMember reg path with _ | ⟨object, method⟩
    · cases func <;> simp [Expr.receiver?, NamesInput, hmember]
    · by_cases hbody : method ∈ bodyMethods
      · simp [hmember, hbody]
      · cases func <;> simp [Expr.receiver?, NamesInput, hmember, hbody]

theorem sourceOf_member_isSome {object : Expr} {attr : String} {o : Origin} :
    (sourceOf symbols reg (.member object attr o)).isSome ↔
      NamesInput symbols reg (.member object attr o) ∨
        ∃ path object' member, canonicalOf symbols (.member object attr o) = some path ∧
          requestMember reg path = some (object', member) ∧ member ∈ bodyMembers := by
  unfold sourceOf NamesInput
  rcases canonicalOf symbols (.member object attr o) with _ | path
  · simp
  · rcases hinput : inputCollection reg path with _ | source
    · rcases hmember : requestMember reg path with _ | ⟨object, member⟩ <;> simp [hinput, hmember]
    · simp [hinput]

theorem NamesInput.mono (h : SeesMore less more) {e : Expr} (he : NamesInput symbols less e) :
    NamesInput symbols more e := by
  unfold NamesInput at he ⊢
  cases hpath : canonicalOf symbols e with
  | none => rw [hpath] at he; cases he
  | some path =>
    rw [hpath] at he
    exact inputCollection_mono h he

theorem sourceOf_mono (h : SeesMore less more) {e : Expr}
    (he : (sourceOf symbols less e).isSome) : (sourceOf symbols more e).isSome := by
  cases e with
  | call func callee args o =>
    rw [sourceOf_call_isSome] at he ⊢
    obtain ⟨path, hcallee, ⟨object, method, hmember, hbody⟩ | ⟨object, hobject, hinput⟩⟩ := he
    · exact ⟨path, hcallee, Or.inl ⟨object, method, requestMember_mono h hmember, hbody⟩⟩
    · exact ⟨path, hcallee, Or.inr ⟨object, hobject, hinput.mono h⟩⟩
  | member object attr o =>
    rw [sourceOf_member_isSome] at he ⊢
    obtain hinput | ⟨path, object', member, hpath, hmember, hbody⟩ := he
    · exact Or.inl (hinput.mono h)
    · exact Or.inr ⟨path, object', member, hpath, requestMember_mono h hmember, hbody⟩
  | subscript value index o => exact NamesInput.mono h he
  | name => cases he
  | literal => cases he
  | compound => cases he
  | unknown => cases he

/-! ## Documents and evaluators -/

theorem MadeBy.of_namesMore (h : NamesMore less more) {members : List String} {e : Expr}
    (he : MadeBy less members e) : MadeBy more members e := by
  obtain ⟨func, path, member, args, o, rfl, hpath, hmember⟩ := he
  exact ⟨func, path, member, args, o, rfl, h.xmlMember? hpath, hmember⟩

/-! ## Taint -/

variable {reads : String → Nat → Prop}

theorem filter_isSanitizer_mono (h : SeesMore less more) {callee : Option String}
    (hcallee : callee.filter less.isSanitizer = none) :
    callee.filter more.isSanitizer = none := by
  rw [Option.filter_eq_none_iff] at hcallee ⊢
  exact fun path hpath hmore => hcallee path hpath (h.isSanitizer hmore)

/-- What carries taint with the lesser registry carries it with the greater one. -/
theorem Carries.of_seesMore (h : SeesMore less more) {e : Expr}
    (he : Carries symbols less reads e) : Carries symbols more reads e := by
  induction e using Expr.ind with
  | name id o => exact (carries_name id o).mpr ((carries_name id o).mp he)
  | literal value o => simp [Carries, sourceOf] at he
  | unknown o => simp [Carries, sourceOf] at he
  | member object attr o ih =>
    rw [carries_member] at he ⊢
    rcases he with hsource | hread | hobject
    · exact Or.inl (sourceOf_mono h hsource)
    · exact Or.inr (Or.inl hread)
    · exact Or.inr (Or.inr (ih hobject))
  | subscript value index o ih =>
    rw [carries_subscript] at he ⊢
    exact he.imp (sourceOf_mono h) ih
  | call func callee args o ihf iha =>
    rw [carries_call] at he ⊢
    rcases he with hsource | ⟨hcallee, ⟨object, hobject, hc⟩ | ⟨a, ha, hc⟩⟩
    · exact Or.inl (sourceOf_mono h hsource)
    · exact Or.inr ⟨filter_isSanitizer_mono h hcallee,
        Or.inl ⟨object, hobject, ihf.of_receiver hobject hc⟩⟩
    · exact Or.inr ⟨filter_isSanitizer_mono h hcallee, Or.inr ⟨a, ha, iha a ha hc⟩⟩
  | compound operands o ih =>
    rw [carries_compound] at he ⊢
    obtain ⟨e, hm, hc⟩ := he
    exact ⟨e, hm, ih e hm hc⟩

variable {facts : FileFacts} {scope : ScopeId} {block : BlockPath} {budget : Nat} {name : String}
  {pos : Nat}

theorem TaintsRead.of_seesMore (h : SeesMore less more)
    (hread : TaintsRead facts less scope budget block name pos) :
    TaintsRead facts more scope budget block name pos := by
  induction budget generalizing block name pos with
  | zero => exact hread
  | succ budget ih =>
    rcases hread with ⟨b, hb, hvalue⟩ | hparam
    · exact Or.inl ⟨b, hb, (hvalue.of_seesMore h).mono fun _ _ => ih⟩
    · exact Or.inr hparam

theorem taintOf_of_seesMore (hids : DistinctIds facts) (h : SeesMore less more) {maxHops : Nat}
    {e : Expr} (he : (taintOf facts less maxHops e scope block).1.isSome) :
    (taintOf facts more maxHops e scope block).1.isSome := by
  rw [taintOf_isSome_iff hids] at he ⊢
  exact (he.of_seesMore h).mono fun _ _ => TaintsRead.of_seesMore h

end

end XPathTaint
