import XPathTaint.Proofs.DottedPaths
import XPathTaint.Proofs.ResolvedCalls
import XPathTaint.Proofs.TaintReads

-- Which expressions of a lowered program read from a request. The canonical paths of receivers and
-- functions decide, so it makes no difference under which names a request object was imported. The
-- callee of a call is resolved when the program is lowered and its receiver when it is asked for;
-- both lead to the same request object.

namespace XPathTaint

open Text

/-! ## Members of request objects -/

/-- A path is that of a member of a registered request object. -/
def NamesMember (reg : Registry) (path request member : String) : Prop :=
  path = request ++ "." ++ member ∧ IsSegment member ∧ reg.isRequestObject request = true

section

variable {symbols : Symbols} {reg : Registry} {path request member : String} {kind : SourceKind}

theorem requestMember_eq_some_iff :
    requestMember reg path = some (request, member) ↔ NamesMember reg path request member := by
  unfold requestMember NamesMember
  constructor
  · intro h
    split at h
    · rename_i object last hsplit
      split at h
      · rename_i hobject
        obtain ⟨rfl, rfl⟩ : object = request ∧ last = member := by simpa using h
        obtain ⟨hpath, hsegment⟩ := splitLast_eq_some_iff.mp hsplit
        exact ⟨hpath, hsegment, hobject⟩
      · cases h
    · cases h
  · rintro ⟨rfl, hsegment, hobject⟩
    rw [splitLast_append hsegment]
    exact if_pos hobject

/-- A path has one last segment, so it is a member of one object only. -/
theorem NamesMember.eq {request' member' : String} (h : NamesMember reg path request member)
    (h' : NamesMember reg path request' member') : request = request' ∧ member = member' := by
  have hsame := (requestMember_eq_some_iff.mpr h).symm.trans (requestMember_eq_some_iff.mpr h')
  simpa using hsame

theorem inputCollection_eq_some_iff : inputCollection reg path = some kind ↔
    ∃ request surface, NamesMember reg path request surface ∧ reg.isSurface surface = true ∧
      kind = .requestInput request surface := by
  unfold inputCollection
  constructor
  · intro h
    split at h
    · rename_i request surface hmember
      split at h
      · rename_i hsurface
        exact ⟨request, surface, requestMember_eq_some_iff.mp hmember, hsurface,
          (Option.some.inj h).symm⟩
      · cases h
    · cases h
  · rintro ⟨request, surface, hmember, hsurface, rfl⟩
    rw [requestMember_eq_some_iff.mpr hmember]
    exact if_pos hsurface

theorem inputCollection_of_namesMember (h : NamesMember reg path request member) :
    inputCollection reg path =
      if reg.isSurface member then some (.requestInput request member) else none := by
  unfold inputCollection
  rw [requestMember_eq_some_iff.mpr h]

end

/-! ## What is read -/

/-- What an expression reads from a request, by the canonical paths in it: an input collection, an
item of one, what a method of one returns, or the body. -/
inductive ReadsRequest (symbols : Symbols) (reg : Registry) : Expr → SourceKind → Prop
  | collection {object : Expr} {attr : String} {o : Origin} {path request surface : String} :
      canonicalOf symbols (.member object attr o) = some path →
      NamesMember reg path request surface → reg.isSurface surface = true →
      ReadsRequest symbols reg (.member object attr o) (.requestInput request surface)
  | item {value index : Expr} {o : Origin} {path request surface : String} :
      canonicalOf symbols value = some path →
      NamesMember reg path request surface → reg.isSurface surface = true →
      ReadsRequest symbols reg (.subscript value index o) (.requestInput request surface)
  /-- The function itself is no method of another request object that returns its body. -/
  | method {object : Expr} {attr : String} {callee : Option String} {args : List Argument}
      {o o' : Origin} {path request surface : String} :
      canonicalOf symbols object = some path →
      NamesMember reg path request surface → reg.isSurface surface = true →
      (∀ other method, NamesMember reg (path ++ "." ++ attr) other method →
        method ∉ Registry.bodyMethods) →
      ReadsRequest symbols reg (.call (.member object attr o) callee args o')
        (.requestInput request surface)
  | bodyMember {object : Expr} {attr : String} {o : Origin} {path request member : String} :
      canonicalOf symbols (.member object attr o) = some path →
      NamesMember reg path request member → reg.isSurface member = false →
      member ∈ Registry.bodyMembers →
      ReadsRequest symbols reg (.member object attr o) (.requestBody request member)
  | bodyMethod {func : Expr} {callee : Option String} {args : List Argument} {o : Origin}
      {path request method : String} :
      canonicalOf symbols func = some path →
      NamesMember reg path request method → method ∈ Registry.bodyMethods →
      ReadsRequest symbols reg (.call func callee args o) (.requestBody request (method ++ "()"))

/-- The ways to write that something is read from a request object. -/
inductive AccessOf (reg : Registry) (request : String) (object : Expr) : Expr → SourceKind → Prop
  | collection (surface : String) (o : Origin) : reg.isSurface surface = true → IsSegment surface →
      AccessOf reg request object (.member object surface o) (.requestInput request surface)
  | item (surface : String) (index : Expr) (o o' : Origin) : reg.isSurface surface = true →
      IsSegment surface →
      AccessOf reg request object (.subscript (.member object surface o) index o')
        (.requestInput request surface)
  /-- If the collection is a request object itself, its own body is not meant. -/
  | method (surface method : String) (callee : Option String) (args : List Argument)
      (o o' o'' : Origin) : reg.isSurface surface = true → IsSegment surface → IsSegment method →
      (reg.isRequestObject (request ++ "." ++ surface) = true → method ∉ Registry.bodyMethods) →
      AccessOf reg request object
        (.call (.member (.member object surface o) method o') callee args o'')
        (.requestInput request surface)
  | bodyMember (member : String) (o : Origin) : member ∈ Registry.bodyMembers →
      reg.isSurface member = false →
      AccessOf reg request object (.member object member o) (.requestBody request member)
  | bodyMethod (method : String) (callee : Option String) (args : List Argument) (o o' : Origin) :
      method ∈ Registry.bodyMethods →
      AccessOf reg request object (.call (.member object method o) callee args o')
        (.requestBody request (method ++ "()"))

section

variable {symbols : Symbols} {reg : Registry} {kind : SourceKind}

/-! ## Recognition -/

theorem sourceOf_member_eq_some_iff {object : Expr} {attr : String} {o : Origin} :
    sourceOf symbols reg (.member object attr o) = some kind ↔
      ReadsRequest symbols reg (.member object attr o) kind := by
  rw [sourceOf]
  constructor
  · intro h
    split at h
    · cases h
    · rename_i path hpath
      split at h
      · rename_i source hinput
        obtain rfl := Option.some.inj h
        obtain ⟨request, surface, hmember, hsurface, rfl⟩ := inputCollection_eq_some_iff.mp hinput
        exact .collection hpath hmember hsurface
      · rename_i hinput
        split at h
        · rename_i request member hfound
          have hmember := requestMember_eq_some_iff.mp hfound
          split at h
          · rename_i hbody
            obtain rfl := Option.some.inj h
            rw [inputCollection_of_namesMember hmember] at hinput
            refine .bodyMember hpath hmember ?_ (List.contains_iff_mem.mp hbody)
            simpa using hinput
          · cases h
        · cases h
  · intro h
    cases h with
    | collection hpath hmember hsurface =>
      rw [hpath]
      simp [inputCollection_of_namesMember hmember, hsurface]
    | bodyMember hpath hmember hsurface hbody =>
      rw [hpath]
      simp [inputCollection_of_namesMember hmember, hsurface, requestMember_eq_some_iff.mpr hmember,
        hbody]

theorem sourceOf_subscript_eq_some_iff {value index : Expr} {o : Origin} :
    sourceOf symbols reg (.subscript value index o) = some kind ↔
      ReadsRequest symbols reg (.subscript value index o) kind := by
  rw [sourceOf, Option.bind_eq_some_iff]
  constructor
  · rintro ⟨path, hpath, hinput⟩
    obtain ⟨request, surface, hmember, hsurface, rfl⟩ := inputCollection_eq_some_iff.mp hinput
    exact .item hpath hmember hsurface
  · intro h
    cases h with
    | item hpath hmember hsurface =>
      exact ⟨_, hpath, inputCollection_eq_some_iff.mpr ⟨_, _, hmember, hsurface, rfl⟩⟩

/-- The body that a call of a function with a path reads. -/
def bodyRead (reg : Registry) (path : String) : Option SourceKind :=
  match requestMember reg path with
  | some (request, method) =>
    if Registry.bodyMethods.contains method then some (.requestBody request (method ++ "()"))
    else none
  | none => none

theorem bodyRead_eq_some_iff {path : String} : bodyRead reg path = some kind ↔
    ∃ request method, NamesMember reg path request method ∧ method ∈ Registry.bodyMethods ∧
      kind = .requestBody request (method ++ "()") := by
  unfold bodyRead
  constructor
  · intro h
    split at h
    · rename_i request method hfound
      split at h
      · rename_i hbody
        exact ⟨request, method, requestMember_eq_some_iff.mp hfound, List.contains_iff_mem.mp hbody,
          (Option.some.inj h).symm⟩
      · cases h
    · cases h
  · rintro ⟨request, method, hmember, hbody, rfl⟩
    rw [requestMember_eq_some_iff.mpr hmember]
    exact if_pos (List.contains_iff_mem.mpr hbody)

theorem bodyRead_eq_none_iff {path : String} : bodyRead reg path = none ↔
    ∀ request method, NamesMember reg path request method → method ∉ Registry.bodyMethods := by
  rw [Option.eq_none_iff_forall_ne_some]
  constructor
  · exact fun h request method hmember hbody =>
      h _ (bodyRead_eq_some_iff.mpr ⟨request, method, hmember, hbody, rfl⟩)
  · intro h kind hkind
    obtain ⟨request, method, hmember, hbody, _⟩ := bodyRead_eq_some_iff.mp hkind
    exact h request method hmember hbody

theorem sourceOf_call {func : Expr} {path : String} {args : List Argument} {o : Origin} :
    sourceOf symbols reg (.call func (some path) args o) = (bodyRead reg path).or
      (func.receiver?.bind fun object =>
        (canonicalOf symbols object).bind (inputCollection reg)) := by
  unfold sourceOf bodyRead
  dsimp only
  rcases requestMember reg path with _ | ⟨request, method⟩
  · cases func <;> rfl
  · dsimp only
    by_cases hbody : Registry.bodyMethods.contains method = true
    · rw [if_pos hbody]
      rfl
    · rw [if_neg hbody]
      cases func <;> rfl

/-- A call is a source by the path that its callee holds, or by that of its receiver. -/
theorem sourceOf_call_eq_some_iff {func : Expr} {args : List Argument} {o : Origin} :
    sourceOf symbols reg (.call func (canonicalOf symbols func) args o) = some kind ↔
      ReadsRequest symbols reg (.call func (canonicalOf symbols func) args o) kind := by
  cases hfunc : canonicalOf symbols func with
  | none =>
    constructor
    · exact fun h => nomatch h
    · intro h
      cases h with
      | method hpath hmember hsurface hbody =>
        cases hfunc.symm.trans (canonicalOf_member symbols _ _ hpath)
      | bodyMethod hpath hmember hbody => cases hfunc.symm.trans hpath
  | some path =>
    rw [sourceOf_call, Option.or_eq_some_iff, bodyRead_eq_some_iff]
    constructor
    · rintro (⟨request, method, hmember, hbody, rfl⟩ | ⟨hnone, hinput⟩)
      · exact .bodyMethod hfunc hmember hbody
      · obtain ⟨object, hobject, hinput⟩ := Option.bind_eq_some_iff.mp hinput
        obtain ⟨inner, hinner, hinput⟩ := Option.bind_eq_some_iff.mp hinput
        obtain ⟨request, surface, hmember, hsurface, rfl⟩ := inputCollection_eq_some_iff.mp hinput
        cases func with
        | member object' attr o' =>
          obtain rfl : object' = object := Option.some.inj hobject
          refine .method hinner hmember hsurface ?_
          rw [← bodyRead_eq_none_iff]
          rwa [← Option.some.inj (hfunc.symm.trans (canonicalOf_member symbols attr o' hinner))]
        | _ => cases hobject
    · intro h
      cases h with
      | method hpath hmember hsurface hbody =>
        right
        have hwhole := Option.some.inj (hfunc.symm.trans (canonicalOf_member symbols _ _ hpath))
        rw [hwhole, bodyRead_eq_none_iff]
        refine ⟨hbody, ?_⟩
        rw [Expr.receiver?, Option.bind_some, hpath, Option.bind_some]
        exact inputCollection_eq_some_iff.mpr ⟨_, _, hmember, hsurface, rfl⟩
      | bodyMethod hpath hmember hbody =>
        left
        obtain rfl := Option.some.inj (hfunc.symm.trans hpath)
        exact ⟨_, _, hmember, hbody, rfl⟩

/-- In an expression with its callees resolved, the canonical paths decide what is read. -/
theorem sourceOf_eq_some_iff {e : Expr} (h : e.IsResolved symbols) :
    sourceOf symbols reg e = some kind ↔ ReadsRequest symbols reg e kind := by
  cases e with
  | member object attr o => exact sourceOf_member_eq_some_iff
  | subscript value index o => exact sourceOf_subscript_eq_some_iff
  | call func callee args o =>
    obtain rfl := h func callee args o .self
    exact sourceOf_call_eq_some_iff
  | name id o => exact ⟨nofun, nofun⟩
  | literal value o => exact ⟨nofun, nofun⟩
  | compound operands o => exact ⟨nofun, nofun⟩
  | unknown o => exact ⟨nofun, nofun⟩

/-! ## Written accesses -/

theorem isSegment_of_mem_bodyMembers {member : String} (h : member ∈ Registry.bodyMembers) :
    IsSegment member := by
  have hall : ∀ m ∈ Registry.bodyMembers, IsSegment m := by decide
  exact hall member h

theorem isSegment_of_mem_bodyMethods {method : String} (h : method ∈ Registry.bodyMethods) :
    IsSegment method := by
  have hall : ∀ m ∈ Registry.bodyMethods, IsSegment m := by decide
  exact hall method h

/-- However the request object is called, what is written as an access to it is one. -/
theorem AccessOf.readsRequest {object e : Expr} {request : String}
    (hobject : canonicalOf symbols object = some request)
    (hrequest : reg.isRequestObject request = true) (h : AccessOf reg request object e kind) :
    ReadsRequest symbols reg e kind := by
  have hpath (attr : String) (o : Origin) := canonicalOf_member symbols attr o hobject
  cases h with
  | collection surface o hsurface hsegment =>
    exact .collection (hpath surface o) ⟨rfl, hsegment, hrequest⟩ hsurface
  | item surface index o o' hsurface hsegment =>
    exact .item (hpath surface o) ⟨rfl, hsegment, hrequest⟩ hsurface
  | method surface method callee args o o' o'' hsurface hsegment hmethod hbody =>
    refine .method (hpath surface o) ⟨rfl, hsegment, hrequest⟩ hsurface ?_
    intro other last hother hlast
    have hself : splitLast (request ++ "." ++ surface ++ "." ++ method) = some (other, last) :=
      splitLast_eq_some_iff.mpr ⟨hother.1, hother.2.1⟩
    obtain ⟨rfl, rfl⟩ : request ++ "." ++ surface = other ∧ method = last := by
      simpa using (splitLast_append hmethod).symm.trans hself
    exact hbody hother.2.2 hlast
  | bodyMember member o hbody hsurface =>
    exact .bodyMember (hpath member o) ⟨rfl, isSegment_of_mem_bodyMembers hbody, hrequest⟩ hsurface
      hbody
  | bodyMethod method callee args o o' hbody =>
    exact .bodyMethod (hpath method o) ⟨rfl, isSegment_of_mem_bodyMethods hbody, hrequest⟩ hbody

end

/-! ## Programs -/

/-- In a program lowered with any symbols, an expression is a source exactly if its canonical paths
read from a request; so whatever chain of aliases leads to a request object, all that is written as
an access to it is known. Paths of members agree because the canonical path of a longer path is that
of its front with the rest behind it. -/
theorem requests_are_seen_through_every_alias (reg : Registry) (symbols : Symbols) :
    (∀ path segment, symbols.canonical (path ++ "." ++ segment) =
      symbols.canonical path ++ "." ++ segment) ∧
    ∀ (path : String) (p : Python.Program) (e : Expr),
      (Python.lowerProgram path symbols p).Mentions e →
        (∀ kind, sourceOf symbols reg e = some kind ↔ ReadsRequest symbols reg e kind) ∧
        ∀ object request kind, canonicalOf symbols object = some request →
          reg.isRequestObject request = true → AccessOf reg request object e kind →
            sourceOf symbols reg e = some kind := by
  refine ⟨symbols.canonical_append, fun path p e hmentions => ?_⟩
  have hresolved := Python.isResolved_of_mentions hmentions
  refine ⟨fun kind => sourceOf_eq_some_iff hresolved, ?_⟩
  intro object request kind hobject hrequest haccess
  exact (sourceOf_eq_some_iff hresolved).mpr (haccess.readsRequest hobject hrequest)

/-! ## A request with two names -/

/-- `from flask import request as r` and `rq = r`, as far as symbols go. -/
def twoNames : Symbols := [("rq", ⟨"rq", some "r"⟩), ("r", ⟨"r", some "flask.request"⟩)]

/-- `rq.args` -/
def aliasedArgs : Python.Node :=
  .member ⟨4, 11, 1, 5, "rq.args"⟩ (.name ⟨4, 6, 1, 5, "rq"⟩) "args"

/-- `x = rq.args.get('q')` -/
def readThroughAlias : Python.Program :=
  { start := ⟨0, 0, 1, 1, ""⟩, isPartial := false
    body := [.assign 20 [.name ⟨0, 1, 1, 1, "x"⟩] (some
      (.call ⟨4, 20, 1, 5, "rq.args.get('q')"⟩
        (.member ⟨4, 15, 1, 5, "rq.args.get"⟩ aliasedArgs "get")
        [⟨none, .none, .string ⟨16, 19, 1, 17, "'q'"⟩ [] []⟩]))] }

theorem requests_are_seen_through_every_alias_of_two_names :
    ∃ object func args o,
      canonicalOf twoNames object = some "flask.request" ∧
        Registry.builtin.isRequestObject "flask.request" = true ∧
        (Python.lowerProgram "a.py" twoNames readThroughAlias).Mentions
          (.call func (some "flask.request.args.get") args o) ∧
        AccessOf .builtin "flask.request" object
          (.call func (some "flask.request.args.get") args o)
          (.requestInput "flask.request" "args") ∧
        sourceOf twoNames .builtin (.call func (some "flask.request.args.get") args o) =
          some (.requestInput "flask.request" "args") := by
  let span (start stop : Nat) (text : String) : Origin :=
    Python.originIn "a.py" ⟨start, stop, 1, start + 1, text⟩
  let object : Expr := .name "rq" (span 4 6 "rq")
  let func : Expr :=
    .member (.member object "args" (span 4 11 "rq.args")) "get" (span 4 15 "rq.args.get")
  let args : List Argument := [⟨none, .none, .literal "q" (span 16 19 "'q'")⟩]
  let e : Expr := .call func (some "flask.request.args.get") args (span 4 20 "rq.args.get('q')")
  have hobject : canonicalOf twoNames object = some "flask.request" := by rfl
  have hrequest : Registry.builtin.isRequestObject "flask.request" = true := by decide
  have hmentions : (Python.lowerProgram "a.py" twoNames readThroughAlias).Mentions e := by
    have hvalues : (Python.lowerProgram "a.py" twoNames readThroughAlias).bindings.map (·.value) =
        [e] := by rfl
    obtain ⟨b, hb, hvalue⟩ := List.mem_map.mp (hvalues ▸ List.mem_singleton_self e)
    exact Or.inr ⟨b, hb, hvalue ▸ .self⟩
  have haccess :
      AccessOf .builtin "flask.request" object e (.requestInput "flask.request" "args") :=
    .method "args" "get" _ _ _ _ _ (by decide) (by decide) (by decide) (by decide)
  exact ⟨object, func, args, _, hobject, hrequest, hmentions, haccess,
    ((requests_are_seen_through_every_alias .builtin twoNames).2 "a.py" readThroughAlias e
      hmentions).2 object "flask.request" _ hobject hrequest haccess⟩

end XPathTaint
