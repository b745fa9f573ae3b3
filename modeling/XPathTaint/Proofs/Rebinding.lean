import XPathTaint.Proofs.HopBudgets

-- What it does to a name or path that it is bound again. Once a binding is sure to be made before
-- the read, only the values of the bindings since then count: earlier bindings and parameters of
-- routes are forgotten. A path of members keeps the taint of the object that it is read from, which
-- may hold more than what was stored in the member.

namespace XPathTaint

/-- A binding of a name is sure to be made before a place. -/
def IsRebound (facts : FileFacts) (name : String) (scope : ScopeId) (block : BlockPath)
    (pos : Nat) : Prop :=
  ∃ d ∈ facts.bindings, d.scope = scope ∧ d.name = name ∧ d.pos ≤ pos ∧
    dominates d.block block = true

section

variable {facts : FileFacts} {reg : Registry} {scope : ScopeId} {block : BlockPath} {e : Expr}
  {name : String} {budget pos : Nat}

theorem isRebound_iff :
    IsRebound facts name scope block pos ↔
      (reachingWithCover facts name scope block pos).2 = true := by
  rw [← Bool.not_eq_false, uncovered_iff]
  simp [IsRebound]

/-- A read behind a binding that is sure to be made is tainted by a binding alone, and so is the
value of that one. -/
theorem IsRebound.carries (h : IsRebound facts name scope block pos)
    (hread : TaintsRead facts reg scope budget block name pos) :
    ∃ b ∈ reachingBindings facts name scope block pos,
      Carries facts.symbols reg (TaintsRead facts reg scope budget b.block) b.value := by
  have hcover := isRebound_iff.mp h
  cases budget with
  | zero => exact absurd (uncovered_of_nil hread.1) (by simp [hcover])
  | succ budget =>
    rcases hread with ⟨b, hb, hvalue⟩ | ⟨huncovered, _⟩
    · exact ⟨b, hb, hvalue.more_hops (Nat.le_succ budget)⟩
    · exact absurd huncovered (by simp [hcover])

/-- Taint comes to a rebound path that is no source through its bindings, or from the object of a
member. -/
theorem IsRebound.carries_path (hpath : e.dotted = some name)
    (hsource : sourceOf facts.symbols reg e = none)
    (h : IsRebound facts name scope block e.pos)
    (hcarries : Carries facts.symbols reg (TaintsRead facts reg scope budget block) e) :
    (∃ b ∈ reachingBindings facts name scope block e.pos,
        Carries facts.symbols reg (TaintsRead facts reg scope budget b.block) b.value) ∨
      ∃ object attr o, e = .member object attr o ∧
        Carries facts.symbols reg (TaintsRead facts reg scope budget block) object := by
  cases e with
  | name id o =>
    obtain rfl : id = name := Option.some.inj hpath
    exact Or.inl (h.carries ((carries_name id o).mp hcarries))
  | member object attr o =>
    rw [carries_member, hsource] at hcarries
    rcases hcarries with hsome | ⟨path, hpath', hread⟩ | hobject
    · cases hsome
    · obtain rfl := Option.some.inj (hpath.symm.trans hpath')
      exact Or.inl (h.carries hread)
    · exact Or.inr ⟨object, attr, o, rfl, hobject⟩
  | literal value o => cases hpath
  | subscript value index o => cases hpath
  | call func callee args o => cases hpath
  | compound operands o => cases hpath
  | unknown o => cases hpath

end

/-- A name or path that is no source and that some binding is sure to have replaced: if none of the
bindings that reach the read has a tainted value, then it is not tainted, except that a member is so
if its object is. Earlier bindings and parameters of routes do not matter. Bindings have to differ in
their ids, by which a search remembers them, unless each value is searched without a memory. -/
theorem a_rebound_path_is_tainted_only_as_a_member (facts : FileFacts) (reg : Registry)
    (maxHops : Nat) (e : Expr) (name : String) (scope : ScopeId) (block : BlockPath)
    (hpath : e.dotted = some name) (hsource : sourceOf facts.symbols reg e = none)
    (hrebound : IsRebound facts name scope block e.pos) :
    (DistinctIds facts →
        (∀ b ∈ reachingBindings facts name scope block e.pos,
          (taintOf facts reg maxHops b.value scope b.block).1 = none) →
        ((taintOf facts reg maxHops e scope block).1.isSome ↔
          ∃ object attr o, e = .member object attr o ∧
            (taintOf facts reg maxHops object scope block).1.isSome)) ∧
      ((∀ b ∈ reachingBindings facts name scope block e.pos,
          taintAnew facts reg maxHops b.value scope b.block = none) →
        (∀ object attr o, e = .member object attr o →
          taintAnew facts reg maxHops object scope block = none) →
        (taintOf facts reg maxHops e scope block).1 = none) := by
  constructor
  · intro hids hvalues
    constructor
    · intro htainted
      rw [taintOf_isSome_iff hids] at htainted
      rcases hrebound.carries_path hpath hsource htainted with
        ⟨b, hb, hcarries⟩ | ⟨object, attr, o, he, hcarries⟩
      · have hsome := (taintOf_isSome_iff hids b.value).mpr hcarries
        rw [hvalues b hb] at hsome
        cases hsome
      · exact ⟨object, attr, o, he, (taintOf_isSome_iff hids object).mpr hcarries⟩
    · rintro ⟨object, attr, o, rfl, htainted⟩
      rw [taintOf_isSome_iff hids] at htainted ⊢
      exact (carries_member object attr o).mpr (Or.inr (Or.inr htainted))
  · intro hvalues hobject
    rw [← Option.not_isSome_iff_eq_none]
    intro htainted
    rcases hrebound.carries_path hpath hsource (carries_of_taintWithin htainted) with
      ⟨b, hb, hcarries⟩ | ⟨object, attr, o, he, hcarries⟩
    · have hsome := (taintAnew_isSome_iff b.value).mpr hcarries
      rw [hvalues b hb] at hsome
      cases hsome
    · have hsome := (taintAnew_isSome_iff object).mpr hcarries
      rw [hobject object attr o he] at hsome
      cases hsome

/-! ## A member that is stored anew -/

/-- `request.args` -/
def argsRead : Expr :=
  .member (.name "request" ⟨"request", 4, default⟩) "args" ⟨"request.args", 4, default⟩

/-- Stores `request.args` in `q.x`, where `q` is some object, and then `'a'`. -/
def storedAnew (object : Expr) : FileFacts :=
  { FileFacts.empty "app.py" "python" with
    bindings :=
      [{ id := 1, name := "q", value := object, scope := moduleScope, block := [], pos := 16,
         place := default },
       { id := 2, name := "q.x", value := argsRead, scope := moduleScope, block := [], pos := 35,
         place := default },
       { id := 3, name := "q.x", value := .literal "a" ⟨"'a'", 42, default⟩, scope := moduleScope,
         block := [], pos := 45, place := default }] }

/-- `q.x` behind that. -/
def memberRead : Expr := .member (.name "q" ⟨"q", 51, default⟩) "x" ⟨"q.x", 51, default⟩

theorem isRebound_memberRead (object : Expr) :
    IsRebound (storedAnew object) "q.x" moduleScope [] memberRead.pos :=
  ⟨_, List.mem_cons_of_mem _ (List.mem_cons_of_mem _ List.mem_cons_self), rfl, rfl, by decide, rfl⟩

/-- Only the literal reaches the read, and no literal is tainted. -/
theorem taintOf_reaching_memberRead (object : Expr) :
    ∀ b ∈ reachingBindings (storedAnew object) "q.x" moduleScope [] memberRead.pos,
      (taintOf (storedAnew object) .builtin 16 b.value moduleScope b.block).1 = none := by
  have hreaches : reachingBindings (storedAnew object) "q.x" moduleScope [] memberRead.pos =
      (storedAnew object).bindings.drop 2 := by cbv
  intro b hb
  rw [hreaches] at hb
  obtain rfl := List.mem_singleton.mp hb
  rfl

theorem a_rebound_path_is_tainted_only_as_a_member_of_a_literal :
    memberRead.dotted = some "q.x" ∧
      sourceOf (storedAnew (.literal "h" default)).symbols .builtin memberRead = none ∧
      IsRebound (storedAnew (.literal "h" default)) "q.x" moduleScope [] memberRead.pos ∧
      DistinctIds (storedAnew (.literal "h" default)) ∧
      (taintOf (storedAnew (.literal "h" default)) .builtin 16 memberRead moduleScope []).1 =
        none := by
  have hpath : memberRead.dotted = some "q.x" := by decide
  have hsource : sourceOf (storedAnew (.literal "h" default)).symbols .builtin memberRead =
      none := by cbv
  have hids : DistinctIds (storedAnew (.literal "h" default)) := by
    unfold DistinctIds
    decide
  have hmember := (a_rebound_path_is_tainted_only_as_a_member _ .builtin 16 memberRead "q.x"
    moduleScope [] hpath hsource (isRebound_memberRead _)).1 hids (taintOf_reaching_memberRead _)
  refine ⟨hpath, hsource, isRebound_memberRead _, hids, ?_⟩
  rw [← Option.not_isSome_iff_eq_none, hmember]
  rintro ⟨object, attr, o, ⟨⟩, htainted⟩
  have hobject : (taintOf (storedAnew (.literal "h" default)) .builtin 16
      (.name "q" ⟨"q", 51, default⟩) moduleScope []).1.isSome = false := by
    decide +kernel
  rw [hobject] at htainted
  cases htainted

/-! ## Ids that repeat -/

/-- Five assignments: `w = request.args`, `z = w`, `y = 'lit'`, `x = y` and `q = [x, z]`. The first
and the third of them have one id, and the last two. -/
def repeatedIds : FileFacts :=
  { FileFacts.empty "app.py" "python" with
    bindings :=
      [{ id := 8, name := "w", value := argsRead, scope := moduleScope, block := [], pos := 16,
         place := default },
       { id := 2, name := "z", value := .name "w" ⟨"w", 21, default⟩, scope := moduleScope,
         block := [], pos := 22, place := default },
       { id := 8, name := "y", value := .literal "lit" ⟨"'lit'", 27, default⟩, scope := moduleScope,
         block := [], pos := 32, place := default },
       { id := 1, name := "x", value := .name "y" ⟨"y", 37, default⟩, scope := moduleScope,
         block := [], pos := 38, place := default },
       { id := 1, name := "q",
         value := .compound [.name "x" ⟨"x", 44, default⟩, .name "z" ⟨"z", 47, default⟩]
           ⟨"[x, z]", 43, default⟩,
         scope := moduleScope, block := [], pos := 49, place := default }] }

/-- `q` behind that. -/
def lastRead : Expr := .name "q" ⟨"q", 55, default⟩

theorem isRebound_lastRead : IsRebound repeatedIds "q" moduleScope [] lastRead.pos :=
  ⟨repeatedIds.bindings[4], List.getElem_mem _, rfl, rfl, by decide, rfl⟩

/-- The search of `[x, z]` comes to the binding of `y` first, and so the one of `w` counts as seen. -/
theorem taintOf_reaching_lastRead :
    ∀ b ∈ reachingBindings repeatedIds "q" moduleScope [] lastRead.pos,
      (taintOf repeatedIds .builtin 16 b.value moduleScope b.block).1 = none := by
  have hreaches : reachingBindings repeatedIds "q" moduleScope [] lastRead.pos =
      repeatedIds.bindings.drop 4 := by cbv
  intro b hb
  rw [hreaches] at hb
  obtain rfl := List.mem_singleton.mp hb
  rw [← Option.not_isSome_iff_eq_none]
  decide +kernel

/-- The member of a tainted object is tainted, though a literal was stored in it last. And where ids
repeat, a name is tainted by a value that is not: on the way from the name the binding of `x` counts
as seen, and so the one of `y` does not hide the one of `w`. -/
theorem a_rebinding_leaves_the_taint_of_objects_and_of_repeated_ids :
    ¬ (memberRead.dotted = some "q.x" →
      sourceOf (storedAnew argsRead).symbols .builtin memberRead = none →
      IsRebound (storedAnew argsRead) "q.x" moduleScope [] memberRead.pos →
      (∀ b ∈ reachingBindings (storedAnew argsRead) "q.x" moduleScope [] memberRead.pos,
        (taintOf (storedAnew argsRead) .builtin 16 b.value moduleScope b.block).1 = none) →
      (taintOf (storedAnew argsRead) .builtin 16 memberRead moduleScope []).1 = none) ∧
    ¬ (lastRead.dotted = some "q" →
      sourceOf repeatedIds.symbols .builtin lastRead = none →
      IsRebound repeatedIds "q" moduleScope [] lastRead.pos →
      (∀ b ∈ reachingBindings repeatedIds "q" moduleScope [] lastRead.pos,
        (taintOf repeatedIds .builtin 16 b.value moduleScope b.block).1 = none) →
      (taintOf repeatedIds .builtin 16 lastRead moduleScope []).1 = none) := by
  constructor
  · intro h
    have hnone := h (by decide) (by cbv) (isRebound_memberRead _) (taintOf_reaching_memberRead _)
    have htainted :
        (taintOf (storedAnew argsRead) .builtin 16 memberRead moduleScope []).1.isSome = true := by
      cbv
    rw [hnone] at htainted
    cases htainted
  · intro h
    have hnone := h (by decide) (by cbv) isRebound_lastRead taintOf_reaching_lastRead
    have htainted : (taintOf repeatedIds .builtin 16 lastRead moduleScope []).1.isSome = true := by
      decide +kernel
    rw [hnone] at htainted
    cases htainted

end XPathTaint
