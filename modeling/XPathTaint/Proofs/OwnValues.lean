import XPathTaint.Proofs.CourseOrder
import XPathTaint.Proofs.ReachingBindings
import XPathTaint.Python.Source

-- What the reads in the value of a binding see: bindings that count from before the value on, and
-- so never the binding itself. A clause of a comprehension is different: its target counts from the
-- start of the comprehension on, before the source that it takes its value from.

namespace XPathTaint.Python

/-! ## Reads of a value -/

section

variable {path : String} {m : Mark} {b c : Binding} {facts : FileFacts} {name : String}
  {block : BlockPath} {scope : ScopeId} {r : Expr}

theorem standsBefore_of_binding (h : m.item.ReadsEarlier) (hahead : m.item.isAhead = false)
    (hb : m.binding? path = some b) : b.value.StandsBefore b.pos := by
  unfold Mark.binding? at hb
  split at hb
  · rename_i ahead name value pos place hitem
    rw [hitem] at h hahead
    unfold Item.isAhead at hahead
    subst hahead
    obtain ⟨id, hnumber⟩ := FileFacts.numberBinding_eq path
      { id := 0, name, value, scope := m.scope, block := m.block, pos, place }
    rw [hnumber] at hb
    obtain rfl := Option.some.inj hb
    exact h
  · cases hb

/-- What reaches a read counts from the read or an earlier place on. -/
theorem pos_of_mem_reachingBindings {pos : Nat}
    (h : c ∈ reachingBindings facts name scope block pos) : c.pos ≤ pos :=
  (mem_earlierBindings.mp (mem_of_mem_upToCover h)).2.2.1

end

/-- A binding reaches no read in its own value, unless it is for a clause of a comprehension and the
read is of its own name; and what the reads in the value of any other binding see are earlier
bindings of their name. -/
theorem no_binding_reaches_its_own_value (path text : String) (marker : Option String)
    (p : Program) (facts : FileFacts) (hfacts : (FileFacts.ofProgram path text marker p).1 = facts)
    (hp : p.IsLaidOut) :
    facts.bindings = (p.located path facts.symbols).leaves.filterMap (Mark.binding? path) ∧
      ∀ m ∈ (p.located path facts.symbols).leaves, ∀ b, m.binding? path = some b →
        ∀ r ∈ b.value.nested, ∀ name, r.dotted = some name →
          (b ∈ reachingBindings facts name b.scope b.block r.pos →
            m.item.isAhead = true ∧ b.name = name) ∧
          (m.item.isAhead = false → ∀ c ∈ reachingBindings facts name b.scope b.block r.pos,
            c.name = name ∧ c.scope = b.scope ∧ c.pos < b.pos) := by
  have hbindings : facts.bindings = (lowerProgram path facts.symbols p).bindings := by
    rw [← hfacts]
    rfl
  obtain ⟨_, hlocated⟩ := lowerProgram_facts path facts.symbols p
  obtain ⟨stop, hspans⟩ := spans_program path facts.symbols p hp
  refine ⟨hbindings.trans hlocated, ?_⟩
  intro m hm b hb r hr name _
  have hitem : m.item ∈ (p.course path facts.symbols).leaves := by
    rw [← Course.leaves_locate _ .ofModule 0 1]
    exact List.mem_map_of_mem hm
  have hread (hahead : m.item.isAhead = false) : r.pos < b.pos :=
    standsBefore_of_binding (hspans.values m.item hitem) hahead hb r hr
  constructor
  · intro hown
    refine ⟨?_, name_of_mem_reachingBindings hown⟩
    by_cases hahead : m.item.isAhead
    · exact hahead
    · have hlt := hread (by simpa using hahead)
      have hpos := pos_of_mem_reachingBindings hown
      omega
  · intro hahead c hc
    have hlt := hread hahead
    have hpos := pos_of_mem_reachingBindings hc
    exact ⟨name_of_mem_reachingBindings hc, scope_of_mem_reachingBindings hc, by omega⟩

/-- `q = q[i]`. -/
def boundFromItself : Program :=
  { start := ⟨0, 9, 1, 1, "q = q[i]\n"⟩, isPartial := false,
    body := [.assign 8 [.name ⟨0, 1, 1, 1, "q"⟩] (some (.subscript ⟨4, 8, 1, 5, "q[i]"⟩
      (.name ⟨4, 5, 1, 5, "q"⟩) [.name ⟨6, 7, 1, 7, "i"⟩]))] }

theorem isLaidOut_boundFromItself : boundFromItself.IsLaidOut := by
  refine ⟨8, 8, ?_, Nat.le_refl 8⟩
  exact ⟨1, ⟨1, by decide, Nat.le_refl 1⟩, by decide, Nat.le_refl 8⟩

/-- The facts of the text. -/
def factsFromItself : FileFacts :=
  (FileFacts.ofProgram "a.py" "q = q[i]\n" none boundFromItself).1

theorem no_binding_reaches_its_own_value_of_an_assignment :
    boundFromItself.IsLaidOut ∧ ∃ b ∈ factsFromItself.bindings, ∃ r ∈ b.value.nested,
      r.dotted = some "q" ∧ b.name = "q" ∧ (r.pos, b.pos) = (4, 8) ∧
        b ∉ reachingBindings factsFromItself "q" b.scope b.block r.pos := by
  obtain ⟨hbindings, hown⟩ := no_binding_reaches_its_own_value "a.py" "q = q[i]\n" none
    boundFromItself factsFromItself rfl isLaidOut_boundFromItself
  let leaf : Fin 3 → Mark := (boundFromItself.located "a.py" factsFromItself.symbols).leaves.get
  have hleaf : leaf 2 ∈ (boundFromItself.located "a.py" factsFromItself.symbols).leaves :=
    List.get_mem (boundFromItself.located "a.py" factsFromItself.symbols).leaves (2 : Fin 3)
  let read : Expr := .name "q" ⟨"q", 4, ⟨"a.py", 1, 5⟩⟩
  obtain ⟨b, hb, hname, hpos, hvalue⟩ : ∃ b, (leaf 2).binding? "a.py" = some b ∧ b.name = "q" ∧
      b.pos = 8 ∧ b.value = .subscript read (.name "i" ⟨"i", 6, ⟨"a.py", 1, 7⟩⟩)
        ⟨"q[i]", 4, ⟨"a.py", 1, 5⟩⟩ := ⟨_, rfl, rfl, rfl, rfl⟩
  have hread : read ∈ b.value.nested := by
    rw [hvalue]
    simp [Expr.nested, read]
  refine ⟨isLaidOut_boundFromItself, b, ?_, read, hread, rfl, hname, ?_, ?_⟩
  · rw [hbindings]
    exact List.mem_filterMap.mpr ⟨leaf 2, hleaf, hb⟩
  · rw [hpos]
    rfl
  · intro hreaches
    obtain ⟨hahead, _⟩ := (hown (leaf 2) hleaf b hb read hread "q" rfl).1 hreaches
    cases hahead

/-! ## Clauses of comprehensions -/

/-- `[x for q in q if sink(q)]`. -/
def shadowedSource : Program :=
  { start := ⟨0, 26, 1, 1, "[x for q in q if sink(q)]\n"⟩, isPartial := false,
    body := [.values [.comprehension ⟨0, 25, 1, 1, "[x for q in q if sink(q)]"⟩
      (.name ⟨1, 2, 1, 2, "x"⟩)
      [.loop (.name ⟨7, 8, 1, 8, "q"⟩) [.name ⟨12, 13, 1, 13, "q"⟩],
        .guard (.call ⟨17, 24, 1, 18, "sink(q)"⟩ (.name ⟨17, 21, 1, 18, "sink"⟩)
          [⟨none, .none, .name ⟨22, 23, 1, 23, "q"⟩⟩])]]] }

theorem isLaidOut_shadowedSource : shadowedSource.IsLaidOut :=
  ⟨25, 25, ⟨25, by decide, Nat.le_refl 25⟩, Nat.le_refl 25⟩

/-- The facts of the text. -/
def shadowedFacts : FileFacts :=
  (FileFacts.ofProgram "a.py" "[x for q in q if sink(q)]\n" none shadowedSource).1

/-- The target of the clause is taken for what its own source reads. -/
theorem the_target_of_a_clause_reaches_its_own_source :
    shadowedSource.IsLaidOut ∧ ∃ b ∈ shadowedFacts.bindings, ∃ r ∈ b.value.nested,
      r.dotted = some "q" ∧ b ∈ reachingBindings shadowedFacts "q" b.scope b.block r.pos := by
  obtain ⟨b, hbindings, hname, hpos, hvalue⟩ : ∃ b, shadowedFacts.bindings = [b] ∧ b.name = "q" ∧
      b.pos = 0 ∧ b.value = .name "q" ⟨"q", 12, ⟨"a.py", 1, 13⟩⟩ :=
    ⟨_, bindings_ofProgram "a.py" _ none shadowedSource, rfl, rfl, rfl⟩
  have hearlier : earlierBindings shadowedFacts "q" b.scope 12 = [b] := by
    unfold earlierBindings
    simp [hbindings, hname, hpos]
  refine ⟨isLaidOut_shadowedSource, b, by simp [hbindings], b.value, ?_, ?_, ?_⟩
  · simp [hvalue, Expr.nested]
  · rw [hvalue]
    rfl
  · rw [hvalue]
    unfold reachingBindings reachingWithCover
    simp only [Expr.pos, Expr.origin]
    rw [hearlier]
    simp [upToCover, dominates]

end XPathTaint.Python
