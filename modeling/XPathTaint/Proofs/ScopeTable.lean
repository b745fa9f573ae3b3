import XPathTaint.Proofs.OutlineLowering

-- The scopes of a program: the module, and then its definitions in the order of the text, each in
-- the scope of the innermost definition whose body it stands in. The lowering leaves every
-- expression and statement with the stacks that it came to it with.

namespace XPathTaint.Python

/-! ## Programs -/

section

variable (path : String) (symbols : Symbols) (p : Program)

/-- The scope of the module itself. -/
def Program.scope (p : Program) : Scope :=
  { id := moduleScope, name := "<module>", params := [], route := none, parent := none,
    place := ⟨path, p.start.line, p.start.column⟩ }

/-- The items of a program with the scope and the block that each stands in. -/
def Program.marks (p : Program) : List Mark :=
  (p.outline path symbols).marks (.ofModule path symbols) 1 0

theorem outlined_program :
    Outlined (.ofModule path symbols) (p.outline path symbols)
      (lowerStmts (.ofModule path symbols) p.body) :=
  outlined_stmts fun t _ => outlined_stmt t

theorem lowerProgram_record :
    ∃ events, lowerProgram path symbols p =
      { (Lowered.ofModule path p).record (.ofModule path symbols) (p.outline path symbols) with
        events } := by
  rw [lowerProgram_eq]
  exact outlined_program path symbols p (.ofModule path p)

theorem scopes_lowerProgram :
    (lowerProgram path symbols p).scopes =
      p.scope path :: (p.outline path symbols).table (.ofModule path symbols) 1 := by
  obtain ⟨events, h⟩ := lowerProgram_record path symbols p
  rw [h]
  rfl

theorem calls_lowerProgram :
    (lowerProgram path symbols p).calls =
      (p.marks path symbols).filterMap (Mark.call? path) := by
  obtain ⟨events, h⟩ := lowerProgram_record path symbols p
  rw [h]
  exact List.nil_append _

theorem bindings_lowerProgram :
    (lowerProgram path symbols p).bindings =
      (p.marks path symbols).filterMap (Mark.binding? path) := by
  obtain ⟨events, h⟩ := lowerProgram_record path symbols p
  rw [h]
  exact List.nil_append _

/-- Scopes are numbered in order, and all but the module have a parent before them. -/
theorem numbered_lowerProgram {i : Nat} {scope : Scope}
    (h : (lowerProgram path symbols p).scopes[i]? = some scope) :
    scope.id = i ∧ (scope.parent = none ↔ i = 0) ∧ ∀ parent ∈ scope.parent, parent < i := by
  rw [scopes_lowerProgram] at h
  cases i with
  | zero =>
    obtain rfl : p.scope path = scope := by simpa using h
    exact ⟨rfl, by simp [Program.scope], by simp [Program.scope]⟩
  | succ j =>
    rw [List.getElem?_cons_succ] at h
    have hid : scope.id = j + 1 := by
      have hj := congrArg (·[j]?)
        (Outline.map_id_table (p.outline path symbols) (.ofModule path symbols) 1)
      simp only [List.getElem?_map, h, Option.map_some] at hj
      obtain ⟨_, hget⟩ := List.getElem?_eq_some_iff.mp hj.symm
      rw [← hget, List.getElem_range', Nat.one_mul, Nat.add_comm]
    obtain ⟨parent, hparent, hlt⟩ :=
      Outline.parent_of_mem_table (Nat.zero_lt_one) (List.mem_of_getElem? h)
    rw [hid] at hlt
    exact ⟨hid, by simp [hparent], by simpa [hparent] using hlt⟩

/-- Items stand in scopes that are recorded. -/
theorem scope_lt_lowerProgram {m : Mark} (h : m ∈ p.marks path symbols) :
    m.scope < (lowerProgram path symbols p).scopes.length := by
  have hlt := Outline.scope_of_mem_marks (Nat.zero_lt_one) h
  rw [scopes_lowerProgram, List.length_cons, Outline.length_table]
  omega

/-- A program has the scope of its module, and one for each definition with the scope of the
innermost definition around as parent, numbered in the order of the text. Calls and bindings are
those of the items, each in the scope of the innermost definition whose body it stands in. The visit
of each expression and statement, wherever the lowering comes to it, leaves the stacks of open
scopes, names and blocks as they were, and so does the visit of the whole program. -/
theorem scopes_are_those_of_the_definitions_around (path : String) (symbols : Symbols)
    (p : Program) :
    let found := lowerProgram path symbols p
    (∀ i scope, found.scopes[i]? = some scope →
        scope.id = i ∧ (scope.parent = none ↔ i = 0) ∧ ∀ parent ∈ scope.parent, parent < i) ∧
      found.scopes = p.scope path ::
        ((p.outline path symbols).definitions [] 1).map (fun d => d.2.scope path d.1) ∧
      found.calls = (p.marks path symbols).filterMap (Mark.call? path) ∧
      found.bindings = (p.marks path symbols).filterMap (Mark.binding? path) ∧
      (p.marks path symbols).map (fun m => (m.scope, m.item)) =
        ((p.outline path symbols).places [] 1).map (fun x => (innermost x.1, x.2)) ∧
      (∀ c ∈ found.calls, c.scope < found.scopes.length) ∧
      (∀ b ∈ found.bindings, b.scope < found.scopes.length) ∧
      (∀ goal n, (visitNode goal n).IsBalanced) ∧ (∀ route t, (visitStmt route t).IsBalanced) ∧
      (visitProgram p).IsBalanced := by
  intro found
  have hcalls : found.calls = _ := calls_lowerProgram path symbols p
  have hbindings : found.bindings = _ := bindings_lowerProgram path symbols p
  refine ⟨?numbered, ?scopes, hcalls, hbindings, ?items, ?calls, ?bindings,
    isBalanced_visitNode, isBalanced_visitStmt, isBalanced_visitProgram p⟩
  case numbered => exact fun i scope => numbered_lowerProgram path symbols p
  case scopes =>
    have htable : (p.outline path symbols).table (.ofModule path symbols) 1 =
        ((p.outline path symbols).definitions [] 1).map (fun d => d.2.scope path d.1) :=
      Outline.table_eq rfl rfl
    rw [← htable]
    exact scopes_lowerProgram path symbols p
  case items => exact Outline.map_marks rfl
  case calls =>
    intro c hc
    rw [hcalls] at hc
    obtain ⟨m, hm, hcall⟩ := List.mem_filterMap.mp hc
    rw [Mark.scope_of_call? hcall]
    exact scope_lt_lowerProgram path symbols p hm
  case bindings =>
    intro b hb
    rw [hbindings] at hb
    obtain ⟨m, hm, hbinding⟩ := List.mem_filterMap.mp hb
    rw [Mark.scope_of_binding? hbinding]
    exact scope_lt_lowerProgram path symbols p hm

end

end XPathTaint.Python
