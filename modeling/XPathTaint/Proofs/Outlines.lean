import Mathlib.Data.List.Basic
import XPathTaint.Proofs.Courses
import XPathTaint.Proofs.StackBalance

-- Outlines: what is recorded in a piece of a program, the calls and bindings one behind the other,
-- with the blocks and definitions that they stand in. An outline says in the bodies of which
-- definitions each of them stands, and with what is around it, what it records.

namespace XPathTaint.Python

/-! ## Outlines -/

/-- What a function, class or `lambda` is recorded with. -/
structure Heading where
  name : String
  params : List String
  route : Option Route
  span : Span
  deriving Repr, DecidableEq

/-- A function, class or `lambda` of a program. -/
structure Definition where
  /-- Which one it is in the order of the text; the module is number 0. -/
  number : Nat
  heading : Heading
  deriving Repr, DecidableEq

inductive Outline where
  | nothing
  | item (x : Item)
  /-- Two parts that are recorded one behind the other. -/
  | both (one other : Outline)
  /-- A part in a block of its own. -/
  | block (body : Outline)
  /-- The body of a definition. -/
  | definition (heading : Heading) (body : Outline)

namespace Outline

/-- Parts that are recorded one behind the other. -/
def all : List Outline → Outline
  | [] => .nothing
  | part :: rest => .both part (all rest)

/-- How many definitions there are. -/
def size : Outline → Nat
  | nothing => 0
  | item _ => 0
  | both one other => one.size + other.size
  | block body => body.size
  | definition _ body => body.size + 1

/-- How many blocks there are. -/
def blocks : Outline → Nat
  | nothing => 0
  | item _ => 0
  | both one other => one.blocks + other.blocks
  | block body => body.blocks + 1
  | definition _ body => body.blocks

/-- The definitions in the order of the text, numbered from `k` on, each with those whose bodies it
stands in, outermost first. -/
def definitions (around : List Definition) (k : Nat) :
    Outline → List (List Definition × Definition)
  | nothing => []
  | item _ => []
  | both one other => one.definitions around k ++ other.definitions around (k + one.size)
  | block body => body.definitions around k
  | definition heading body =>
    (around, ⟨k, heading⟩) :: body.definitions (around ++ [⟨k, heading⟩]) (k + 1)

/-- The items, each with the definitions whose bodies it stands in, outermost first. -/
def places (around : List Definition) (k : Nat) : Outline → List (List Definition × Item)
  | nothing => []
  | item x => [(around, x)]
  | both one other => one.places around k ++ other.places around (k + one.size)
  | block body => body.places around k
  | definition heading body => body.places (around ++ [⟨k, heading⟩]) (k + 1)

end Outline

/-! ## Scopes of definitions -/

/-- The scope of the innermost of the definitions around, which is that of the module if there are
none. -/
def innermost (around : List Definition) : ScopeId :=
  (around.getLast?.map (·.number)).getD moduleScope

/-- The scope of a definition, among others of given names and in a scope. -/
def Heading.scope (h : Heading) (path : String) (names : List String) (id parent : ScopeId) :
    Scope :=
  { id, name := ".".intercalate (names ++ [h.name]), params := h.params, route := h.route,
    parent := some parent, place := ⟨path, h.span.line, h.span.column⟩ }

/-- The scope of a definition in the bodies of others. -/
def Definition.scope (path : String) (around : List Definition) (d : Definition) : Scope :=
  d.heading.scope path (around.map (·.heading.name)) d.number (innermost around)

namespace Around

/-- An item in the scope and the block around. -/
def mark (a : Around) (x : Item) : Mark := ⟨⟨[], a.scope, a.block, [], [], []⟩, x⟩

end Around

namespace Outline

/-- The scopes that are recorded for an outline, where the next one gets the number `k`. -/
def table (a : Around) (k : Nat) : Outline → List Scope
  | nothing => []
  | item _ => []
  | both one other => one.table a k ++ other.table a (k + one.size)
  | block body => body.table a k
  | definition heading body =>
    heading.scope a.path a.qualifiers k a.scope ::
      body.table (a.within k heading.name) (k + 1)

/-- The items with the scope and the block that each stands in, where `n` blocks have their numbers
already. -/
def marks (a : Around) (k n : Nat) : Outline → List Mark
  | nothing => []
  | item x => [a.mark x]
  | both one other => one.marks a k n ++ other.marks a (k + one.size) (n + one.blocks)
  | block body => body.marks (a.inBlock (n + 1)) k (n + 1)
  | definition heading body => body.marks (a.within k heading.name) (k + 1) n

section

variable {a : Around} {around : List Definition}

theorem length_table (c : Outline) (a : Around) (k : Nat) : (c.table a k).length = c.size := by
  induction c generalizing a k with
  | nothing => rfl
  | item x => rfl
  | both one other ih₁ ih₂ => rw [table, List.length_append, ih₁, ih₂, size]
  | block body ih => exact ih a k
  | definition heading body ih => rw [table, List.length_cons, ih, size]

/-- Scopes do not tell the block around them. -/
theorem table_inBlock (c : Outline) (a : Around) (n k : Nat) :
    c.table (a.inBlock n) k = c.table a k := by
  induction c generalizing k with
  | nothing => rfl
  | item x => rfl
  | both one other ih₁ ih₂ => rw [table, table, ih₁, ih₂]
  | block body ih => exact ih k
  | definition heading body ih => rfl

/-- The scopes are numbered one behind the other. -/
theorem map_id_table (c : Outline) (a : Around) (k : Nat) :
    (c.table a k).map (·.id) = List.range' k c.size := by
  induction c generalizing a k with
  | nothing => rfl
  | item x => rfl
  | both one other ih₁ ih₂ => rw [table, List.map_append, ih₁, ih₂, size, List.range'_append_1]
  | block body ih => exact ih a k
  | definition heading body ih =>
    rw [table, List.map_cons, ih, size, List.range'_succ]
    rfl

/-- Each scope has a parent, which was recorded before it. -/
theorem parent_of_mem_table {c : Outline} {k : Nat} {scope : Scope} (ha : a.scope < k)
    (h : scope ∈ c.table a k) : ∃ parent, scope.parent = some parent ∧ parent < scope.id := by
  induction c generalizing a k with
  | nothing => cases h
  | item x => cases h
  | both one other ih₁ ih₂ =>
    rcases List.mem_append.mp h with h | h
    · exact ih₁ ha h
    · exact ih₂ (Nat.lt_of_lt_of_le ha (Nat.le_add_right ..)) h
  | block body ih => exact ih ha h
  | definition heading body ih =>
    rcases List.mem_cons.mp h with rfl | h
    · exact ⟨a.scope, rfl, ha⟩
    · exact ih (Nat.lt_succ_self k) h

/-- Each item carries a scope that is recorded. -/
theorem scope_of_mem_marks {c : Outline} {k n : Nat} {m : Mark} (ha : a.scope < k)
    (h : m ∈ c.marks a k n) : m.scope < k + c.size := by
  induction c generalizing a k n with
  | nothing => cases h
  | item x =>
    obtain rfl := List.mem_singleton.mp h
    exact ha
  | both one other ih₁ ih₂ =>
    rw [size, ← Nat.add_assoc]
    rcases List.mem_append.mp h with h | h
    · exact Nat.lt_of_lt_of_le (ih₁ ha h) (Nat.le_add_right ..)
    · exact ih₂ (Nat.lt_of_lt_of_le ha (Nat.le_add_right ..)) h
  | block body ih => exact ih (a := a.inBlock (n + 1)) ha h
  | definition heading body ih =>
    have hlt := ih (a := a.within k heading.name) (Nat.lt_succ_self k) h
    rw [size]
    omega

/-- The scopes recorded are those of the definitions. -/
theorem table_eq {c : Outline} {k : Nat} (hscope : a.scope = innermost around)
    (hnames : a.qualifiers = around.map (·.heading.name)) :
    c.table a k = (c.definitions around k).map fun d => d.2.scope a.path d.1 := by
  induction c generalizing a k around with
  | nothing => rfl
  | item x => rfl
  | both one other ih₁ ih₂ =>
    rw [table, definitions, List.map_append, ih₁ hscope hnames, ih₂ hscope hnames]
  | block body ih => exact (table_inBlock _ a 0 k).symm.trans (ih (a := a.inBlock 0) hscope hnames)
  | definition heading body ih =>
    rw [table, definitions, List.map_cons, Definition.scope, ← hscope, ← hnames]
    congr 1
    apply ih
    · simp [innermost, Around.within]
    · simp [Around.within, hnames]

/-- Each item carries the scope of the innermost definition that it stands in. -/
theorem map_marks {c : Outline} {k n : Nat} (hscope : a.scope = innermost around) :
    (c.marks a k n).map (fun m => (m.scope, m.item)) =
      (c.places around k).map fun p => (innermost p.1, p.2) := by
  induction c generalizing a k n around with
  | nothing => rfl
  | item x =>
    rw [marks, places, List.map_singleton, List.map_singleton, ← hscope]
    rfl
  | both one other ih₁ ih₂ =>
    rw [marks, places, List.map_append, List.map_append, ih₁ hscope, ih₂ hscope]
  | block body ih => exact ih (a := a.inBlock (n + 1)) hscope
  | definition heading body ih =>
    apply ih
    simp [innermost, Around.within]

end

end Outline

/-! ## Records -/

namespace Mark

variable {path : String} {m : Mark}

theorem scope_of_call? {c : CallSite} (h : m.call? path = some c) :
    c.scope = m.scope := by
  unfold Mark.call? at h
  split at h
  · cases h
    rfl
  · cases h

theorem scope_of_binding? {b : Binding} (h : m.binding? path = some b) :
    b.scope = m.scope := by
  unfold Mark.binding? at h
  split at h
  · cases h
    rfl
  · cases h

end Mark

/-- The facts with those of an outline. -/
def Lowered.record (a : Around) (c : Outline) (s : Lowered) : Lowered :=
  let marks := c.marks a s.scopes.length s.blocks
  { s with
    scopes := s.scopes ++ c.table a s.scopes.length
    calls := s.calls ++ marks.filterMap (Mark.call? a.path)
    bindings := s.bindings ++ marks.filterMap (Mark.binding? a.path)
    blocks := s.blocks + c.blocks }

namespace Lowered

variable {a : Around} {one other body : Outline}

theorem record_nothing (s : Lowered) : s.record a .nothing = s := by
  simp [record, Outline.table, Outline.marks, Outline.blocks]

theorem record_item (s : Lowered) (x : Item) :
    s.record a (.item x) =
      { s with
        calls := s.calls ++ ((a.mark x).call? a.path).toList
        bindings := s.bindings ++ ((a.mark x).binding? a.path).toList } := by
  simp only [record, Outline.table, Outline.marks, Outline.blocks, List.append_nil, Nat.add_zero]
  congr 1

theorem record_both (s : Lowered) :
    s.record a (.both one other) = (s.record a one).record a other := by
  simp only [record, Outline.table, Outline.marks, Outline.blocks, List.filterMap_append,
    List.append_assoc, List.length_append, Outline.length_table, Nat.add_assoc]

theorem record_block (s : Lowered) :
    s.record a (.block body) =
      { s with blocks := s.blocks + 1 }.record (a.inBlock (s.blocks + 1)) body := by
  simp only [record, Outline.table, Outline.marks, Outline.blocks, Outline.table_inBlock,
    Nat.add_assoc, Nat.add_comm 1]
  rfl

theorem record_definition (s : Lowered) (heading : Heading) :
    s.record a (.definition heading body) =
      { s with
        scopes := s.scopes ++ [heading.scope a.path a.qualifiers s.scopes.length a.scope] }.record
          (a.within s.scopes.length heading.name) body := by
  simp only [record, Outline.table, Outline.marks, Outline.blocks, List.append_assoc,
    List.singleton_append, List.length_append, List.length_singleton]
  rfl

end Lowered

end XPathTaint.Python
