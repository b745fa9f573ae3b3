import XPathTaint.Proofs.ReachingBindings

-- Chains of bindings: the way back from an expression to a value that it may have come from.
-- Each binding of a chain is read in the value of the next one, and the last in the expression.

namespace XPathTaint

/-! ## Reads -/

/-- A binding is read in an expression when a part of it is the name or path of the binding, at a
place that the binding may reach. `parts` says which parts of an expression count. -/
def Reads (facts : FileFacts) (scope : ScopeId) (parts : Expr → Expr → Prop) (block : BlockPath)
    (e : Expr) (b : Binding) : Prop :=
  ∃ r, parts r e ∧ r.dotted = some b.name ∧ b ∈ reachingBindings facts b.name scope block r.pos

/-! ## Chains -/

/-- The bindings that lead from an expression, evaluated in a block, to a value that was evaluated
in a block of its own. The list starts at that value and ends at the expression: the value is that
of its first binding, or the expression itself where there is none. -/
inductive Chain (facts : FileFacts) (scope : ScopeId) (parts : Expr → Expr → Prop) :
    BlockPath → Expr → List Binding → BlockPath → Expr → Prop
  | nil {block : BlockPath} {e : Expr} : Chain facts scope parts block e [] block e
  | snoc {block last : BlockPath} {e v : Expr} {b : Binding} {bs : List Binding} :
      Reads facts scope parts block e b → Chain facts scope parts b.block b.value bs last v →
      Chain facts scope parts block e (bs ++ [b]) last v

/-- At most `budget` bindings lead to a value that counts as an end with the budget left. -/
def LeadsWithin (facts : FileFacts) (scope : ScopeId) (parts : Expr → Expr → Prop)
    (ends : Nat → BlockPath → Expr → Prop) (budget : Nat) (block : BlockPath) (e : Expr) : Prop :=
  ∃ bs last v, Chain facts scope parts block e bs last v ∧ bs.length ≤ budget ∧
    ends (budget - bs.length) last v

section

variable {facts : FileFacts} {scope : ScopeId} {parts : Expr → Expr → Prop}
  {ends : Nat → BlockPath → Expr → Prop} {budget : Nat} {block last : BlockPath} {e v : Expr}
  {b : Binding} {bs : List Binding}

theorem Reads.of_dotted {r : Expr} {path : String} (hr : parts r e) (hd : r.dotted = some path)
    (hb : b ∈ reachingBindings facts path scope block r.pos) :
    Reads facts scope parts block e b := by
  obtain rfl : b.name = path := name_of_mem_reachingBindings hb
  exact ⟨r, hr, hd, hb⟩

theorem Reads.mem (h : Reads facts scope parts block e b) :
    b ∈ facts.bindings ∧ b.scope = scope := by
  obtain ⟨r, _, _, hb⟩ := h
  exact ⟨mem_of_mem_reachingBindings hb, scope_of_mem_reachingBindings hb⟩

/-- A chain never leaves its scope. -/
theorem Chain.mem (h : Chain facts scope parts block e bs last v) :
    ∀ b ∈ bs, b ∈ facts.bindings ∧ b.scope = scope := by
  induction h with
  | nil => simp
  | snoc hread _ ih =>
    intro c hc
    rcases List.mem_append.mp hc with hc | hc
    · exact ih c hc
    · obtain rfl := List.mem_singleton.mp hc
      exact hread.mem

/-- What is a chain when fewer parts count is one when more of them do. -/
theorem Chain.mono {more : Expr → Expr → Prop} (hparts : ∀ r e, parts r e → more r e)
    (h : Chain facts scope parts block e bs last v) : Chain facts scope more block e bs last v := by
  induction h with
  | nil => exact .nil
  | snoc hread _ ih =>
    obtain ⟨r, hr, hd, hb⟩ := hread
    exact .snoc ⟨r, hparts r _ hr, hd, hb⟩ ih

theorem leadsWithin_zero :
    LeadsWithin facts scope parts ends 0 block e ↔ ends 0 block e := by
  constructor
  · rintro ⟨bs, last, v, hchain, hlen, hends⟩
    cases hchain with
    | nil => exact hends
    | snoc => simp at hlen
  · intro h
    exact ⟨[], block, e, .nil, Nat.le_refl 0, h⟩

/-- With a hop to spend, a chain ends at once or goes on through a binding that is read. -/
theorem leadsWithin_succ : LeadsWithin facts scope parts ends (budget + 1) block e ↔
    ends (budget + 1) block e ∨ ∃ b, Reads facts scope parts block e b ∧
      LeadsWithin facts scope parts ends budget b.block b.value := by
  constructor
  · rintro ⟨bs, last, v, hchain, hlen, hends⟩
    cases hchain with
    | nil => exact Or.inl hends
    | @snoc _ _ _ _ b bs hread hrest =>
      rw [List.length_append, List.length_singleton] at hlen hends
      rw [Nat.add_sub_add_right] at hends
      exact Or.inr ⟨b, hread, bs, last, v, hrest, by omega, hends⟩
  · rintro (h | ⟨b, hread, bs, last, v, hrest, hlen, hends⟩)
    · exact ⟨[], block, e, .nil, Nat.zero_le _, h⟩
    · refine ⟨bs ++ [b], last, v, .snoc hread hrest, by simpa using hlen, ?_⟩
      rwa [List.length_append, List.length_singleton, Nat.add_sub_add_right]

end

end XPathTaint
