import XPathTaint.Proofs.CourseOrder

-- Which bindings have been made when a use is evaluated: one that stands before the use and whose
-- block path leads to it, unless it is in a part of an expression that may be passed over, or in
-- one of two parts that are not evaluated in the order of the text. Block paths know of neither.

namespace XPathTaint.Python

namespace Course

/-! ## Bodies of scopes -/

variable {c body : Course Item} {here : Here} {n k : Nat} {x u : Mark} {located : Course Mark}

/-- The body of a scope is a course with places of its own. -/
theorem exists_locate_of_inner (hordered : c.Ordered)
    (h : located ∈ (c.locate here n k).inner) :
    ∃ (body : Course Item) (inner : Here) (n' k' : Nat), located = body.locate inner n' k' ∧
      body.Ordered ∧ inner.Fresh ∧ inner.scope < k' := by
  induction c generalizing here n k with
  | nothing => simp [locate, inner] at h
  | item i => simp [locate, inner] at h
  | pair order one other ih₁ ih₂ =>
    have hparts : one.Ordered ∧ other.Ordered := by
      cases order with
      | forward => exact ⟨hordered.1, hordered.2.1⟩
      | backward => exact ⟨hordered.1, hordered.2.1⟩
      | either => exact hordered
    rcases List.mem_append.mp h with h | h
    · exact ih₁ hparts.1 h
    · exact ih₂ hparts.2 h
  | again part ih => exact ih hordered h
  | optional isBlock part ih => cases isBlock <;> exact ih hordered h
  | scope body ih =>
    rcases List.mem_cons.mp h with h | h
    · exact ⟨body, here.within k, n, k + 1, h, hordered, here.fresh_within k, Nat.lt_succ_self k⟩
    · exact ih hordered h

theorem scope_of_inner (h : located ∈ (c.locate here n k).inner) (hu : u ∈ located.own) :
    k ≤ u.scope ∧ u.scope < k + c.scopes := by
  induction c generalizing here n k with
  | nothing => simp [locate, inner] at h
  | item i => simp [locate, inner] at h
  | pair order one other ih₁ ih₂ =>
    simp only [scopes]
    rcases List.mem_append.mp h with h | h
    · have hscope := ih₁ h
      omega
    · have hscope := ih₂ h
      omega
  | again part ih => exact ih h
  | optional isBlock part ih => cases isBlock <;> exact ih h
  | scope body ih =>
    simp only [scopes]
    rcases List.mem_cons.mp h with h | h
    · rw [h] at hu
      have hscope : u.scope = k := scope_of_own hu
      omega
    · have hscope := ih h
      omega

/-- A scope has one body only. -/
theorem own_of_inner (hknown : here.scope < k) (h : located ∈ (c.locate here n k).inner)
    (hu : u ∈ located.own) (hx : x ∈ (c.locate here n k).leaves) (hscope : x.scope = u.scope) :
    x ∈ located.own := by
  induction c generalizing here n k with
  | nothing => simp [locate, inner] at h
  | item i => simp [locate, inner] at h
  | pair order one other ih₁ ih₂ =>
    have hknown' (side : Bool) : (here.side order side).scope < k := by simpa using hknown
    rcases List.mem_append.mp h with h | h <;> rcases List.mem_append.mp hx with hx | hx
    · exact ih₁ (hknown' false) h hx
    · have hin := scope_of_inner h hu
      rcases own_or_scope hx with hx | hx
      · have hout := scope_of_own hx
        have hlt := hknown' true
        omega
      · omega
    · have hin := scope_of_inner h hu
      rcases own_or_scope hx with hx | hx
      · have hout := scope_of_own hx
        have hlt := hknown' false
        omega
      · omega
    · have hlt := hknown' true
      exact ih₂ (by omega) h hx
  | again part ih => exact @ih (here.part false) n k hknown h hx
  | optional isBlock part ih =>
    cases isBlock with
    | false => exact @ih here.inSkip n k hknown h hx
    | true => exact @ih (here.inBlock (n + 1)) (n + 1) k hknown h hx
  | scope body ih =>
    have hx : x ∈ (body.locate (here.within k) n (k + 1)).leaves := hx
    rcases List.mem_cons.mp h with h | h
    · rw [h] at hu ⊢
      rcases own_or_scope hx with hx | hx
      · exact hx
      · have hin : u.scope = k := scope_of_own hu
        omega
    · exact ih (Nat.lt_succ_self k) h hx

theorem own_of_bodies (hknown : here.scope < k) (h : located ∈ (c.locate here n k).bodies)
    (hu : u ∈ located.own) (hx : x ∈ (c.locate here n k).leaves) (hscope : x.scope = u.scope) :
    x ∈ located.own := by
  rcases List.mem_cons.mp h with rfl | h
  · rcases own_or_scope hx with hx | hx
    · exact hx
    · have hin := scope_of_own hu
      omega
  · exact own_of_inner hknown h hu hx hscope

end Course

/-! ## Programs -/

/-- A binding has been made when a run comes to a use, if both are in one scope, the block path of
the binding leads to the use and the binding does not stand behind it; provided that every part of
an expression around the binding that may be passed over is around the use, and that no two parts
around them are evaluated out of the order of the text. -/
theorem a_binding_that_dominates_has_been_made (path : String) (symbols : Symbols) (p : Program)
    (hp : p.IsLaidOut) :
    (lowerProgram path symbols p).calls =
        (p.located path symbols).leaves.filterMap (Mark.call? path) ∧
      (lowerProgram path symbols p).bindings =
        (p.located path symbols).leaves.filterMap (Mark.binding? path) ∧
      ∀ b ∈ (p.located path symbols).leaves, b.item.isBinding →
        ∀ u ∈ (p.located path symbols).leaves, u.item.isUse →
          b.scope = u.scope → dominates b.block u.block → b.pos ≤ u.pos →
          (∀ address ∈ b.skips, address ∈ u.skips) → ¬ b.ApartFrom u →
            ∀ body ∈ (p.located path symbols).bodies, ∀ before after,
              body.Runs (before ++ u :: after) → b ∈ before := by
  obtain ⟨hcalls, hbindings⟩ := lowerProgram_facts path symbols p
  obtain ⟨stop, hspans⟩ := spans_program path symbols p hp
  refine ⟨hcalls, hbindings, ?_⟩
  intro b hb hbinding u hu huse hscope hdominates hpos hskips hapart body hbody before after hrun
  have hknown : Here.ofModule.scope < 1 := by decide
  have hown : u ∈ body.own := Course.own_of_runs hrun u (by simp)
  have hbown : b ∈ body.own := Course.own_of_bodies hknown hbody hown hb hscope
  have haround :=
    (Course.dominates_iff_around Here.fresh_ofModule hknown hb hu hscope).mp hdominates
  have hoptional : ∀ a, a ∈ b.around ∨ a ∈ b.skips → a ∈ u.around ∨ a ∈ u.skips :=
    fun a ha => ha.imp (haround a) (hskips a)
  rcases List.mem_cons.mp hbody with rfl | hinner
  · exact Course.mem_before hspans.ordered Here.fresh_ofModule hbinding huse hpos hoptional hapart
      hbown hrun
  · obtain ⟨course, inner, n, k, rfl, hordered, hfresh, _⟩ :=
      Course.exists_locate_of_inner hspans.ordered hinner
    exact Course.mem_before hordered hfresh hbinding huse hpos hoptional hapart hbown hrun

/-- `q = f(x)` and then `sink(q)`. -/
def boundAndUsed : Program :=
  { start := ⟨0, 17, 1, 1, ""⟩, isPartial := false,
    body := [.assign 8 [.name ⟨0, 1, 1, 1, "q"⟩]
        (some (.call ⟨4, 8, 1, 5, "f(x)"⟩ (.name ⟨4, 5, 1, 5, "f"⟩)
          [⟨none, .none, .name ⟨6, 7, 1, 7, "x"⟩⟩])),
      .values [.call ⟨9, 16, 2, 1, "sink(q)"⟩ (.name ⟨9, 13, 2, 1, "sink"⟩)
        [⟨none, .none, .name ⟨14, 15, 2, 6, "q"⟩⟩]]] }

theorem isLaidOut_boundAndUsed : boundAndUsed.IsLaidOut := by
  refine ⟨16, 8, ?_, 16, ?_, ?_⟩
  · exact ⟨1, ⟨1, by decide, Nat.le_refl 1⟩, by decide, Nat.le_refl 8⟩
  · exact ⟨16, by decide, Nat.le_refl 16⟩
  · exact Nat.le_refl 16

theorem a_binding_that_dominates_has_been_made_of_an_assignment :
    boundAndUsed.IsLaidOut ∧
      ∃ b ∈ (boundAndUsed.located "a.py" []).leaves, ∃ u ∈ (boundAndUsed.located "a.py" []).leaves,
        b.item.isBinding ∧ u.item.isUse ∧ (b.item.pos, u.item.pos) = (8, 14) ∧
          ∀ before after, (boundAndUsed.located "a.py" []).Runs (before ++ u :: after) →
            b ∈ before := by
  let leaf : Fin 7 → Mark := (boundAndUsed.located "a.py" []).leaves.get
  have hleaf (i : Fin 7) : leaf i ∈ (boundAndUsed.located "a.py" []).leaves :=
    List.get_mem (boundAndUsed.located "a.py" []).leaves i
  refine ⟨isLaidOut_boundAndUsed, leaf 3, hleaf 3, leaf 5, hleaf 5, rfl, rfl, rfl, ?_⟩
  have hmade := (a_binding_that_dominates_has_been_made "a.py" [] boundAndUsed
    isLaidOut_boundAndUsed).2.2 (leaf 3) (hleaf 3) rfl (leaf 5) (hleaf 5) rfl rfl (by decide)
    (by decide) (by decide)
  apply hmade ?_ _ List.mem_cons_self
  -- the use stands in no pair without an order
  rintro ⟨address, side, _, hside⟩
  exact List.not_mem_nil hside

/-! ## A binding behind `and` -/

/-- `c and (q := 'x')` and then `sink(q)`. -/
def boundBehindAnd : Program :=
  { start := ⟨0, 25, 1, 1, ""⟩, isPartial := false,
    body := [.values [.group ⟨0, 16, 1, 1, "c and (q := 'x')"⟩ .shortCircuit
        [.name ⟨0, 1, 1, 1, "c"⟩, .paren ⟨6, 16, 1, 7, "(q := 'x')"⟩ none
          (.walrus ⟨7, 15, 1, 8, "q := 'x'"⟩ ⟨7, 8, 1, 8, "q"⟩
            (.string ⟨12, 15, 1, 13, "'x'"⟩ [] []))]],
      .values [.call ⟨17, 24, 2, 1, "sink(q)"⟩ (.name ⟨17, 21, 2, 1, "sink"⟩)
        [⟨none, .none, .name ⟨22, 23, 2, 6, "q"⟩⟩]]] }

theorem isLaidOut_boundBehindAnd : boundBehindAnd.IsLaidOut := by
  refine ⟨24, 16, ?_, 24, ?_, ?_⟩
  · exact ⟨16, by decide, Nat.le_refl 16⟩
  · exact ⟨24, by decide, Nat.le_refl 24⟩
  · exact Nat.le_refl 24

section

open Course

/-- A run that finds the first operand false comes to the use without the binding, whose block path
leads there all the same. -/
theorem a_binding_behind_and_may_not_have_been_made :
    boundBehindAnd.IsLaidOut ∧
      ∃ b ∈ (boundBehindAnd.located "a.py" []).leaves,
        ∃ u ∈ (boundBehindAnd.located "a.py" []).leaves, b.item.isBinding ∧ u.item.isUse ∧
          b.scope = u.scope ∧ dominates b.block u.block ∧ b.pos ≤ u.pos ∧
            ∃ before after, (boundBehindAnd.located "a.py" []).Runs (before ++ u :: after) ∧
              b ∉ before := by
  -- `c`, the binding, `sink`, `q` and the call
  let leaf : Fin 5 → Mark := (boundBehindAnd.located "a.py" []).leaves.get
  have hleaf (i : Fin 5) : leaf i ∈ (boundBehindAnd.located "a.py" []).leaves :=
    List.get_mem (boundBehindAnd.located "a.py" []).leaves i
  have hrun : (boundBehindAnd.located "a.py" []).Runs [leaf 0, leaf 2, leaf 3, leaf 4] := by
    have hargument := runs_forward (runs_item (leaf 3)) runs_nothing
    have hcall := runs_forward (runs_item (leaf 2)) (runs_forward hargument (runs_item (leaf 4)))
    exact runs_forward
      (runs_forward (runs_forward (runs_item (leaf 0)) runs_passed_over) runs_nothing)
      (runs_forward (runs_forward hcall runs_nothing) runs_nothing)
  refine ⟨isLaidOut_boundBehindAnd, leaf 1, hleaf 1, leaf 3, hleaf 3, rfl, rfl, rfl, by decide,
    by decide, [leaf 0, leaf 2], [leaf 4], hrun, ?_⟩
  intro hmem
  have hbinding : ∀ m ∈ [leaf 0, leaf 2], m.item.isBinding = false := by decide
  exact absurd (hbinding (leaf 1) hmem) (by decide)

end

end XPathTaint.Python
