import XPathTaint.Proofs.CourseLowering

-- Block paths mirror the syntax: the numbers in the path of a fact stand for the conditional
-- blocks around it in its scope, no two blocks share a number, and so one path leads to another
-- exactly if all blocks around the one fact are around the other.

namespace XPathTaint.Python

/-! ## Fresh places -/

/-- None of the parts around a place is the place itself or in it. -/
def Here.Fresh (h : Here) : Prop :=
  ∀ address, address ∈ h.around ∨ address ∈ h.skips → ¬ h.address <+: address

namespace Here

variable {h : Here}

theorem fresh_ofModule : ofModule.Fresh := by
  intro address haddress
  simp [ofModule] at haddress

theorem fresh_within (h : Here) (id : Nat) : (h.within id).Fresh := by
  intro address haddress
  simp [within] at haddress

theorem not_prefix_of_concat {address inner : Address} (second : Bool)
    (h : ¬ address <+: inner) : ¬ address ++ [second] <+: inner :=
  fun hprefix => h ((List.prefix_append _ _).trans hprefix)

theorem not_concat_prefix (address : Address) (second : Bool) :
    ¬ address ++ [second] <+: address := by
  intro h
  have hlength := h.length_le
  rw [List.length_append, List.length_singleton] at hlength
  omega

/-- No place is on both sides of another one. -/
theorem not_both_sides {address inner : Address} {side side' : Bool} (hne : side ≠ side')
    (h : address ++ [side] <+: inner) : ¬ address ++ [side'] <+: inner := by
  intro h'
  obtain ⟨rest, hrest⟩ := h
  obtain ⟨rest', hrest'⟩ := h'
  rw [← hrest', List.append_assoc, List.append_assoc] at hrest
  have hsides := List.append_cancel_left hrest
  rw [List.singleton_append, List.singleton_append] at hsides
  exact hne (List.cons.inj hsides).1

theorem Fresh.side (hfresh : h.Fresh) (order : PairOrder) (second : Bool) :
    (h.side order second).Fresh := by
  intro address haddress
  rw [side_around, side_skips] at haddress
  rw [side_address]
  exact not_prefix_of_concat second (hfresh address haddress)

theorem Fresh.part (hfresh : h.Fresh) (second : Bool) : (h.part second).Fresh :=
  fun address haddress => not_prefix_of_concat second (hfresh address haddress)

theorem Fresh.inBlock (hfresh : h.Fresh) (n : Nat) : (h.inBlock n).Fresh := by
  intro address haddress
  simp only [Here.inBlock, Here.part, List.mem_append, List.mem_singleton] at haddress
  by_cases haround : address = h.address
  · rw [haround]
    exact not_concat_prefix _ _
  · apply not_prefix_of_concat false
    apply hfresh
    simpa [haround] using haddress

theorem Fresh.inSkip (hfresh : h.Fresh) : h.inSkip.Fresh := by
  intro address haddress
  simp only [Here.inSkip, Here.part, List.mem_append, List.mem_singleton] at haddress
  by_cases hskip : address = h.address
  · rw [hskip]
    exact not_concat_prefix _ _
  · apply not_prefix_of_concat false
    apply hfresh
    simpa [hskip] using haddress

end Here

/-! ## Marks under a place -/

/-- A mark in the scope of a place, and the blocks between the two: each with a number of its own
and below the place. -/
structure Mark.Under (here : Here) (low high : Nat) (opened : List (Nat × Address)) (x : Mark) :
    Prop where
  scope : x.scope = here.scope
  block : x.block = here.block ++ opened.map (·.1)
  around : x.around = here.around ++ opened.map (·.2)
  number : ∀ o ∈ opened, low < o.1 ∧ o.1 ≤ high
  below : ∀ o ∈ opened, here.address <+: o.2

/-- What stands under a part stands under what the part is in. -/
theorem Mark.Under.widen {here inner : Here} {low high low' high' : Nat}
    {opened : List (Nat × Address)} {x : Mark} (h : x.Under inner low high opened)
    (hscope : inner.scope = here.scope) (hblock : inner.block = here.block)
    (haround : inner.around = here.around) (haddress : here.address <+: inner.address)
    (hlow : low' ≤ low) (hhigh : high ≤ high') : x.Under here low' high' opened := by
  refine ⟨h.scope.trans hscope, hblock ▸ h.block, haround ▸ h.around, ?_, ?_⟩
  · intro o ho
    have hnumber := h.number o ho
    omega
  · exact fun o ho => haddress.trans (h.below o ho)

namespace Course

variable {c : Course Item} {here : Here} {n k : Nat} {x y : Mark}

theorem exists_under_of_own (h : x ∈ (c.locate here n k).own) :
    ∃ opened, x.Under here n (n + c.blocks) opened := by
  induction c generalizing here n k with
  | nothing => simp [locate, own] at h
  | item i =>
    simp only [locate, own, List.mem_singleton] at h
    subst h
    exact ⟨[], rfl, by simp, by simp, by simp, by simp⟩
  | pair order one other ih₁ ih₂ =>
    simp only [blocks]
    rcases List.mem_append.mp h with h | h
    · obtain ⟨opened, hunder⟩ := ih₁ h
      exact ⟨opened, hunder.widen (by simp) (by simp) (by simp) (by simp) (by omega) (by omega)⟩
    · obtain ⟨opened, hunder⟩ := ih₂ h
      exact ⟨opened, hunder.widen (by simp) (by simp) (by simp) (by simp) (by omega) (by omega)⟩
  | again part ih =>
    obtain ⟨opened, hunder⟩ := ih h
    exact ⟨opened,
      hunder.widen rfl rfl rfl (List.prefix_append _ _) (Nat.le_refl _) (Nat.le_refl _)⟩
  | optional isBlock part ih =>
    cases isBlock with
    | false =>
      obtain ⟨opened, hunder⟩ := ih h
      exact ⟨opened,
      hunder.widen rfl rfl rfl (List.prefix_append _ _) (Nat.le_refl _) (Nat.le_refl _)⟩
    | true =>
      obtain ⟨opened, hunder⟩ := ih h
      refine ⟨(n + 1, here.address) :: opened, hunder.scope, ?_, ?_, ?_, ?_⟩
      · simp [hunder.block, Here.inBlock]
      · simp [hunder.around, Here.inBlock]
      · intro o ho
        simp only [blocks]
        rcases List.mem_cons.mp ho with rfl | ho
        · dsimp only
          omega
        · have hnumber := hunder.number o ho
          omega
      · intro o ho
        rcases List.mem_cons.mp ho with rfl | ho
        · exact List.prefix_refl _
        · exact (List.prefix_append _ _).trans (hunder.below o ho)
  | scope body ih => simp [locate, own] at h

theorem scope_of_own (h : x ∈ (c.locate here n k).own) : x.scope = here.scope := by
  obtain ⟨_, hunder⟩ := exists_under_of_own h
  exact hunder.scope

/-- What does not stand in the scope of a place stands in one of the scopes opened there. -/
theorem own_or_scope (h : x ∈ (c.locate here n k).leaves) :
    x ∈ (c.locate here n k).own ∨ k ≤ x.scope ∧ x.scope < k + c.scopes := by
  induction c generalizing here n k with
  | nothing => simp [locate, leaves] at h
  | item i => exact Or.inl h
  | pair order one other ih₁ ih₂ =>
    simp only [scopes, locate, own, List.mem_append]
    rcases List.mem_append.mp h with h | h
    · rcases ih₁ h with h | h
      · exact Or.inl (Or.inl h)
      · exact Or.inr (by omega)
    · rcases ih₂ h with h | h
      · exact Or.inl (Or.inr h)
      · exact Or.inr (by omega)
  | again part ih => exact ih h
  | optional isBlock part ih => cases isBlock <;> exact ih h
  | scope body ih =>
    simp only [scopes]
    rcases ih h with h | h
    · have hscope : x.scope = k := scope_of_own h
      exact Or.inr (by omega)
    · exact Or.inr (by omega)

/-- A path has one number for each block around. -/
theorem length_block {here : Here} (hlength : here.block.length = here.around.length)
    (h : x ∈ (c.locate here n k).leaves) : x.block.length = x.around.length := by
  induction c generalizing here n k with
  | nothing => simp [locate, leaves] at h
  | item i =>
    simp only [locate, leaves, List.mem_singleton] at h
    subst h
    exact hlength
  | pair order one other ih₁ ih₂ =>
    rcases List.mem_append.mp h with h | h
    · exact ih₁ (by simpa using hlength) h
    · exact ih₂ (by simpa using hlength) h
  | again part ih =>
    have hpart : (here.part false).block.length = (here.part false).around.length := hlength
    exact ih hpart h
  | optional isBlock part ih =>
    cases isBlock with
    | false =>
      have hskip : here.inSkip.block.length = here.inSkip.around.length := hlength
      exact ih hskip h
    | true => exact ih (by simpa [Here.inBlock] using hlength) h
  | scope body ih => exact ih rfl h

end Course

/-! ## Domination -/

/-- Behind a common path, one with numbers of its own leads nowhere else. -/
theorem dominates_append_iff {base : BlockPath} {around : List Address}
    {opened opened' : List (Nat × Address)} (hnumber : ∀ o ∈ opened, ∀ o' ∈ opened', o.1 ≠ o'.1)
    (haround : ∀ o ∈ opened, o.2 ∉ around) (hbelow : ∀ o ∈ opened, ∀ o' ∈ opened', o.2 ≠ o'.2) :
    dominates (base ++ opened.map (·.1)) (base ++ opened'.map (·.1)) ↔
      ∀ address ∈ around ++ opened.map (·.2), address ∈ around ++ opened'.map (·.2) := by
  unfold dominates
  rw [List.isPrefixOf_iff_prefix, List.prefix_append_right_inj]
  cases opened with
  | nil => simp +contextual
  | cons o rest =>
    constructor
    · intro hprefix
      have hmem : o.1 ∈ opened'.map (·.1) := hprefix.subset List.mem_cons_self
      obtain ⟨o', ho', heq⟩ := List.mem_map.mp hmem
      exact absurd heq.symm (hnumber o List.mem_cons_self o' ho')
    · intro hall
      have hmem := hall o.2 (List.mem_append_right _ List.mem_cons_self)
      rcases List.mem_append.mp hmem with hmem | hmem
      · exact absurd hmem (haround o List.mem_cons_self)
      · obtain ⟨o', ho', heq⟩ := List.mem_map.mp hmem
        exact absurd heq.symm (hbelow o List.mem_cons_self o' ho')

/-- Marks in the two parts of a pair have no block below the pair in common. -/
theorem Mark.Under.dominates_iff {here : Here} {order : PairOrder} {side side' : Bool}
    {low high low' high' : Nat} {opened opened' : List (Nat × Address)} {x y : Mark}
    (hfresh : here.Fresh) (hne : side ≠ side') (hnumber : high ≤ low' ∨ high' ≤ low)
    (hx : x.Under (here.side order side) low high opened)
    (hy : y.Under (here.side order side') low' high' opened') :
    dominates x.block y.block ↔ ∀ address ∈ x.around, address ∈ y.around := by
  rw [hx.block, hy.block, hx.around, hy.around]
  simp only [Here.side_block, Here.side_around]
  apply dominates_append_iff
  · intro o ho o' ho'
    have hlow := hx.number o ho
    have hlow' := hy.number o' ho'
    omega
  · intro o ho hmem
    have hbelow := hx.below o ho
    rw [Here.side_address] at hbelow
    exact hfresh o.2 (Or.inl hmem) ((List.prefix_append _ _).trans hbelow)
  · intro o ho o' ho' heq
    have hbelow := hx.below o ho
    have hbelow' := hy.below o' ho'
    rw [Here.side_address] at hbelow hbelow'
    rw [← heq] at hbelow'
    exact Here.not_both_sides hne hbelow hbelow'

namespace Course

variable {c : Course Item} {here : Here} {n k : Nat} {x y : Mark}

/-- Marks of one scope in courses whose scopes have their numbers one after the other. -/
theorem own_of_parts {c' : Course Item} {here' : Here} {n' : Nat} (hknown : here.scope < k)
    (hknown' : here'.scope < k) (hx : x ∈ (c.locate here n k).leaves)
    (hy : y ∈ (c'.locate here' n' (k + c.scopes)).leaves) (hscope : x.scope = y.scope) :
    x ∈ (c.locate here n k).own ∧ y ∈ (c'.locate here' n' (k + c.scopes)).own := by
  rcases own_or_scope hx with hx | hx <;> rcases own_or_scope hy with hy | hy
  · exact ⟨hx, hy⟩
  · have hxscope := scope_of_own hx
    omega
  · have hyscope := scope_of_own hy
    omega
  · omega

theorem dominates_iff_around (hfresh : here.Fresh) (hknown : here.scope < k)
    (hx : x ∈ (c.locate here n k).leaves) (hy : y ∈ (c.locate here n k).leaves)
    (hscope : x.scope = y.scope) :
    dominates x.block y.block ↔ ∀ address ∈ x.around, address ∈ y.around := by
  induction c generalizing here n k with
  | nothing => simp [locate, leaves] at hx
  | item i =>
    simp only [locate, leaves, List.mem_singleton] at hx hy
    rw [hx, hy]
    simp [dominates]
  | pair order one other ih₁ ih₂ =>
    have hknown' (side : Bool) : (here.side order side).scope < k := by simpa using hknown
    rcases List.mem_append.mp hx with hx | hx <;> rcases List.mem_append.mp hy with hy | hy
    · exact ih₁ (hfresh.side order false) (hknown' false) hx hy
    · -- different parts have a scope in common only if it is the one around
      obtain ⟨hx, hy⟩ := own_of_parts (hknown' false) (hknown' true) hx hy hscope
      obtain ⟨_, hx⟩ := exists_under_of_own hx
      obtain ⟨_, hy⟩ := exists_under_of_own hy
      exact hx.dominates_iff hfresh (by decide) (Or.inl (Nat.le_refl _)) hy
    · obtain ⟨hy, hx⟩ := own_of_parts (hknown' false) (hknown' true) hy hx hscope.symm
      obtain ⟨_, hx⟩ := exists_under_of_own hx
      obtain ⟨_, hy⟩ := exists_under_of_own hy
      exact hx.dominates_iff hfresh (by decide) (Or.inr (Nat.le_refl _)) hy
    · have hlater := hknown' true
      exact ih₂ (hfresh.side order true) (by omega) hx hy
  | again part ih => exact ih (hfresh.part false) hknown hx hy
  | optional isBlock part ih =>
    cases isBlock with
    | false => exact ih hfresh.inSkip hknown hx hy
    | true => exact ih (hfresh.inBlock _) hknown hx hy
  | scope body ih => exact ih (here.fresh_within k) (Nat.lt_succ_self k) hx hy

end Course

/-! ## Programs -/

/-- Block paths mirror the syntax. The calls and bindings of a program are those of its course, in
order; each has as many numbers in its path as there are conditional blocks around it in its scope;
and of two in one scope the path of the first leads to the second if and only if every conditional
block around the first is around the second. -/
theorem block_paths_mirror_the_nesting (path : String) (symbols : Symbols) (p : Program) :
    (lowerProgram path symbols p).calls =
        (p.located path symbols).leaves.filterMap (Mark.call? path) ∧
      (lowerProgram path symbols p).bindings =
        (p.located path symbols).leaves.filterMap (Mark.binding? path) ∧
      ∀ x ∈ (p.located path symbols).leaves, x.block.length = x.around.length ∧
        ∀ y ∈ (p.located path symbols).leaves, x.scope = y.scope →
          (dominates x.block y.block ↔ ∀ address ∈ x.around, address ∈ y.around) := by
  obtain ⟨hcalls, hbindings⟩ := lowerProgram_facts path symbols p
  refine ⟨hcalls, hbindings, ?_⟩
  intro x hx
  refine ⟨Course.length_block rfl hx, ?_⟩
  intro y hy hscope
  have hknown : Here.ofModule.scope < 1 := by decide
  exact Course.dominates_iff_around Here.fresh_ofModule hknown hx hy hscope

/-- `if c:` with `f()`, `else:` with `g()`. -/
def eitherCall : Program :=
  { start := ⟨0, 28, 1, 1, ""⟩, isPartial := false,
    body := [.choice (.name ⟨3, 4, 1, 4, "c"⟩)
      [.values [.call ⟨10, 13, 2, 5, "f()"⟩ (.name ⟨10, 11, 2, 5, "f"⟩) []]]
      [⟨.plain, [.values [.call ⟨24, 27, 4, 5, "g()"⟩ (.name ⟨24, 25, 4, 5, "g"⟩) []]]⟩]] }

theorem block_paths_mirror_the_nesting_of_branches :
    ∃ x ∈ (eitherCall.located "a.py" []).leaves, ∃ y ∈ (eitherCall.located "a.py" []).leaves,
      x.scope = y.scope ∧ (x.item.pos, y.item.pos) = (10, 24) ∧
        dominates x.block y.block = false ∧ dominates y.block x.block = false := by
  have hx := List.getElem_mem (l := (eitherCall.located "a.py" []).leaves) (n := 2) (by decide)
  have hy := List.getElem_mem (l := (eitherCall.located "a.py" []).leaves) (n := 4) (by decide)
  have hxy := ((block_paths_mirror_the_nesting "a.py" [] eitherCall).2.2 _ hx).2 _ hy rfl
  have hyx := ((block_paths_mirror_the_nesting "a.py" [] eitherCall).2.2 _ hy).2 _ hx rfl
  refine ⟨_, hx, _, hy, rfl, rfl, ?_, ?_⟩
  · rw [Bool.eq_false_iff, ne_eq, hxy]
    decide
  · rw [Bool.eq_false_iff, ne_eq, hyx]
    decide

end XPathTaint.Python
