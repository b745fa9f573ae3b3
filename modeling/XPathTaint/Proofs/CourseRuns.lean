import XPathTaint.Proofs.BlockPaths

-- Runs of a course: an evaluation without exceptions passes over optional parts, takes them again
-- or leaves them early. In a course whose parts are in the order of the text, a binding that stands
-- before a use is evaluated first, if nothing that may be passed over is around the binding alone.

namespace XPathTaint.Python

/-! ## Runs -/

/-- The third list holds the items of the first two, those of each in their order. -/
inductive Interleaved {α : Type} : List α → List α → List α → Prop
  | nil : Interleaved [] [] []
  | left {x xs ys zs} : Interleaved xs ys zs → Interleaved (x :: xs) ys (x :: zs)
  | right {y xs ys zs} : Interleaved xs ys zs → Interleaved xs (y :: ys) (y :: zs)

namespace Course

variable {α : Type}

/-- What a run through a course may evaluate, in order. An optional part may be taken any number of
times, and each time `break`, `continue`, `return` or a condition may end it early. The body of a
scope does not run where it is defined. -/
def Runs : Course α → List α → Prop
  | nothing, run => run = []
  | item x, run => run = [x]
  | pair .forward one other, run =>
    ∃ first second, one.Runs first ∧ other.Runs second ∧ run = first ++ second
  | pair .backward one other, run =>
    ∃ first second, other.Runs first ∧ one.Runs second ∧ run = first ++ second
  | pair .either one other, run =>
    ∃ first second, one.Runs first ∧ other.Runs second ∧ Interleaved first second run
  | again part, run =>
    ∃ passes : List (List α), passes ≠ [] ∧ (∀ pass ∈ passes, part.Runs pass) ∧ run = passes.flatten
  | optional _ part, run =>
    ∃ passes : List (List α), (∀ pass ∈ passes, ∃ rest, part.Runs (pass ++ rest)) ∧
      run = passes.flatten
  | scope _, run => run = []

variable {one other : Course α} {first second : List α}

theorem runs_nothing : (nothing : Course α).Runs [] := rfl

theorem runs_item (x : α) : (item x).Runs [x] := rfl

theorem runs_forward (hone : one.Runs first) (hother : other.Runs second) :
    (pair .forward one other).Runs (first ++ second) :=
  ⟨first, second, hone, hother, rfl⟩

theorem runs_passed_over {isBlock : Bool} : (optional isBlock one).Runs [] := ⟨[], by simp, rfl⟩

end Course

section

variable {α : Type} {x : α} {xs ys zs before after : List α}

theorem Interleaved.mem_left (h : Interleaved xs ys zs) (hx : x ∈ xs) : x ∈ zs := by
  induction h with
  | nil => exact hx
  | left _ ih =>
    rcases List.mem_cons.mp hx with rfl | hx
    · simp
    · exact List.mem_cons_of_mem _ (ih hx)
  | right _ ih => exact List.mem_cons_of_mem _ (ih hx)

theorem Interleaved.symm (h : Interleaved xs ys zs) : Interleaved ys xs zs := by
  induction h with
  | nil => exact .nil
  | left _ ih => exact .right ih
  | right _ ih => exact .left ih

/-- Each item comes from one of the two lists, behind what stands before it there. -/
theorem Interleaved.split (h : Interleaved xs ys (before ++ x :: after)) :
    (∃ front rest, xs = front ++ x :: rest ∧ ∀ y ∈ front, y ∈ before) ∨
      ∃ front rest, ys = front ++ x :: rest ∧ ∀ y ∈ front, y ∈ before := by
  generalize hzs : before ++ x :: after = zs at h
  induction h generalizing before with
  | nil => simp at hzs
  | @left z xs ys zs h ih =>
    cases before with
    | nil =>
      obtain ⟨rfl, rfl⟩ := List.cons.inj hzs
      exact Or.inl ⟨[], xs, rfl, by simp⟩
    | cons b before =>
      obtain ⟨rfl, hrest⟩ := List.cons.inj hzs
      rcases ih hrest with ⟨front, rest, rfl, hfront⟩ | ⟨front, rest, rfl, hfront⟩
      · refine Or.inl ⟨b :: front, rest, rfl, ?_⟩
        intro y hy
        rcases List.mem_cons.mp hy with rfl | hy
        · simp
        · exact List.mem_cons_of_mem _ (hfront y hy)
      · exact Or.inr ⟨front, rest, rfl, fun y hy => List.mem_cons_of_mem _ (hfront y hy)⟩
  | @right z xs ys zs h ih =>
    cases before with
    | nil =>
      obtain ⟨rfl, rfl⟩ := List.cons.inj hzs
      exact Or.inr ⟨[], ys, rfl, by simp⟩
    | cons b before =>
      obtain ⟨rfl, hrest⟩ := List.cons.inj hzs
      rcases ih hrest with ⟨front, rest, rfl, hfront⟩ | ⟨front, rest, rfl, hfront⟩
      · exact Or.inl ⟨front, rest, rfl, fun y hy => List.mem_cons_of_mem _ (hfront y hy)⟩
      · refine Or.inr ⟨b :: front, rest, rfl, ?_⟩
        intro y hy
        rcases List.mem_cons.mp hy with rfl | hy
        · simp
        · exact List.mem_cons_of_mem _ (hfront y hy)

/-- An item of two pieces stands in the first or behind it. -/
theorem split_of_append (h : before ++ x :: after = xs ++ ys) :
    (∃ rest, xs = before ++ x :: rest) ∨
      ∃ front, before = xs ++ front ∧ ys = front ++ x :: after := by
  rcases List.append_eq_append_iff.mp h with ⟨rest, hxs, hrest⟩ | ⟨front, hbefore, hys⟩
  · cases rest with
    | nil => exact Or.inr ⟨[], by simpa using hxs.symm, by simpa using hrest.symm⟩
    | cons y rest =>
      obtain ⟨rfl, _⟩ := List.cons.inj hrest
      exact Or.inl ⟨rest, hxs⟩
  · exact Or.inr ⟨front, hbefore, hys⟩

/-- An item of several passes stands in one of them. -/
theorem exists_pass {passes : List (List α)} (h : before ++ x :: after = passes.flatten) :
    ∃ pass ∈ passes, ∃ front rest, pass = front ++ x :: rest ∧ ∀ y ∈ front, y ∈ before := by
  induction passes generalizing before with
  | nil => simp at h
  | cons pass passes ih =>
    rw [List.flatten_cons] at h
    rcases split_of_append h with ⟨rest, hpass⟩ | ⟨front, hbefore, hrest⟩
    · exact ⟨pass, List.mem_cons_self, before, rest, hpass, fun _ hy => hy⟩
    · obtain ⟨pass', hmem, front', rest', heq, hfront⟩ := ih hrest.symm
      refine ⟨pass', List.mem_cons_of_mem _ hmem, front', rest', heq, ?_⟩
      intro y hy
      rw [hbefore]
      exact List.mem_append_right _ (hfront y hy)

end

namespace Course

variable {α : Type} {c : Course α} {run : List α}

/-- A run evaluates nothing but what the course has in its own scope. -/
theorem own_of_runs (h : c.Runs run) : ∀ x ∈ run, x ∈ c.own := by
  induction c generalizing run with
  | nothing => simp [Runs] at h; simp [h]
  | item y => simp [Runs] at h; simp [h, own]
  | pair order one other ih₁ ih₂ =>
    intro x hx
    unfold own
    rw [List.mem_append]
    cases order with
    | forward =>
      obtain ⟨first, second, hfirst, hsecond, rfl⟩ := h
      exact (List.mem_append.mp hx).imp (ih₁ hfirst x) (ih₂ hsecond x)
    | backward =>
      obtain ⟨first, second, hfirst, hsecond, rfl⟩ := h
      exact (List.mem_append.mp hx).symm.imp (ih₁ hsecond x) (ih₂ hfirst x)
    | either =>
      obtain ⟨first, second, hfirst, hsecond, hmixed⟩ := h
      obtain ⟨before, after, rfl⟩ := List.append_of_mem hx
      rcases hmixed.split with ⟨front, rest, rfl, _⟩ | ⟨front, rest, rfl, _⟩
      · exact Or.inl (ih₁ hfirst x (by simp))
      · exact Or.inr (ih₂ hsecond x (by simp))
  | again part ih =>
    obtain ⟨passes, _, hpasses, rfl⟩ := h
    intro x hx
    obtain ⟨pass, hpass, hx⟩ := List.mem_flatten.mp hx
    exact ih (hpasses pass hpass) x hx
  | optional isBlock part ih =>
    obtain ⟨passes, hpasses, rfl⟩ := h
    intro x hx
    obtain ⟨pass, hpass, hx⟩ := List.mem_flatten.mp hx
    obtain ⟨rest, hwhole⟩ := hpasses pass hpass
    exact ih hwhole x (List.mem_append_left _ hx)
  | scope body ih => simp [Runs] at h; simp [h]

/-- A run evaluates all that cannot be passed over. -/
theorem sure_of_runs (h : c.Runs run) : ∀ x ∈ c.sure, x ∈ run := by
  induction c generalizing run with
  | nothing => simp [sure]
  | item y => simp [Runs] at h; simp [h, sure]
  | pair order one other ih₁ ih₂ =>
    intro x hx
    have hside := List.mem_append.mp hx
    cases order with
    | forward =>
      obtain ⟨first, second, hfirst, hsecond, rfl⟩ := h
      exact List.mem_append.mpr (hside.imp (ih₁ hfirst x) (ih₂ hsecond x))
    | backward =>
      obtain ⟨first, second, hfirst, hsecond, rfl⟩ := h
      exact List.mem_append.mpr (hside.symm.imp (ih₂ hfirst x) (ih₁ hsecond x))
    | either =>
      obtain ⟨first, second, hfirst, hsecond, hmixed⟩ := h
      rcases hside with hx | hx
      · exact hmixed.mem_left (ih₁ hfirst x hx)
      · exact hmixed.symm.mem_left (ih₂ hsecond x hx)
  | again part ih =>
    obtain ⟨passes, hne, hpasses, rfl⟩ := h
    intro x hx
    obtain ⟨pass, hpass⟩ := List.exists_mem_of_ne_nil passes hne
    exact List.mem_flatten.mpr ⟨pass, hpass, ih (hpasses pass hpass) x hx⟩
  | optional isBlock part ih => simp [sure]
  | scope body ih => simp [sure]

end Course

/-! ## Courses in the order of the text -/

namespace Course

/-- No use in the one course stands behind a binding that the other one is sure to make. -/
def UsedBefore (one other : Course Item) : Prop :=
  ∀ u ∈ one.own, u.isUse → ∀ b ∈ other.sure, b.isBinding → u.pos < b.pos

/-- What is evaluated first stands first, as far as uses and bindings go. -/
def Ordered : Course Item → Prop
  | nothing => True
  | item _ => True
  | pair .forward one other => one.Ordered ∧ other.Ordered ∧ one.UsedBefore other
  | pair .backward one other => one.Ordered ∧ other.Ordered ∧ other.UsedBefore one
  | pair .either one other => one.Ordered ∧ other.Ordered
  | again part => part.Ordered
  | optional _ part => part.Ordered
  | scope body => body.Ordered

end Course

/-! ## Ways between places -/

/-- The second place is in a part of the first one, in the same scope. -/
structure Here.Leads (outer inner : Here) : Prop where
  address : outer.address <+: inner.address
  around : ∀ a ∈ outer.around, a ∈ inner.around
  skips : ∀ a ∈ outer.skips, a ∈ inner.skips
  sides : ∀ s ∈ outer.sides, s ∈ inner.sides
  new : ∀ a, a ∈ inner.around ∨ a ∈ inner.skips →
    (a ∈ outer.around ∨ a ∈ outer.skips) ∨ outer.address <+: a

namespace Here

theorem Leads.refl (h : Here) : h.Leads h :=
  ⟨List.prefix_refl _, fun _ ha => ha, fun _ ha => ha, fun _ hs => hs, fun _ ha => Or.inl ha⟩

theorem Leads.trans {h₁ h₂ h₃ : Here} (h : h₁.Leads h₂) (h' : h₂.Leads h₃) : h₁.Leads h₃ := by
  refine ⟨h.address.trans h'.address, fun a ha => h'.around a (h.around a ha),
    fun a ha => h'.skips a (h.skips a ha), fun s hs => h'.sides s (h.sides s hs), ?_⟩
  intro a ha
  rcases h'.new a ha with ha | ha
  · exact h.new a ha
  · exact Or.inr (h.address.trans ha)

theorem leads_part (h : Here) (second : Bool) : h.Leads (h.part second) :=
  ⟨List.prefix_append _ _, fun _ ha => ha, fun _ ha => ha, fun _ hs => hs, fun _ ha => Or.inl ha⟩

theorem leads_side (h : Here) (order : PairOrder) (second : Bool) :
    h.Leads (h.side order second) := by
  cases order with
  | forward => exact h.leads_part second
  | backward => exact h.leads_part second
  | either =>
    exact ⟨List.prefix_append _ _, fun _ ha => ha, fun _ ha => ha,
      fun _ hs => List.mem_append_left _ hs, fun _ ha => Or.inl ha⟩

theorem mem_inBlock (h : Here) (n : Nat) : h.address ∈ (h.inBlock n).around :=
  List.mem_append_right _ (List.mem_singleton_self _)

theorem mem_inSkip (h : Here) : h.address ∈ h.inSkip.skips :=
  List.mem_append_right _ (List.mem_singleton_self _)

theorem mem_sides (h : Here) (second : Bool) :
    (h.address, second) ∈ (h.side .either second).sides :=
  List.mem_append_right _ (List.mem_singleton_self _)

theorem leads_inBlock (h : Here) (n : Nat) : h.Leads (h.inBlock n) := by
  refine ⟨List.prefix_append _ _, fun _ ha => List.mem_append_left _ ha, fun _ ha => ha,
    fun _ hs => hs, ?_⟩
  rintro a (ha | ha)
  · rcases List.mem_append.mp ha with ha | ha
    · exact Or.inl (Or.inl ha)
    · rw [List.mem_singleton.mp ha]
      exact Or.inr (List.prefix_refl _)
  · exact Or.inl (Or.inr ha)

theorem leads_inSkip (h : Here) : h.Leads h.inSkip := by
  refine ⟨List.prefix_append _ _, fun _ ha => ha, fun _ ha => List.mem_append_left _ ha,
    fun _ hs => hs, ?_⟩
  rintro a (ha | ha)
  · exact Or.inl (Or.inl ha)
  · rcases List.mem_append.mp ha with ha | ha
    · exact Or.inl (Or.inr ha)
    · rw [List.mem_singleton.mp ha]
      exact Or.inr (List.prefix_refl _)

end Here

namespace Course

variable {c one other : Course Item} {here : Here} {n k n' k' : Nat} {b u x : Mark}
  {before after : List Mark}

theorem leads_of_own (h : x ∈ (c.locate here n k).own) : here.Leads x.toHere := by
  induction c generalizing here n k with
  | nothing => simp [locate, own] at h
  | item i =>
    simp only [locate, own, List.mem_singleton] at h
    rw [h]
    exact .refl here
  | pair order one other ih₁ ih₂ =>
    rcases List.mem_append.mp h with h | h
    · exact (here.leads_side order false).trans (ih₁ h)
    · exact (here.leads_side order true).trans (ih₂ h)
  | again part ih => exact (here.leads_part false).trans (ih h)
  | optional isBlock part ih =>
    cases isBlock with
    | false => exact here.leads_inSkip.trans (ih h)
    | true => exact (here.leads_inBlock _).trans (ih h)
  | scope body ih => simp [locate, own] at h

/-- What is not sure to be evaluated stands in a part that may be passed over. -/
theorem sure_or_optional (h : x ∈ (c.locate here n k).own) :
    x ∈ (c.locate here n k).sure ∨
      ∃ a, (a ∈ x.around ∨ a ∈ x.skips) ∧ here.address <+: a := by
  induction c generalizing here n k with
  | nothing => simp [locate, own] at h
  | item i => exact Or.inl h
  | pair order one other ih₁ ih₂ =>
    rcases List.mem_append.mp h with h | h
    · rcases ih₁ h with h | ⟨a, ha, hbelow⟩
      · exact Or.inl (List.mem_append_left _ h)
      · exact Or.inr ⟨a, ha, (here.leads_side order false).address.trans hbelow⟩
    · rcases ih₂ h with h | ⟨a, ha, hbelow⟩
      · exact Or.inl (List.mem_append_right _ h)
      · exact Or.inr ⟨a, ha, (here.leads_side order true).address.trans hbelow⟩
  | again part ih =>
    rcases ih h with h | ⟨a, ha, hbelow⟩
    · exact Or.inl h
    · exact Or.inr ⟨a, ha, (here.leads_part false).address.trans hbelow⟩
  | optional isBlock part ih =>
    refine Or.inr ⟨here.address, ?_, List.prefix_refl _⟩
    cases isBlock with
    | false =>
      have hleads : here.inSkip.Leads x.toHere := leads_of_own h
      exact Or.inr (hleads.skips _ here.mem_inSkip)
    | true =>
      have hleads : (here.inBlock (n + 1)).Leads x.toHere := leads_of_own h
      exact Or.inl (hleads.around _ (here.mem_inBlock (n + 1)))
  | scope body ih => simp [locate, own] at h

/-- A binding in one part of a pair, with no optional part around it alone, is sure to be made. -/
theorem sure_of_side {order : PairOrder} {side side' : Bool} (hfresh : here.Fresh)
    (hne : side ≠ side')
    (hoptional : ∀ a, a ∈ b.around ∨ a ∈ b.skips → a ∈ u.around ∨ a ∈ u.skips)
    (hb : b ∈ (one.locate (here.side order side) n k).own)
    (hu : u ∈ (other.locate (here.side order side') n' k').own) :
    b ∈ (one.locate (here.side order side) n k).sure := by
  rcases sure_or_optional hb with hsure | ⟨a, ha, hbelow⟩
  · exact hsure
  · exfalso
    rw [Here.side_address] at hbelow
    rcases (leads_of_own hu).new a (hoptional a ha) with ha | ha
    · rw [Here.side_around, Here.side_skips] at ha
      exact hfresh a ha ((List.prefix_append _ _).trans hbelow)
    · rw [Here.side_address] at ha
      exact Here.not_both_sides hne hbelow ha

theorem item_of_own (h : x ∈ (c.locate here n k).own) : x.item ∈ c.own := by
  rw [← own_locate c here n k]
  exact List.mem_map_of_mem h

theorem item_of_sure (h : x ∈ (c.locate here n k).sure) : x.item ∈ c.sure := by
  rw [← sure_locate c here n k]
  exact List.mem_map_of_mem h

/-- Parts evaluated one after the other, if each of them makes its own bindings in time. -/
theorem mem_before_of_turns {order : PairOrder} {side side' : Bool} {first second : List Mark}
    (hfresh : here.Fresh) (hne : side ≠ side') (hused : one.UsedBefore other)
    (hbinding : b.item.isBinding) (huse : u.item.isUse) (hpos : b.pos ≤ u.pos)
    (hoptional : ∀ a, a ∈ b.around ∨ a ∈ b.skips → a ∈ u.around ∨ a ∈ u.skips)
    (hfirst : (one.locate (here.side order side) n k).Runs first)
    (hsecond : (other.locate (here.side order side') n' k').Runs second)
    (hrun : before ++ u :: after = first ++ second)
    (hown : b ∈ (one.locate (here.side order side) n k).own →
      ∀ rest, first = before ++ u :: rest → b ∈ before)
    (hother : b ∈ (other.locate (here.side order side') n' k').own →
      ∀ front rest, second = front ++ u :: rest → b ∈ front)
    (hb : b ∈ (one.locate (here.side order side) n k).own ∨
      b ∈ (other.locate (here.side order side') n' k').own) : b ∈ before := by
  rcases split_of_append hrun with ⟨rest, hu⟩ | ⟨front, hbefore, hu⟩
  · have hmem : u ∈ first := hu ▸ List.mem_append_right _ List.mem_cons_self
    rcases hb with hb | hb
    · exact hown hb rest hu
    · -- the use comes before a binding that stands behind it
      have hsure := sure_of_side hfresh hne.symm hoptional hb (own_of_runs hfirst u hmem)
      have hlt := hused u.item (item_of_own (own_of_runs hfirst u hmem)) huse b.item
        (item_of_sure hsure) hbinding
      exact absurd hpos (Nat.not_le.mpr hlt)
  · have hmem : u ∈ second := hu ▸ List.mem_append_right _ List.mem_cons_self
    rw [hbefore]
    rcases hb with hb | hb
    · have hsure := sure_of_side hfresh hne hoptional hb (own_of_runs hsecond u hmem)
      exact List.mem_append_left _ (sure_of_runs hfirst b hsure)
    · exact List.mem_append_right _ (hother hb front after hu)

/-- A binding that stands before a use has been made when a run comes to the use, if the parts of
the course are in the order of the text and every part around the binding that may be passed over
is around the use. -/
theorem mem_before (hordered : c.Ordered) (hfresh : here.Fresh) (hbinding : b.item.isBinding)
    (huse : u.item.isUse) (hpos : b.pos ≤ u.pos)
    (hoptional : ∀ a, a ∈ b.around ∨ a ∈ b.skips → a ∈ u.around ∨ a ∈ u.skips)
    (hapart : ¬ b.ApartFrom u) (hb : b ∈ (c.locate here n k).own)
    (hrun : (c.locate here n k).Runs (before ++ u :: after)) : b ∈ before := by
  induction c generalizing here n k before after with
  | nothing => simp [locate, own] at hb
  | item i =>
    have hu := own_of_runs hrun u (by simp)
    simp only [locate, own, List.mem_singleton] at hb hu
    rw [← hb] at hu
    rw [hu, Item.isUse, hbinding] at huse
    cases huse
  | pair order one other ih₁ ih₂ =>
    have hsides := List.mem_append.mp hb
    cases order with
    | forward =>
      obtain ⟨hone, hother, hused⟩ := hordered
      obtain ⟨first, second, hfirst, hsecond, hrun⟩ := hrun
      refine mem_before_of_turns hfresh (by decide) hused hbinding huse hpos hoptional hfirst
        hsecond hrun ?_ ?_ hsides
      · rintro hb rest rfl
        exact ih₁ hone (hfresh.side .forward false) hb hfirst
      · rintro hb front rest rfl
        exact ih₂ hother (hfresh.side .forward true) hb hsecond
    | backward =>
      obtain ⟨hone, hother, hused⟩ := hordered
      obtain ⟨first, second, hfirst, hsecond, hrun⟩ := hrun
      refine mem_before_of_turns hfresh (by decide) hused hbinding huse hpos hoptional hfirst
        hsecond hrun ?_ ?_ hsides.symm
      · rintro hb rest rfl
        exact ih₂ hother (hfresh.side .backward true) hb hfirst
      · rintro hb front rest rfl
        exact ih₁ hone (hfresh.side .backward false) hb hsecond
    | either =>
      obtain ⟨hone, hother⟩ := hordered
      obtain ⟨first, second, hfirst, hsecond, hmixed⟩ := hrun
      -- a binding on the other side of the pair is apart from the use
      rcases hmixed.split with ⟨front, rest, rfl, hfront⟩ | ⟨front, rest, rfl, hfront⟩
      · have hu := leads_of_own (own_of_runs hfirst u (by simp))
        rcases hsides with hb | hb
        · exact hfront b (ih₁ hone (hfresh.side .either false) hb hfirst)
        · refine absurd ⟨here.address, true, ?_, ?_⟩ hapart
          · exact (leads_of_own hb).sides _ (here.mem_sides true)
          · exact hu.sides _ (here.mem_sides false)
      · have hu := leads_of_own (own_of_runs hsecond u (by simp))
        rcases hsides with hb | hb
        · refine absurd ⟨here.address, false, ?_, ?_⟩ hapart
          · exact (leads_of_own hb).sides _ (here.mem_sides false)
          · exact hu.sides _ (here.mem_sides true)
        · exact hfront b (ih₂ hother (hfresh.side .either true) hb hsecond)
  | again part ih =>
    obtain ⟨passes, _, hpasses, hflat⟩ := hrun
    obtain ⟨pass, hpass, front, rest, heq, hfront⟩ := exists_pass hflat
    apply hfront
    apply ih hordered (hfresh.part false) hb
    exact heq ▸ hpasses pass hpass
  | optional isBlock part ih =>
    have hpart : ∀ {inner : Here} {n : Nat}, inner.Fresh → b ∈ (part.locate inner n k).own →
        (∃ passes : List (List Mark), (∀ pass ∈ passes, ∃ rest,
          (part.locate inner n k).Runs (pass ++ rest)) ∧ before ++ u :: after = passes.flatten) →
        b ∈ before := by
      rintro inner n hinner hb ⟨passes, hpasses, hflat⟩
      obtain ⟨pass, hpass, front, rest, rfl, hfront⟩ := exists_pass hflat
      obtain ⟨later, hwhole⟩ := hpasses _ hpass
      rw [List.append_assoc, List.cons_append] at hwhole
      exact hfront b (ih hordered hinner hb hwhole)
    cases isBlock with
    | false => exact hpart hfresh.inSkip hb hrun
    | true => exact hpart (hfresh.inBlock _) hb hrun
  | scope body ih => simp [locate, own] at hb

end Course

end XPathTaint.Python
