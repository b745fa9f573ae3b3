import XPathTaint.Proofs.ReachingBindings

-- Which bindings reach a read, as a set. The search for them sorts and walks until it meets a
-- binding that is sure to be made; what it finds is said here of any two bindings of the name: one
-- reaches the read if it stands before it and none that is sure to be made stands in between.

namespace XPathTaint

/-! ## Bindings that hide others -/

section

variable (facts : FileFacts) (name : String) (scope : ScopeId) (block : BlockPath) (pos : Nat)

/-- A binding of a name that is sure to be made before a read: it does not stand behind the read,
and the blocks around it are around the read too. -/
structure Covers (d : Binding) : Prop where
  mem : d ∈ facts.bindingsOf name scope
  before : d.pos ≤ pos
  around : d.block <+: block

/-- A binding of a name that does not stand behind a read, and that no binding between the two is
sure to replace. -/
structure Reaches (b : Binding) : Prop where
  mem : b ∈ facts.bindingsOf name scope
  before : b.pos ≤ pos
  unhidden : ∀ d, Covers facts name scope block pos d → ¬ b.pos < d.pos

end

/-! ## The walk -/

section

variable {block : BlockPath} {bs : List Binding}

/-- A walk over falling places finds what no cover hides. -/
theorem mem_upToCover_iff (hfalling : IsFalling bs) {b : Binding} :
    b ∈ (upToCover block bs).1 ↔ b ∈ bs ∧ ∀ d ∈ bs, dominates d.block block → ¬ b.pos < d.pos := by
  induction bs with
  | nil => simp [upToCover]
  | cons c rest ih =>
    obtain ⟨hbehind, hrest⟩ := List.pairwise_cons.mp hfalling
    by_cases hdom : dominates c.block block
    · -- the walk ends here, and all that is left stands before `c`
      rw [upToCover, if_pos hdom, List.mem_singleton]
      constructor
      · rintro rfl
        refine ⟨List.mem_cons_self, fun d hd _ => Nat.not_lt.mpr ?_⟩
        rcases List.mem_cons.mp hd with rfl | hd
        · exact Nat.le_refl _
        · exact Nat.le_of_lt (hbehind d hd)
      · rintro ⟨hb, hopen⟩
        rcases List.mem_cons.mp hb with rfl | hb
        · rfl
        · exact absurd (hbehind b hb) (hopen c List.mem_cons_self hdom)
    · rw [upToCover, if_neg hdom]
      simp only [List.mem_cons, ih hrest]
      constructor
      · rintro (rfl | ⟨hb, hopen⟩)
        · refine ⟨.inl rfl, ?_⟩
          rintro d (rfl | hd) _
          · exact Nat.lt_irrefl _
          · exact Nat.lt_asymm (hbehind d hd)
        · refine ⟨.inr hb, ?_⟩
          rintro d (rfl | hd) hcover
          · exact absurd hcover hdom
          · exact hopen d hd hcover
      · rintro ⟨rfl | hb, hopen⟩
        · exact .inl rfl
        · exact .inr ⟨hb, fun d hd => hopen d (.inr hd)⟩

/-- A walk that meets a cover ends with it. -/
theorem exists_getLast?_upToCover (h : (upToCover block bs).2 = true) :
    ∃ d, (upToCover block bs).1.getLast? = some d ∧ dominates d.block block = true := by
  induction bs with
  | nil => simp [upToCover] at h
  | cons b rest ih =>
    rw [upToCover] at h ⊢
    split at h
    · next hdom => exact ⟨b, by simp [hdom], hdom⟩
    · next hdom =>
      obtain ⟨d, hlast, hd⟩ := ih h
      refine ⟨d, ?_, hd⟩
      rw [if_neg hdom, List.getLast?_cons, hlast]
      rfl

end

/-! ## Reads -/

section

variable {facts other : FileFacts} {name : String} {scope : ScopeId} {block : BlockPath} {pos : Nat}

theorem earlierBindings_eq_mergeSort : earlierBindings facts name scope pos =
    ((facts.bindingsOf name scope).filter fun b => decide (b.pos ≤ pos)).mergeSort
      fun a b => decide (b.pos ≤ a.pos) := by
  unfold earlierBindings FileFacts.bindingsOf
  rw [List.filter_filter]
  congr 2
  funext b
  rw [Bool.and_comm (b.scope == scope), Bool.and_assoc]

theorem mem_earlierBindings_iff {b : Binding} : b ∈ earlierBindings facts name scope pos ↔
    b ∈ facts.bindingsOf name scope ∧ b.pos ≤ pos := by
  rw [earlierBindings_eq_mergeSort, List.mem_mergeSort, List.mem_filter, decide_eq_true_iff]

theorem covers_iff {d : Binding} : Covers facts name scope block pos d ↔
    d ∈ earlierBindings facts name scope pos ∧ dominates d.block block = true := by
  rw [mem_earlierBindings_iff, dominates_iff_isPrefix]
  constructor
  · rintro ⟨hmem, hbefore, haround⟩
    exact ⟨⟨hmem, hbefore⟩, haround⟩
  · rintro ⟨⟨hmem, hbefore⟩, haround⟩
    exact ⟨hmem, hbefore, haround⟩

theorem isFalling_earlierBindings (h : ((facts.bindingsOf name scope).map (·.pos)).Nodup)
    (pos : Nat) : IsFalling (earlierBindings facts name scope pos) := by
  rw [earlierBindings_eq_mergeSort]
  exact isFalling_mergeSort (h.sublist (List.filter_sublist.map _))

/-- It does not matter in which order bindings of different places were recorded. -/
theorem earlierBindings_perm (h : ((facts.bindingsOf name scope).map (·.pos)).Nodup)
    (hperm : other.bindings.Perm facts.bindings) (pos : Nat) :
    earlierBindings other name scope pos = earlierBindings facts name scope pos := by
  have hof : (other.bindingsOf name scope).Perm (facts.bindingsOf name scope) := hperm.filter _
  have hother : ((other.bindingsOf name scope).map (·.pos)).Nodup :=
    (hof.map Binding.pos).nodup_iff.mpr h
  refine (isFalling_earlierBindings hother pos).eq_of_perm (isFalling_earlierBindings h pos) ?_
  rw [earlierBindings_eq_mergeSort, earlierBindings_eq_mergeSort]
  exact (List.mergeSort_perm _ _).trans ((hof.filter _).trans (List.mergeSort_perm _ _).symm)

theorem mem_reachingBindings_iff (h : ((facts.bindingsOf name scope).map (·.pos)).Nodup)
    {b : Binding} : b ∈ reachingBindings facts name scope block pos ↔
      Reaches facts name scope block pos b := by
  unfold reachingBindings reachingWithCover
  rw [mem_upToCover_iff (isFalling_earlierBindings h pos), mem_earlierBindings_iff]
  constructor
  · rintro ⟨⟨hmem, hbefore⟩, hopen⟩
    refine ⟨hmem, hbefore, fun d hd => ?_⟩
    obtain ⟨hd, hdom⟩ := covers_iff.mp hd
    exact hopen d hd hdom
  · rintro ⟨hmem, hbefore, hopen⟩
    exact ⟨⟨hmem, hbefore⟩, fun d hd hdom => hopen d (covers_iff.mpr ⟨hd, hdom⟩)⟩

theorem covered_iff : (reachingWithCover facts name scope block pos).2 = true ↔
    ∃ d, Covers facts name scope block pos d := by
  unfold reachingWithCover
  rw [← Bool.not_eq_false, upToCover_uncovered]
  simp [covers_iff]

/-- The last binding that is found covers the read if any does, and no later one does. -/
theorem exists_last_cover (h : ((facts.bindingsOf name scope).map (·.pos)).Nodup)
    (hcovered : (reachingWithCover facts name scope block pos).2 = true) :
    ∃ last, (reachingBindings facts name scope block pos).getLast? = some last ∧
      Covers facts name scope block pos last ∧
        ∀ d, Covers facts name scope block pos d → d.pos ≤ last.pos := by
  obtain ⟨last, hlast, hdom⟩ := exists_getLast?_upToCover hcovered
  have hmem : last ∈ reachingBindings facts name scope block pos := List.mem_of_getLast? hlast
  obtain ⟨hof, hbefore, hopen⟩ := (mem_reachingBindings_iff h).mp hmem
  exact ⟨last, hlast, ⟨hof, hbefore, dominates_iff_isPrefix.mp hdom⟩,
    fun d hd => Nat.not_lt.mp (hopen d hd)⟩

end

/-- Exactly those bindings of a name reach a read that stand before it with no binding in between
that is sure to be made, the last one first; the last one found is the latest that is sure to be
made, if there is any. It does not matter in which order the bindings were recorded. -/
theorem exactly_the_unhidden_bindings_reach_a_read (facts : FileFacts) (name : String)
    (scope : ScopeId) (block : BlockPath) (pos : Nat)
    (hplaces : ((facts.bindingsOf name scope).map (·.pos)).Nodup) :
    ∃ found covered, reachingWithCover facts name scope block pos = (found, covered) ∧
      found.Pairwise (fun a b => b.pos < a.pos) ∧
      (∀ b, b ∈ found ↔ Reaches facts name scope block pos b) ∧
      (covered = true ↔ ∃ d, Covers facts name scope block pos d) ∧
      (covered = true → ∃ last, found.getLast? = some last ∧
        Covers facts name scope block pos last ∧
          ∀ d, Covers facts name scope block pos d → d.pos ≤ last.pos) ∧
      ∀ other : FileFacts, other.bindings.Perm facts.bindings →
        reachingWithCover other name scope block pos = (found, covered) := by
  have hfalling : IsFalling (reachingBindings facts name scope block pos) :=
    (isFalling_earlierBindings hplaces pos).sublist (prefix_upToCover block _).sublist
  refine ⟨reachingBindings facts name scope block pos,
    (reachingWithCover facts name scope block pos).2, rfl, hfalling,
    fun b => mem_reachingBindings_iff hplaces, covered_iff, exists_last_cover hplaces, ?_⟩
  intro other hperm
  unfold reachingBindings reachingWithCover
  rw [earlierBindings_perm hplaces hperm]

/-! ## A choice -/

/-- A binding of `q` in the module. -/
def bindingOfQ (block : BlockPath) (line pos : Nat) (value : Expr) : Binding :=
  { id := line, name := "q", value, scope := moduleScope, block, pos, place := ⟨"app.py", line, 1⟩ }

/-- `q = a` on the first line. -/
def boundAtStart : Binding := bindingOfQ [] 1 5 (.name "a" ⟨"a", 4, ⟨"app.py", 1, 5⟩⟩)

/-- `q = b` in the block of `if c:`. -/
def boundIfTrue : Binding := bindingOfQ [1] 3 21 (.name "b" ⟨"b", 20, ⟨"app.py", 3, 9⟩⟩)

/-- `q = d` in the block of `else:`. -/
def boundIfFalse : Binding := bindingOfQ [2] 6 46 (.name "d" ⟨"d", 45, ⟨"app.py", 6, 9⟩⟩)

/-- The three bindings, recorded in no order. -/
def choiceFacts : FileFacts :=
  { FileFacts.empty "app.py" "python" with bindings := [boundIfTrue, boundIfFalse, boundAtStart] }

theorem mem_bindingsOf_choice {d : Binding} : d ∈ choiceFacts.bindingsOf "q" moduleScope ↔
    d = boundIfTrue ∨ d = boundIfFalse ∨ d = boundAtStart := by
  have hof : choiceFacts.bindingsOf "q" moduleScope = [boundIfTrue, boundIfFalse, boundAtStart] :=
    rfl
  simp [hof]

/-- Behind the choice nothing but the binding at the start covers a read of `q`. -/
theorem eq_boundAtStart_of_covers {d : Binding}
    (h : Covers choiceFacts "q" moduleScope [] 49 d) : d = boundAtStart := by
  have hblock : d.block = [] := List.prefix_nil.mp h.around
  rcases mem_bindingsOf_choice.mp h.mem with rfl | rfl | rfl
  · cases hblock
  · cases hblock
  · rfl

/-- Behind the choice the bindings of both blocks reach a read of `q`, and so does the one at the
start, in whichever order they were recorded; within the first block its own binding hides that
one. -/
theorem exactly_the_unhidden_bindings_reach_a_read_of_a_choice :
    ((choiceFacts.bindingsOf "q" moduleScope).map (·.pos)).Nodup ∧
      (∃ found, reachingWithCover choiceFacts "q" moduleScope [] 49 = (found, true) ∧
        boundIfFalse ∈ found ∧ boundIfTrue ∈ found ∧ found.getLast? = some boundAtStart ∧
        reachingWithCover { choiceFacts with bindings := [boundAtStart, boundIfTrue, boundIfFalse] }
          "q" moduleScope [] 49 = (found, true)) ∧
      ∃ found, reachingWithCover choiceFacts "q" moduleScope [1] 28 = (found, true) ∧
        boundIfTrue ∈ found ∧ boundAtStart ∉ found := by
  have hplaces : ((choiceFacts.bindingsOf "q" moduleScope).map (·.pos)).Nodup := by decide
  have htrue := mem_bindingsOf_choice.mpr (.inl rfl)
  have hfalse := mem_bindingsOf_choice.mpr (.inr (.inl rfl))
  have hstart := mem_bindingsOf_choice.mpr (.inr (.inr rfl))
  refine ⟨hplaces, ?_, ?_⟩
  · obtain ⟨found, covered, hfound, _, hmem, hcovered, hlast, hother⟩ :=
      exactly_the_unhidden_bindings_reach_a_read choiceFacts "q" moduleScope [] 49 hplaces
    obtain rfl : covered = true := hcovered.mpr ⟨boundAtStart, hstart, by decide, List.nil_prefix⟩
    -- both stand behind the only binding that could hide them
    have hreaches (b : Binding) (hb : b ∈ choiceFacts.bindingsOf "q" moduleScope)
        (hbefore : b.pos ≤ 49) (hbehind : ¬ b.pos < boundAtStart.pos) : b ∈ found :=
      (hmem b).mpr ⟨hb, hbefore, fun d hd => eq_boundAtStart_of_covers hd ▸ hbehind⟩
    obtain ⟨last, hlast, hcovers, _⟩ := hlast rfl
    obtain rfl := eq_boundAtStart_of_covers hcovers
    exact ⟨found, hfound, hreaches _ hfalse (by decide) (by decide),
      hreaches _ htrue (by decide) (by decide), hlast,
      hother _ (List.perm_append_singleton boundAtStart [boundIfTrue, boundIfFalse]).symm⟩
  · obtain ⟨found, covered, hfound, _, hmem, hcovered, _, _⟩ :=
      exactly_the_unhidden_bindings_reach_a_read choiceFacts "q" moduleScope [1] 28 hplaces
    have hcovers : Covers choiceFacts "q" moduleScope [1] 28 boundIfTrue :=
      ⟨htrue, by decide, List.prefix_refl _⟩
    obtain rfl : covered = true := hcovered.mpr ⟨boundIfTrue, hcovers⟩
    refine ⟨found, hfound, (hmem boundIfTrue).mpr ⟨htrue, by decide, ?_⟩, ?_⟩
    · rintro d ⟨hd, hbefore, _⟩ hbehind
      rcases mem_bindingsOf_choice.mp hd with rfl | rfl | rfl
      · exact Nat.lt_irrefl _ hbehind
      · exact absurd hbefore (by decide)
      · exact absurd hbehind (by decide)
    · intro hfound
      exact ((hmem boundAtStart).mp hfound).unhidden boundIfTrue hcovers (by decide)

end XPathTaint
