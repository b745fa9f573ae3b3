import XPathTaint.Proofs.TaintMemory
import XPathTaint.Proofs.TaintedNodes

-- How tainted names can be followed backwards. Each of them has a binding that may reach the
-- place where the run is and has a tainted value, or is a parameter of a route that no
-- binding covers. Assignments, blocks that are entered and left, and blocks that are passed
-- over keep it so, and where it is so the search finds what a run taints.

namespace XPathTaint

/-- Each tainted name can be followed from a block where the bindings `made` are behind: to one
of them that nothing hides and that has a tainted value, or to a parameter of a route. -/
def Followable (facts : FileFacts) (reg : Registry) (scope : ScopeId) (made : List Binding)
    (block : BlockPath) (env : List String) : Prop :=
  ∀ x ∈ env,
    (∃ b ∈ (upToCover block (lastFirst made x)).1,
      ∀ budget, made.length ≤ budget → TaintsBinding facts reg scope budget b) ∨
    ((upToCover block (lastFirst made x)).2 = false ∧ (routeParam facts scope x).isSome)

section

variable {facts : FileFacts} {reg : Registry} {scope : ScopeId} {made : List Binding}
  {block : BlockPath} {env : List String}

theorem lastFirst_append (more : List Binding) (x : String) :
    lastFirst (made ++ more) x = lastFirst more x ++ lastFirst made x := by
  simp [lastFirst]

theorem mem_lastFirst {b : Binding} {x : String} :
    b ∈ lastFirst made x ↔ b ∈ made ∧ b.name = x := by
  simp [lastFirst]

theorem Followable.read {x : String} {pos budget : Nat}
    (h : Followable facts reg scope made block env) (hbefore : Before facts scope made pos)
    (hx : x ∈ env) (hbudget : made.length ≤ budget) :
    TaintsRead facts reg scope budget block x pos := by
  have hreach : reachingWithCover facts x scope block pos = upToCover block (lastFirst made x) := by
    unfold reachingWithCover
    rw [hbefore.earlierBindings_eq]
  rw [taintsRead_iff]
  unfold reachingBindings
  rw [hreach]
  refine ⟨?_, ?_⟩
  · intro h0
    have hmade : made = [] := List.length_eq_zero_iff.mp (by omega)
    rw [hmade]
    rfl
  · rcases h x hx with ⟨b, hb, htaints⟩ | huncovered
    · exact Or.inl ⟨b, hb, htaints budget hbudget⟩
    · exact Or.inr huncovered

/-- A new block hides nothing before something is bound in it. -/
theorem Followable.enter {n : Nat} (h : Followable facts reg scope made block env)
    (hfresh : ∀ b ∈ made, b.block ≠ block ++ [n]) :
    Followable facts reg scope made (block ++ [n]) env := by
  intro x hx
  have hsame : upToCover (block ++ [n]) (lastFirst made x) = upToCover block (lastFirst made x) := by
    apply upToCover_congr
    intro b hb
    exact dominates_concat (hfresh b (mem_lastFirst.mp hb).1)
  rw [hsame]
  exact h x hx

/-- What can be followed inside a block can be followed behind it. -/
theorem Followable.leave {n : Nat} (h : Followable facts reg scope made (block ++ [n]) env) :
    Followable facts reg scope made block env := by
  intro x hx
  have hdom : ∀ b ∈ lastFirst made x, dominates b.block block → dominates b.block (block ++ [n]) :=
    fun b _ hb => dominates_append hb n
  obtain ⟨hmem, hcover⟩ := upToCover_mono hdom
  rcases h x hx with ⟨b, hb, htaints⟩ | ⟨huncovered, hparam⟩
  · exact Or.inl ⟨b, hmem b hb, htaints⟩
  · exact Or.inr ⟨hcover huncovered, hparam⟩

/-- Bindings of blocks that are not around hide nothing. -/
theorem Followable.skip {more : List Binding} (h : Followable facts reg scope made block env)
    (hmore : ∀ b ∈ more, dominates b.block block = false) :
    Followable facts reg scope (made ++ more) block env := by
  intro x hx
  have hfront : ∀ b ∈ lastFirst more x, dominates b.block block = false :=
    fun b hb => hmore b (mem_lastFirst.mp hb).1
  rw [lastFirst_append, upToCover_append hfront]
  rcases h x hx with ⟨b, hb, htaints⟩ | huncovered
  · refine Or.inl ⟨b, List.mem_append_right _ hb, fun budget hbudget => htaints budget ?_⟩
    rw [List.length_append] at hbudget
    omega
  · exact Or.inr huncovered

theorem upToCover_lastFirst_self (b : Binding) (hblock : b.block = block) :
    upToCover block (lastFirst (made ++ [b]) b.name) = ([b], true) := by
  have hself : dominates b.block block := by
    rw [hblock]
    exact dominates_iff_isPrefix.mpr (List.prefix_refl block)
  rw [lastFirst_append]
  simp only [lastFirst, List.filter_cons, beq_self_eq_true, if_true, List.filter_nil,
    List.reverse_cons, List.reverse_nil, List.nil_append, List.cons_append]
  rw [upToCover, if_pos hself]

theorem lastFirst_of_ne {b : Binding} {x : String} (hx : b.name ≠ x) :
    lastFirst (made ++ [b]) x = lastFirst made x := by
  rw [lastFirst_append]
  simp [lastFirst, hx]

/-- An assignment hides what its name was before, and is followed itself if its value is
tainted. -/
theorem Followable.assign {b : Binding} {tainted : Bool}
    (h : Followable facts reg scope made block env) (hblock : b.block = block)
    (hvalue : tainted = true → ∀ budget, made.length ≤ budget →
      Carries facts.symbols reg (TaintsRead facts reg scope budget b.block) b.value) :
    Followable facts reg scope (made ++ [b]) block (Python.assigned env b.name tainted) := by
  have hother : ∀ x ∈ env, b.name ≠ x →
      (∃ c ∈ (upToCover block (lastFirst (made ++ [b]) x)).1,
        ∀ budget, (made ++ [b]).length ≤ budget → TaintsBinding facts reg scope budget c) ∨
      ((upToCover block (lastFirst (made ++ [b]) x)).2 = false ∧
        (routeParam facts scope x).isSome) := by
    intro x hx hne
    rw [lastFirst_of_ne hne]
    rcases h x hx with ⟨c, hc, htaints⟩ | huncovered
    · refine Or.inl ⟨c, hc, fun budget hbudget => htaints budget ?_⟩
      rw [List.length_append] at hbudget
      omega
    · exact Or.inr huncovered
  intro x hx
  unfold Python.assigned at hx
  by_cases hname : b.name = x
  · subst hname
    cases tainted with
    | false => simp at hx
    | true =>
      rw [upToCover_lastFirst_self b hblock]
      refine Or.inl ⟨b, by simp, fun budget hbudget => ?_⟩
      rw [List.length_append] at hbudget
      obtain ⟨less, rfl⟩ : ∃ less, budget = less + 1 := ⟨budget - 1, by simp at hbudget; omega⟩
      exact hvalue rfl less (by simp at hbudget; omega)
  · refine hother x ?_ hname
    cases tainted with
    | false =>
      rw [if_neg (by simp)] at hx
      exact (List.mem_filter.mp hx).1
    | true =>
      rw [if_pos rfl] at hx
      exact (List.mem_cons.mp hx).resolve_left fun he => hname he.symm

end

end XPathTaint
