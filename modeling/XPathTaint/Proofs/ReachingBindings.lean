import Mathlib.Data.List.Nodup
import Mathlib.Tactic.Common
import XPathTaint.Taint.Reaching

-- Which bindings are candidates for a read: only those of its name and scope that stand
-- before it, and none that a binding in between would hide.

namespace XPathTaint

section

variable {facts : FileFacts} {name : String} {scope : ScopeId} {block : BlockPath} {pos : Nat}

theorem mem_earlierBindings {b : Binding} : b ∈ earlierBindings facts name scope pos ↔
    b ∈ facts.bindings ∧ b.scope = scope ∧ b.pos ≤ pos ∧ b.name = name := by
  simp [earlierBindings, List.mem_mergeSort, and_assoc]

/-- What is found is the beginning of what is looked through. -/
theorem prefix_upToCover (block : BlockPath) (bs : List Binding) : (upToCover block bs).1 <+: bs := by
  induction bs with
  | nil => exact List.nil_prefix
  | cons b rest ih =>
    rw [upToCover]
    split
    · exact List.prefix_append [b] rest
    · exact (List.prefix_cons_inj b).mpr ih

theorem mem_of_mem_upToCover {b : Binding} {bs : List Binding} (h : b ∈ (upToCover block bs).1) :
    b ∈ bs :=
  (prefix_upToCover block bs).subset h

theorem mem_of_mem_reachingBindings {b : Binding}
    (h : b ∈ reachingBindings facts name scope block pos) : b ∈ facts.bindings :=
  (mem_earlierBindings.mp (mem_of_mem_upToCover h)).1

theorem scope_of_mem_reachingBindings {b : Binding}
    (h : b ∈ reachingBindings facts name scope block pos) : b.scope = scope :=
  (mem_earlierBindings.mp (mem_of_mem_upToCover h)).2.1

theorem name_of_mem_reachingBindings {b : Binding}
    (h : b ∈ reachingBindings facts name scope block pos) : b.name = name :=
  (mem_earlierBindings.mp (mem_of_mem_upToCover h)).2.2.2

theorem upToCover_uncovered {bs : List Binding} :
    (upToCover block bs).2 = false ↔ ∀ b ∈ bs, dominates b.block block = false := by
  induction bs with
  | nil => simp [upToCover]
  | cons b rest ih =>
    rw [upToCover]
    cases hb : dominates b.block block with
    | true => simp [hb]
    | false => simpa [hb] using ih

/-- A read is covered by the bindings of its name and scope before it whose blocks dominate its
own. -/
theorem uncovered_iff : (reachingWithCover facts name scope block pos).2 = false ↔
    ∀ b ∈ facts.bindings, b.scope = scope → b.name = name → b.pos ≤ pos →
      dominates b.block block = false := by
  unfold reachingWithCover
  rw [upToCover_uncovered]
  constructor
  · intro h b hb hs hn hp
    exact h b (mem_earlierBindings.mpr ⟨hb, hs, hp, hn⟩)
  · intro h b hb
    obtain ⟨hm, hs, hp, hn⟩ := mem_earlierBindings.mp hb
    exact h b hm hs hn hp

/-- Without a candidate no binding covers a read. -/
theorem uncovered_of_nil (h : reachingBindings facts name scope block pos = []) :
    (reachingWithCover facts name scope block pos).2 = false := by
  unfold reachingBindings reachingWithCover at h
  unfold reachingWithCover
  cases hb : earlierBindings facts name scope pos with
  | nil => rfl
  | cons b rest =>
    rw [hb, upToCover] at h
    split at h <;> simp at h

end

/-! ## Covers -/

section

variable {block outer inner : BlockPath} {bs : List Binding}

theorem upToCover_congr (h : ∀ b ∈ bs, dominates b.block outer = dominates b.block inner) :
    upToCover outer bs = upToCover inner bs := by
  induction bs with
  | nil => rfl
  | cons b rest ih =>
    rw [upToCover, upToCover, h b (by simp), ih fun c hc => h c (List.mem_cons_of_mem _ hc)]

/-- Bindings that do not dominate a block hide nothing from it. -/
theorem upToCover_append {front : List Binding} (h : ∀ b ∈ front, dominates b.block block = false) :
    upToCover block (front ++ bs) =
      (front ++ (upToCover block bs).1, (upToCover block bs).2) := by
  induction front with
  | nil => rfl
  | cons b rest ih =>
    have hb := h b (by simp)
    have hrest := ih fun c hc => h c (List.mem_cons_of_mem _ hc)
    rw [List.cons_append, upToCover, if_neg (by simp [hb]), hrest]
    rfl

/-- A block with fewer bindings that dominate it sees no less. -/
theorem upToCover_mono (h : ∀ b ∈ bs, dominates b.block outer → dominates b.block inner) :
    (∀ b ∈ (upToCover inner bs).1, b ∈ (upToCover outer bs).1) ∧
      ((upToCover inner bs).2 = false → (upToCover outer bs).2 = false) := by
  induction bs with
  | nil => exact ⟨fun _ hb => hb, id⟩
  | cons b rest ih =>
    obtain ⟨hmem, hcov⟩ := ih fun c hc => h c (List.mem_cons_of_mem _ hc)
    rw [upToCover, upToCover]
    by_cases hin : dominates b.block inner
    · rw [if_pos hin]
      refine ⟨?_, by simp⟩
      intro c hc
      obtain rfl := List.mem_singleton.mp hc
      split <;> simp
    · have hout : ¬ dominates b.block outer := fun hout => hin (h b (by simp) hout)
      rw [if_neg hin, if_neg hout]
      refine ⟨?_, hcov⟩
      intro c hc
      rcases List.mem_cons.mp hc with rfl | hc
      · simp
      · exact List.mem_cons_of_mem _ (hmem c hc)

theorem dominates_iff_isPrefix : dominates outer inner = true ↔ outer <+: inner :=
  List.isPrefixOf_iff_prefix

/-- A block inside another one is dominated by all that dominates the outer one. -/
theorem dominates_append (h : dominates block outer) (n : Nat) :
    dominates block (outer ++ [n]) := by
  rw [dominates_iff_isPrefix] at h ⊢
  exact h.trans (List.prefix_append _ _)

/-- Only a block of its own dominates a new block more than what surrounds it. -/
theorem dominates_concat {n : Nat} (h : block ≠ outer ++ [n]) :
    dominates block (outer ++ [n]) = dominates block outer := by
  rw [Bool.eq_iff_iff, dominates_iff_isPrefix, dominates_iff_isPrefix, List.prefix_concat_iff]
  simp [h]

end

/-! ## Bindings in order -/

/-- Each binding of a list stands before the one in front of it. -/
def IsFalling (bs : List Binding) : Prop := bs.Pairwise fun a b => b.pos < a.pos

theorem pairwise_mergeSort_pos (bs : List Binding) :
    (bs.mergeSort fun a b => decide (b.pos ≤ a.pos)).Pairwise
      fun a b => decide (b.pos ≤ a.pos) = true :=
  List.pairwise_mergeSort (by simp; omega) (by simp; omega) bs

/-- Bindings of different places fall when they are sorted. -/
theorem isFalling_mergeSort {bs : List Binding} (h : (bs.map (·.pos)).Nodup) :
    IsFalling (bs.mergeSort fun a b => decide (b.pos ≤ a.pos)) := by
  have hdistinct : (bs.mergeSort fun a b => decide (b.pos ≤ a.pos)).Pairwise
      fun a b => a.pos ≠ b.pos :=
    List.pairwise_map.mp (((List.mergeSort_perm bs _).map Binding.pos).nodup_iff.mpr h)
  refine ((pairwise_mergeSort_pos bs).and hdistinct).imp ?_
  rintro a b ⟨hle, hne⟩
  exact Nat.lt_of_le_of_ne (of_decide_eq_true hle) (Ne.symm hne)

/-- There is one falling order of the same bindings. -/
theorem IsFalling.eq_of_perm {bs cs : List Binding} (hbs : IsFalling bs) (hcs : IsFalling cs)
    (hperm : bs.Perm cs) : bs = cs := by
  refine hperm.eq_of_pairwise ?_ hbs hcs
  intro a b _ _ hab hba
  exact absurd hab (Nat.lt_asymm hba)

theorem mergeSort_eq_reverse {bs : List Binding} (h : bs.Pairwise (·.pos < ·.pos)) :
    bs.mergeSort (fun a b => decide (b.pos ≤ a.pos)) = bs.reverse := by
  have hdistinct : (bs.map (·.pos)).Nodup := List.pairwise_map.mpr (h.imp Nat.ne_of_lt)
  have hreverse : IsFalling bs.reverse := List.pairwise_reverse.mpr h
  exact (isFalling_mergeSort hdistinct).eq_of_perm hreverse
    ((List.mergeSort_perm bs _).trans (List.reverse_perm bs).symm)

/-- The bindings of a scope that stand before a place, in order, with no other one there. -/
structure Before (facts : FileFacts) (scope : ScopeId) (made : List Binding) (pos : Nat) :
    Prop where
  ordered : made.Pairwise (·.pos < ·.pos)
  behind : ∀ b ∈ made, b.pos ≤ pos
  all : ∃ later, facts.bindings.filter (·.scope == scope) = made ++ later ∧ ∀ b ∈ later, pos < b.pos

/-- The bindings of a name, the last one first. -/
def lastFirst (made : List Binding) (name : String) : List Binding :=
  (made.filter (·.name == name)).reverse

theorem Before.earlierBindings_eq {facts : FileFacts} {scope : ScopeId} {made : List Binding}
    {pos : Nat} (h : Before facts scope made pos) (name : String) :
    earlierBindings facts name scope pos = lastFirst made name := by
  obtain ⟨later, hall, hlater⟩ := h.all
  have hfilter : facts.bindings.filter
      (fun b => b.scope == scope && decide (b.pos ≤ pos) && b.name == name) =
        made.filter (·.name == name) := by
    have hmade : (made ++ later).filter (fun b => decide (b.pos ≤ pos)) = made := by
      rw [List.filter_append, List.filter_eq_self.mpr, List.filter_eq_nil_iff.mpr, List.append_nil]
      · intro b hb
        simpa using hlater b hb
      · intro b hb
        simpa using h.behind b hb
    rw [← hmade, ← hall, List.filter_filter, List.filter_filter]
    refine List.filter_congr fun b _ => ?_
    rw [Bool.and_comm, Bool.and_comm (b.scope == scope), Bool.and_assoc]
  unfold earlierBindings lastFirst
  rw [hfilter]
  exact mergeSort_eq_reverse (h.ordered.filter _)

end XPathTaint
