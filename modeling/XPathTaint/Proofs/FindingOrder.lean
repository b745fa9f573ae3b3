import XPathTaint.Finding.Analysis

-- The laws of the order of findings: files by their components, then lines, then columns.
-- It is total, and it ties exactly where two findings have the same place.

namespace XPathTaint

open Std

/-- Sorting by an order sorts. -/
theorem pairwise_isLE_mergeSort {α : Type} {cmp : α → α → Ordering} [TransCmp cmp] (xs : List α) :
    (xs.mergeSort fun a b => (cmp a b).isLE).Pairwise fun a b => (cmp a b).isLE = true := by
  have htrans : ∀ a b c, (cmp a b).isLE = true → (cmp b c).isLE = true → (cmp a c).isLE = true :=
    fun _ _ _ => TransCmp.isLE_trans
  have htotal : ∀ a b, ((cmp a b).isLE || (cmp b a).isLE) = true := by
    intro a b
    have hswap : cmp b a = (cmp a b).swap := OrientedCmp.eq_swap
    rw [hswap]
    cases cmp a b <;> rfl
  exact List.pairwise_mergeSort htrans htotal xs

/-- Lists in the same strict order with the same items are the same. -/
theorem eq_of_pairwise_asymm {α : Type} {R : α → α → Prop} {xs ys : List α}
    (hasymm : ∀ a b, R a b → ¬ R b a) (hx : xs.Pairwise R) (hy : ys.Pairwise R)
    (hmem : ∀ a, a ∈ xs ↔ a ∈ ys) : xs = ys := by
  have hne : ∀ {a b : α}, R a b → a ≠ b := by
    rintro a _ hab rfl
    exact hasymm a a hab hab
  have hperm : xs.Perm ys := (List.perm_ext_iff_of_nodup (hx.imp hne) (hy.imp hne)).mpr hmem
  exact hperm.eq_of_pairwise (fun a b _ _ hab hba => absurd hba (hasymm a b hab)) hx hy

/-! ## Paths -/

namespace Path

/-- The text of a component that is a name. -/
def Component.text : Component → String
  | .root => ""
  | .here => ""
  | .parent => ""
  | .name s => s

/-- Components are told apart by rank and text. -/
theorem Component.eq_of_rank_text {a b : Component} (hrank : a.rank = b.rank)
    (htext : a.text = b.text) : a = b := by
  cases a <;> cases b <;> simp_all [Component.rank, Component.text]

theorem Component.compare_eq_lex :
    Component.compare = compareLex (compareOn Component.rank) (compareOn Component.text) := by
  funext a b
  cases a <;> cases b <;>
    simp [Component.compare, compareLex, compareOn, Component.rank, Component.text,
      Nat.compare_eq_ite_lt]

instance : TransCmp Component.compare := by
  rw [Component.compare_eq_lex]
  infer_instance

instance : LawfulEqCmp Component.compare where
  compare_self := by simp [Component.compare_eq_lex, compareLex, compareOn]
  eq_of_compare {a b} h := by
    rw [Component.compare_eq_lex, compareLex_eq_eq] at h
    exact Component.eq_of_rank_text (LawfulEqOrd.eq_of_compare h.1) (LawfulEqOrd.eq_of_compare h.2)

theorem compareComponents_eq_lex (as bs : List Component) :
    compareComponents as bs = List.compareLex Component.compare as bs := by
  induction as generalizing bs with
  | nil => cases bs <;> rfl
  | cons a as ih =>
    cases bs with
    | nil => rfl
    | cons b bs => rw [compareComponents, ih, List.compareLex_cons_cons]

instance : TransCmp Path.compare where
  eq_swap {a b} := by
    unfold Path.compare
    rw [compareComponents_eq_lex, compareComponents_eq_lex]
    exact OrientedCmp.eq_swap
  isLE_trans {a b c} := by
    unfold Path.compare
    rw [compareComponents_eq_lex, compareComponents_eq_lex, compareComponents_eq_lex]
    exact TransCmp.isLE_trans

/-- Paths tie if they have the same components. -/
theorem compare_eq_iff {a b : String} : Path.compare a b = .eq ↔ same a b = true := by
  unfold Path.compare same
  rw [compareComponents_eq_lex, LawfulEqCmp.compare_eq_iff_eq, beq_iff_eq]

theorem same_self (a : String) : same a a = true := by
  unfold same
  exact beq_self_eq_true _

end Path

/-! ## Findings -/

namespace Finding

theorem compare_eq_lex :
    Finding.compare = compareLex (fun a b => Path.compare a.file b.file)
      (compareLex (compareOn Finding.line) (compareOn Finding.column)) := rfl

instance : TransCmp Finding.compare := by
  have hfile : TransCmp fun a b : Finding => Path.compare a.file b.file :=
    { eq_swap := OrientedCmp.eq_swap, isLE_trans := TransCmp.isLE_trans }
  rw [compare_eq_lex]
  infer_instance

/-- Findings tie if they have the same place. -/
theorem compare_eq_iff {f g : Finding} : f.compare g = .eq ↔
    Path.same f.file g.file = true ∧ f.line = g.line ∧ f.column = g.column := by
  unfold Finding.compare
  rw [Ordering.then_eq_eq, Ordering.then_eq_eq, Path.compare_eq_iff, LawfulEqCmp.compare_eq_iff_eq,
    LawfulEqCmp.compare_eq_iff_eq]

/-! ## Sorting -/

/-- Sorted findings of which no two tie stand in strict order. -/
theorem pairwise_lt_mergeSort {fs : List Finding} (h : fs.Pairwise fun f g => f.compare g ≠ .eq) :
    (fs.mergeSort fun f g => (f.compare g).isLE).Pairwise fun f g => f.compare g = .lt := by
  have hle : (fs.mergeSort fun f g => (f.compare g).isLE).Pairwise
      fun f g => (f.compare g).isLE = true := pairwise_isLE_mergeSort fs
  have hsymm : ∀ {f g : Finding}, f.compare g ≠ .eq → g.compare f ≠ .eq := by
    intro f g hne heq
    exact hne (OrientedCmp.eq_comm.mp heq)
  have hne := (List.mergeSort_perm fs fun f g => (f.compare g).isLE).pairwise_iff hsymm |>.mpr h
  refine (hle.and hne).imp fun ⟨hisLE, hne⟩ => ?_
  exact (Ordering.isLE_iff_eq_lt_or_eq_eq.mp hisLE).resolve_right hne

end Finding

end XPathTaint
