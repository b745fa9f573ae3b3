import Mathlib.Data.List.Nodup
import Mathlib.Tactic.Common
import XPathTaint.Taint.Reaching

-- The memory of budgets that one search shares among all that it looks at. A search in vain adds
-- only entries that are spent: their binding was entered with that budget and came to nothing.

namespace XPathTaint

/-- The bindings have ids of their own. -/
def DistinctIds (facts : FileFacts) : Prop := (facts.bindings.map (·.id)).Nodup

instance (facts : FileFacts) : Decidable (DistinctIds facts) :=
  inferInstanceAs (Decidable (List.Nodup _))

theorem DistinctIds.eq {facts : FileFacts} (h : DistinctIds facts) {b c : Binding}
    (hb : b ∈ facts.bindings) (hc : c ∈ facts.bindings) (hid : b.id = c.id) : b = c :=
  List.inj_on_of_nodup_map h hb hc hid

namespace Explored

/-! ## Entries -/

/-- A binding of the id was entered with at least this budget. -/
def Holds (seen : Explored) (id budget : Nat) : Prop := ∃ k, budget ≤ k ∧ (id, k) ∈ seen

/-- An entry is spent when entering its binding was in vain with what was left of the budget then.
`vain left b seen` says so of a binding, in terms of the memory. -/
def Spent (facts : FileFacts) (vain : Nat → Binding → Explored → Prop) (seen : Explored)
    (id budget : Nat) : Prop :=
  0 < budget ∧ ∀ b ∈ facts.bindings, b.id = id → vain (budget - 1) b seen

/-- A search in vain forgets no entry, and leaves every entry that it adds spent. -/
def GrowsSpent (facts : FileFacts) (vain : Nat → Binding → Explored → Prop)
    (seen seen' : Explored) : Prop :=
  (∀ e ∈ seen, e ∈ seen') ∧ ∀ e ∈ seen', e ∈ seen ∨ Spent facts vain seen' e.1 e.2

/-- What is in vain stays so while the memory grows. -/
def Keeps (vain : Nat → Binding → Explored → Prop) : Prop :=
  ∀ left b seen seen', (∀ e ∈ seen, e ∈ seen') → vain left b seen → vain left b seen'

section

variable {facts : FileFacts} {vain : Nat → Binding → Explored → Prop}
  {seen seen' seen₁ seen₂ seen₃ : Explored} {id budget : Nat} {b : Binding}

theorem Holds.mono (hsub : ∀ e ∈ seen, e ∈ seen') (h : seen.Holds id budget) :
    seen'.Holds id budget := by
  obtain ⟨k, hk, hm⟩ := h
  exact ⟨k, hk, hsub _ hm⟩

theorem Holds.anti {less : Nat} (hle : less ≤ budget) (h : seen.Holds id budget) :
    seen.Holds id less := by
  obtain ⟨k, hk, hm⟩ := h
  exact ⟨k, Nat.le_trans hle hk, hm⟩

theorem holds_of_covers (h : seen.covers id budget) : seen.Holds id budget := by
  unfold covers budget? at h
  cases hf : seen.find? fun e => e.1 == id with
  | none => simp [hf] at h
  | some e =>
    have hid : e.1 = id := by simpa using List.find?_some hf
    subst hid
    exact ⟨e.2, by simpa [hf] using h, List.mem_of_find?_eq_some hf⟩

theorem Spent.mono (hkeeps : Keeps vain) (hsub : ∀ e ∈ seen, e ∈ seen')
    (h : Spent facts vain seen id budget) : Spent facts vain seen' id budget :=
  ⟨h.1, fun b hb hid => hkeeps _ _ _ _ hsub (h.2 b hb hid)⟩

theorem GrowsSpent.refl : GrowsSpent facts vain seen seen :=
  ⟨fun _ h => h, fun _ h => Or.inl h⟩

theorem GrowsSpent.trans (hkeeps : Keeps vain) (h₁ : GrowsSpent facts vain seen₁ seen₂)
    (h₂ : GrowsSpent facts vain seen₂ seen₃) : GrowsSpent facts vain seen₁ seen₃ := by
  refine ⟨fun e he => h₂.1 e (h₁.1 e he), fun e he => ?_⟩
  rcases h₂.2 e he with he | he
  · exact (h₁.2 e he).imp id (Spent.mono hkeeps h₂.1)
  · exact Or.inr he

/-- A binding that is entered and left in vain has made its own entry spent. -/
theorem GrowsSpent.of_enter (hids : DistinctIds facts) (hb : b ∈ facts.bindings)
    (hbudget : 0 < budget) (h : GrowsSpent facts vain (seen.enter b.id budget) seen')
    (hvain : vain (budget - 1) b seen') : GrowsSpent facts vain seen seen' := by
  refine ⟨fun e he => h.1 e (List.mem_cons_of_mem _ he), fun e he => ?_⟩
  rcases h.2 e he with he | he
  · rcases List.mem_cons.mp he with rfl | he
    · refine Or.inr ⟨hbudget, fun c hc hid => ?_⟩
      rw [hids.eq hc hb hid]
      exact hvain
    · exact Or.inl he
  · exact Or.inr he

/-- A search that starts without memory leaves only spent entries. -/
theorem GrowsSpent.all_spent (h : GrowsSpent facts vain [] seen) :
    ∀ e ∈ seen, Spent facts vain seen e.1 e.2 := by
  intro e he
  exact (h.2 e he).resolve_left (by simp)

end

/-! ## Passes over bindings -/

/-- A pass over bindings that comes to nothing: each of them was entered with as much budget
before, or is entered now in vain. -/
inductive PassedInVain (enters : Binding → Explored → Explored → Prop) (budget : Nat) :
    List Binding → Explored → Explored → Prop
  | nil {seen : Explored} : PassedInVain enters budget [] seen seen
  | covered {b : Binding} {rest : List Binding} {seen seen' : Explored} :
      seen.covers b.id budget → PassedInVain enters budget rest seen seen' →
      PassedInVain enters budget (b :: rest) seen seen'
  | entered {b : Binding} {rest : List Binding} {seen seen₁ seen' : Explored} :
      enters b (seen.enter b.id budget) seen₁ → PassedInVain enters budget rest seen₁ seen' →
      PassedInVain enters budget (b :: rest) seen seen'

/-- Behind such a pass the memory holds every binding of it, and its new entries are spent. -/
theorem PassedInVain.growsSpent {facts : FileFacts} {vain : Nat → Binding → Explored → Prop}
    {enters : Binding → Explored → Explored → Prop} {budget : Nat} {bs : List Binding}
    {seen seen' : Explored} (hids : DistinctIds facts) (hkeeps : Keeps vain)
    (hbudget : 0 < budget) (hbs : ∀ b ∈ bs, b ∈ facts.bindings)
    (henters : ∀ b seen seen', enters b seen seen' →
      GrowsSpent facts vain seen seen' ∧ vain (budget - 1) b seen')
    (h : PassedInVain enters budget bs seen seen') :
    GrowsSpent facts vain seen seen' ∧ ∀ b ∈ bs, seen'.Holds b.id budget := by
  induction h with
  | nil => exact ⟨.refl, by simp⟩
  | covered hcovers _ ih =>
    obtain ⟨hgrows, hall⟩ := ih fun c hc => hbs c (List.mem_cons_of_mem _ hc)
    refine ⟨hgrows, fun c hc => ?_⟩
    rcases List.mem_cons.mp hc with rfl | hc
    · exact (holds_of_covers hcovers).mono hgrows.1
    · exact hall c hc
  | entered hentered _ ih =>
    obtain ⟨hgrows, hall⟩ := ih fun c hc => hbs c (List.mem_cons_of_mem _ hc)
    obtain ⟨hgrowsFirst, hvain⟩ := henters _ _ _ hentered
    refine ⟨(hgrowsFirst.of_enter hids (hbs _ (by simp)) hbudget hvain).trans hkeeps hgrows,
      fun c hc => ?_⟩
    rcases List.mem_cons.mp hc with rfl | hc
    · exact ⟨budget, Nat.le_refl _, hgrows.1 _ (hgrowsFirst.1 _ (by simp [enter]))⟩
    · exact hall c hc

end Explored

end XPathTaint
