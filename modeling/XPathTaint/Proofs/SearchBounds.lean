import Mathlib.Data.Finset.Prod
import Mathlib.Order.Interval.Finset.Nat
import XPathTaint.Proofs.SearchRuns

-- How far a search can go. Its memory grants a binding an entry only with more budget than the
-- entries of that id before, and each binding that is being searched has taken one hop of the
-- budget. So no id is entered within itself, whatever cycles the bindings form.

namespace XPathTaint

/-- The ids of the bindings; bindings may share one. -/
def FileFacts.bindingIds (facts : FileFacts) : Finset Nat := (facts.bindings.map (·.id)).toFinset

theorem FileFacts.id_mem_bindingIds {facts : FileFacts} {b : Binding} (h : b ∈ facts.bindings) :
    b.id ∈ facts.bindingIds :=
  List.mem_toFinset.mpr (List.mem_map_of_mem h)

/-! ## Memories -/

namespace Explored

/-- Of entries with one id the later ones have more budget; the latest stands first. -/
def IsRising (seen : Explored) : Prop :=
  seen.Pairwise fun later earlier => later.1 = earlier.1 → earlier.2 < later.2

variable {seen : Explored} {id budget : Nat}

/-- What a rising memory does not cover has more budget than all entries of its id. -/
theorem IsRising.lt_of_not_covers (h : seen.IsRising) (hnew : seen.covers id budget = false) :
    ∀ e ∈ seen, e.1 = id → e.2 < budget := by
  induction seen with
  | nil => simp
  | cons first rest ih =>
    obtain ⟨hfirst, hrest⟩ := List.pairwise_cons.mp h
    by_cases hid : first.1 = id
    · have hlt : first.2 < budget := by simpa [covers, budget?, hid] using hnew
      intro e he heid
      rcases List.mem_cons.mp he with rfl | he
      · exact hlt
      · exact (hfirst e he (hid.trans heid.symm)).trans hlt
    · have hnew' : covers rest id budget = false := by simpa [covers, budget?, hid] using hnew
      intro e he heid
      rcases List.mem_cons.mp he with rfl | he
      · exact absurd heid hid
      · exact ih hrest hnew' e he heid

theorem IsRising.enter (h : seen.IsRising) (hnew : seen.covers id budget = false) :
    (seen.enter id budget).IsRising := by
  refine List.pairwise_cons.mpr ⟨fun e he hid => ?_, h⟩
  exact h.lt_of_not_covers hnew e he hid.symm

theorem IsRising.not_holds (h : seen.IsRising) (hnew : seen.covers id budget = false) :
    ¬ seen.Holds id budget := by
  rintro ⟨k, hk, hmem⟩
  have hlt := h.lt_of_not_covers hnew _ hmem rfl
  omega

/-- A rising memory has at most one entry for each id and budget. -/
theorem IsRising.length_le (h : seen.IsRising) {ids : Finset Nat} {most : Nat}
    (hseen : ∀ e ∈ seen, e.1 ∈ ids ∧ 1 ≤ e.2 ∧ e.2 ≤ most) : seen.length ≤ most * ids.card := by
  have hnodup : seen.Nodup := by
    refine h.imp ?_
    rintro later earlier hlt rfl
    exact Nat.lt_irrefl _ (hlt rfl)
  have hsub : seen.toFinset ⊆ ids ×ˢ Finset.Icc 1 most := by
    intro e he
    obtain ⟨hid, hpos, hmost⟩ := hseen e (List.mem_toFinset.mp he)
    exact Finset.mem_product.mpr ⟨hid, Finset.mem_Icc.mpr ⟨hpos, hmost⟩⟩
  calc seen.length = seen.toFinset.card := (List.toFinset_card_of_nodup hnodup).symm
    _ ≤ (ids ×ˢ Finset.Icc 1 most).card := Finset.card_le_card hsub
    _ = most * ids.card := by
      rw [Finset.card_product, Nat.card_Icc, Nat.add_sub_cancel, Nat.mul_comm]

end Explored

/-! ## Bindings within bindings -/

/-- The ids of bindings that are being searched, the innermost first: each belongs to a binding,
none stands twice, and the memory holds each with the budget that was left where it was entered. -/
inductive Nested (facts : FileFacts) (maxHops : Nat) (seen : Explored) : List Nat → Prop
  | nil : Nested facts maxHops seen []
  | cons {id : Nat} {around : List Nat} : id ∈ facts.bindingIds → id ∉ around →
      around.length < maxHops → seen.Holds id (maxHops - around.length) →
      Nested facts maxHops seen around → Nested facts maxHops seen (id :: around)

section

variable {facts : FileFacts} {maxHops id : Nat} {seen seen' : Explored} {around : List Nat}

theorem Nested.mono (hsub : ∀ e ∈ seen, e ∈ seen') (h : Nested facts maxHops seen around) :
    Nested facts maxHops seen' around := by
  induction h with
  | nil => exact .nil
  | cons hid hnew hlt hholds _ ih => exact .cons hid hnew hlt (hholds.mono hsub) ih

theorem Nested.nodup (h : Nested facts maxHops seen around) : around.Nodup := by
  induction h with
  | nil => exact List.nodup_nil
  | cons _ hnew _ _ _ ih => exact List.nodup_cons.mpr ⟨hnew, ih⟩

theorem Nested.mem_bindingIds (h : Nested facts maxHops seen around) :
    ∀ id ∈ around, id ∈ facts.bindingIds := by
  induction h with
  | nil => simp
  | cons hid _ _ _ _ ih => exact List.forall_mem_cons.mpr ⟨hid, ih⟩

theorem Nested.length_le_card (h : Nested facts maxHops seen around) :
    around.length ≤ facts.bindingIds.card := by
  rw [← List.toFinset_card_of_nodup h.nodup]
  exact Finset.card_le_card fun id hid => h.mem_bindingIds id (List.mem_toFinset.mp hid)

theorem Nested.length_le (h : Nested facts maxHops seen around) : around.length ≤ maxHops := by
  cases h with
  | nil => exact Nat.zero_le _
  | cons _ _ hlt _ _ => exact hlt

/-- Deeper in, less budget is left than each binding around was entered with. -/
theorem Nested.holds (h : Nested facts maxHops seen around) (hid : id ∈ around) :
    seen.Holds id (maxHops - around.length) := by
  induction h with
  | nil => simp at hid
  | cons _ _ _ hholds _ ih =>
    rw [List.length_cons]
    rcases List.mem_cons.mp hid with rfl | hid
    · exact hholds.anti (by omega)
    · exact (ih hid).anti (by omega)

/-- A binding that the memory does not cover is none of those around. -/
theorem Nested.enter (h : Nested facts maxHops seen around) (hrising : seen.IsRising)
    (hid : id ∈ facts.bindingIds) (hlt : around.length < maxHops)
    (hnew : seen.covers id (maxHops - around.length) = false) :
    Nested facts maxHops (seen.enter id (maxHops - around.length)) (id :: around) := by
  refine .cons hid (fun hmem => ?_) hlt ⟨_, Nat.le_refl _, List.mem_cons_self⟩
    (h.mono fun e he => List.mem_cons_of_mem _ he)
  exact hrising.not_holds hnew (h.holds hmem)

end

/-! ## Runs -/

/-- An entry within its bounds: its binding is none of those around, and their number is what the
budget has lost. -/
structure EnteredBinding.IsBounded (facts : FileFacts) (maxHops : Nat) (entry : EnteredBinding) :
    Prop where
  nodup : (entry.id :: entry.around).Nodup
  ids : ∀ id ∈ entry.id :: entry.around, id ∈ facts.bindingIds
  length_le_card : (entry.id :: entry.around).length ≤ facts.bindingIds.card
  length_le : (entry.id :: entry.around).length ≤ maxHops
  budget : entry.budget = maxHops - entry.around.length

/-- Bindings are only entered while there is budget. -/
def Task.HasRoom (facts : FileFacts) (maxHops : Nat) (around : List Nat) : Task → Prop
  | .enter _ bs => ∀ b ∈ bs, b ∈ facts.bindings ∧ around.length < maxHops
  | _ => True

section

variable {facts : FileFacts} {reg : Registry} {maxHops : Nat} {scope : ScopeId}
  {around : List Nat} {block : BlockPath} {task : Task} {s : Search} {found : Found}
  {run : List EnteredBinding}

theorem Part.hasRoom (p : Part) : p.task.HasRoom facts maxHops around := by
  cases p <;> trivial

theorem Task.hasRoom_reaching {name : String} {pos : Nat}
    (hlt : reachingBindings facts name scope block pos ≠ [] → around.length < maxHops) :
    (Task.enter name (reachingBindings facts name scope block pos)).HasRoom facts maxHops around :=
  fun _ hb => ⟨mem_of_mem_reachingBindings hb, hlt (List.ne_nil_of_mem hb)⟩

/-- The memory gains the entries of a run, and nothing else. -/
theorem Searches.explored_eq
    (h : Searches facts reg maxHops scope around block task s found run) :
    found.2.explored = (run.map EnteredBinding.key).reverse ++ s.explored := by
  induction h with
  | source | sanitized | noPart | spent | noBinding => rfl
  | through _ _ _ ih => exact ih
  | foundInPart _ ih => exact ih
  | nextPart _ _ ih₁ ih₂ =>
    dsimp only at ih₁
    rw [ih₂, ih₁, List.map_append, List.reverse_append, List.append_assoc]
  | bound _ _ ih => exact ih
  | unbound _ _ ih => exact ih
  | known _ _ ih => exact ih
  | tainted _ _ ih =>
    dsimp only at ih ⊢
    rw [ih]
    simp [Search.enter, Explored.enter, EnteredBinding.key]
  | untainted _ _ _ ih₁ ih₂ =>
    dsimp only at ih₁
    rw [ih₂, ih₁]
    simp [Search.enter, Explored.enter, EnteredBinding.key]

theorem Searches.mem_explored (h : Searches facts reg maxHops scope around block task s found run) :
    ∀ e ∈ s.explored, e ∈ found.2.explored := by
  intro e he
  rw [h.explored_eq]
  exact List.mem_append_right _ he

theorem Nested.isBounded {b : Binding} {seen : Explored}
    (h : Nested facts maxHops seen (b.id :: around)) :
    EnteredBinding.IsBounded facts maxHops ⟨b.id, maxHops - around.length, around⟩ :=
  ⟨h.nodup, h.mem_bindingIds, h.length_le_card, h.length_le, rfl⟩

/-- A run keeps its memory rising and all its entries within their bounds. -/
theorem Searches.isBounded (h : Searches facts reg maxHops scope around block task s found run)
    (hroom : task.HasRoom facts maxHops around) (hrising : s.explored.IsRising)
    (hnested : Nested facts maxHops s.explored around) :
    found.2.explored.IsRising ∧ ∀ entry ∈ run, entry.IsBounded facts maxHops := by
  induction h with
  | source | sanitized | noPart | spent | noBinding => exact ⟨hrising, by simp⟩
  | through _ _ _ ih => exact ih trivial hrising hnested
  | foundInPart _ ih => exact ih (Part.hasRoom _) hrising hnested
  | nextPart h₁ _ ih₁ ih₂ =>
    obtain ⟨hrising₁, hrun₁⟩ := ih₁ (Part.hasRoom _) hrising hnested
    obtain ⟨hrising₂, hrun₂⟩ := ih₂ trivial hrising₁ (hnested.mono h₁.mem_explored)
    exact ⟨hrising₂, List.forall_mem_append.mpr ⟨hrun₁, hrun₂⟩⟩
  | bound hlt _ ih => exact ih (Task.hasRoom_reaching hlt) hrising hnested
  | unbound hlt _ ih => exact ih (Task.hasRoom_reaching hlt) hrising hnested
  | known _ _ ih =>
    exact ih (fun b hb => hroom b (List.mem_cons_of_mem _ hb)) hrising hnested
  | @tainted around block name b bs s s' t run hnew h₁ ih =>
    obtain ⟨hb, hlt⟩ := hroom b List.mem_cons_self
    have hinner := hnested.enter hrising (FileFacts.id_mem_bindingIds hb) hlt hnew
    obtain ⟨hrising', hrun⟩ := ih trivial (hrising.enter hnew) hinner
    exact ⟨hrising', List.forall_mem_cons.mpr ⟨hinner.isBounded, hrun⟩⟩
  | @untainted around block name b bs s s₁ found run₁ run₂ hnew h₁ _ ih₁ ih₂ =>
    obtain ⟨hb, hlt⟩ := hroom b List.mem_cons_self
    have hinner := hnested.enter hrising (FileFacts.id_mem_bindingIds hb) hlt hnew
    obtain ⟨hrising₁, hrun₁⟩ := ih₁ trivial (hrising.enter hnew) hinner
    have hgrown : ∀ e ∈ s.explored, e ∈ s₁.explored :=
      fun e he => h₁.mem_explored e (List.mem_cons_of_mem _ he)
    obtain ⟨hrising₂, hrun₂⟩ := ih₂ (fun c hc => hroom c (List.mem_cons_of_mem _ hc)) hrising₁
      (hnested.mono hgrown)
    exact ⟨hrising₂, List.forall_mem_cons.mpr
      ⟨hinner.isBounded, List.forall_mem_append.mpr ⟨hrun₁, hrun₂⟩⟩⟩

theorem EnteredBinding.IsBounded.one_le_budget {entry : EnteredBinding}
    (h : entry.IsBounded facts maxHops) : 1 ≤ entry.budget := by
  have hlength := h.length_le
  rw [List.length_cons] at hlength
  rw [h.budget]
  omega

theorem EnteredBinding.IsBounded.budget_le {entry : EnteredBinding}
    (h : entry.IsBounded facts maxHops) : entry.budget ≤ maxHops := by
  rw [h.budget]
  omega

/-- In a rising memory each id was entered with more and more budget. -/
theorem pairwise_budgets (h : Explored.IsRising (run.map EnteredBinding.key).reverse) (id : Nat) :
    ((run.filter fun entry => entry.id == id).map (·.budget)).Pairwise (· < ·) := by
  rw [Explored.IsRising, List.pairwise_reverse, List.pairwise_map] at h
  rw [List.pairwise_map]
  refine (h.filter _).imp_of_mem fun {earlier later} hearlier hlater hlt => ?_
  have hid : earlier.id = id := by simpa using (List.mem_filter.mp hearlier).2
  have hid' : later.id = id := by simpa using (List.mem_filter.mp hlater).2
  exact hlt (hid'.trans hid.symm)

/-! ## Whole searches -/

/-- A run of the search for the taint of an expression, from an empty memory: what it finds and
logs, and the bindings that it enters. -/
def SearchRun (facts : FileFacts) (reg : Registry) (maxHops : Nat) (e : Expr) (scope : ScopeId)
    (block : BlockPath) (result : Option Taint × List Event) (run : List EnteredBinding) : Prop :=
  ∃ s, Searches facts reg maxHops scope [] block (.expr e) .start (result.1, s) run ∧
    s.events = result.2

/-- Every search ends, whatever cycles and shared ids the bindings have: there is just one run, and
it finds what is reported. While the value of a binding is searched no binding of its id is entered,
so at most as many bindings are searched within one another as there are ids, and at most as many as
there are hops. Each id is entered with more and more budget, between 1 and the number of hops, so
there are at most that many entries for each id. -/
theorem a_search_enters_no_id_within_itself (facts : FileFacts) (reg : Registry) (maxHops : Nat)
    (e : Expr) (scope : ScopeId) (block : BlockPath) :
    ∃ run : List EnteredBinding,
      (∀ result run', SearchRun facts reg maxHops e scope block result run' ↔
        result = taintOf facts reg maxHops e scope block ∧ run' = run) ∧
      (∀ entry ∈ run, (entry.id :: entry.around).Nodup ∧
        (∀ id ∈ entry.id :: entry.around, id ∈ facts.bindingIds) ∧
        (entry.id :: entry.around).length ≤ facts.bindingIds.card ∧
        (entry.id :: entry.around).length ≤ maxHops) ∧
      (∀ entry ∈ run, 1 ≤ entry.budget ∧ entry.budget ≤ maxHops) ∧
      (∀ id, ((run.filter fun entry => entry.id == id).map (·.budget)).Pairwise (· < ·)) ∧
      run.length ≤ maxHops * facts.bindingIds.card := by
  have hhops : ([] : List Nat).length + maxHops = maxHops := Nat.zero_add maxHops
  obtain ⟨run, hrun⟩ : ∃ run, Searches facts reg maxHops scope [] block (.expr e) .start
      (taintWithin facts reg maxHops scope maxHops block e .start) run :=
    hasRuns_taintWithin hhops e .start
  obtain ⟨hrising, hbounded⟩ := hrun.isBounded trivial List.Pairwise.nil .nil
  have hmemory : (taintWithin facts reg maxHops scope maxHops block e .start).2.explored =
      (run.map EnteredBinding.key).reverse := hrun.explored_eq.trans (List.append_nil _)
  rw [hmemory] at hrising
  refine ⟨run, fun result run' => ⟨?_, ?_⟩, fun entry hentry => ?_, fun entry hentry => ?_,
    pairwise_budgets hrising, ?_⟩
  · rintro ⟨s, h, hevents⟩
    obtain ⟨hfound, rfl⟩ := hrun.unique h
    refine ⟨?_, rfl⟩
    rw [taintOf, ← hfound]
    exact Prod.ext rfl hevents.symm
  · rintro ⟨rfl, rfl⟩
    exact ⟨_, hrun, rfl⟩
  · have h := hbounded entry hentry
    exact ⟨h.nodup, h.ids, h.length_le_card, h.length_le⟩
  · have h := hbounded entry hentry
    exact ⟨h.one_le_budget, h.budget_le⟩
  · have hkeys : ∀ e ∈ (run.map EnteredBinding.key).reverse,
        e.1 ∈ facts.bindingIds ∧ 1 ≤ e.2 ∧ e.2 ≤ maxHops := by
      intro e he
      obtain ⟨entry, hentry, rfl⟩ := List.mem_map.mp (List.mem_reverse.mp he)
      have h := hbounded entry hentry
      exact ⟨h.ids _ List.mem_cons_self, h.one_le_budget, h.budget_le⟩
    simpa using hrising.length_le hkeys

end

end XPathTaint
