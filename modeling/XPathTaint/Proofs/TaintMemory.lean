import Mathlib.Data.List.Permutation
import XPathTaint.Proofs.BudgetMemory
import XPathTaint.Proofs.FlowParts
import XPathTaint.Proofs.ReachingBindings

-- The search with its memory of budgets finds a flow exactly where the search without
-- memory does: a binding that is passed over was entered before with as much budget, and
-- that came to nothing, so entering it again would too.

namespace XPathTaint

/-! ## The search without memory -/

/-- How a name or path is read, given how the bindings that may reach it are entered. -/
def readThrough (facts : FileFacts) (maxHops : Nat) (scope : ScopeId) (block : BlockPath)
    (budget : Nat) (enterAll : String → List Binding → Search → Found) : ReadPath := fun name o s =>
  let (candidates, covered) := reachingWithCover facts name scope block o.pos
  if budget = 0 && !candidates.isEmpty then
    (none, s.log (.budgetExhausted name o.place.line maxHops))
  else
    (enterAll name candidates s).orElse fun s =>
      if covered then (none, s) else (routeParam facts scope name, s)

/-- Enters every binding in turn until one has a tainted value, whatever was entered before. -/
def enterEach (facts : FileFacts) (enter : Binding → Search → Found) (name : String) :
    List Binding → Search → Found
  | [], s => (none, s)
  | b :: rest, s =>
    match enter b s with
    | (some taint, s) =>
      (some { taint with trace := taint.trace ++ [bindingStep facts name b] }, s)
    | (none, s) => enterEach facts enter name rest s

/-- The taint of an expression in a scope and block where each read enters all its bindings
again, as far as the budget allows. -/
def taintWithinAnew (facts : FileFacts) (reg : Registry) (maxHops : Nat) (scope : ScopeId) :
    (budget : Nat) → BlockPath → Expr → Search → Found
  | 0, block =>
    exprTaint facts reg
      (readThrough facts maxHops scope block 0 (enterEach facts fun _ s => (none, s)))
  | budget + 1, block =>
    exprTaint facts reg (readThrough facts maxHops scope block (budget + 1)
      (enterEach facts fun b => taintWithinAnew facts reg maxHops scope budget b.block b.value))

/-- The taint of an expression by the search without memory. -/
def taintAnew (facts : FileFacts) (reg : Registry) (maxHops : Nat) (e : Expr) (scope : ScopeId)
    (block : BlockPath) : Option Taint :=
  (taintWithinAnew facts reg maxHops scope maxHops block e .start).1

/-! ## Tainted reads -/

/-- Whether a read in a scope and block is tainted with a budget of bindings left to enter. -/
def TaintsRead (facts : FileFacts) (reg : Registry) (scope : ScopeId) :
    (budget : Nat) → BlockPath → String → Nat → Prop
  | 0, block, name, pos =>
    reachingBindings facts name scope block pos = [] ∧ (routeParam facts scope name).isSome
  | budget + 1, block, name, pos =>
    (∃ b ∈ reachingBindings facts name scope block pos,
      Carries facts.symbols reg (TaintsRead facts reg scope budget b.block) b.value) ∨
    ((reachingWithCover facts name scope block pos).2 = false ∧
      (routeParam facts scope name).isSome)

section

variable {facts : FileFacts} {reg : Registry} {maxHops : Nat} {scope : ScopeId}
  {block : BlockPath} {budget : Nat} {name : String}

/-- A binding is tainted when its value is, with one hop spent. -/
def TaintsBinding (facts : FileFacts) (reg : Registry) (scope : ScopeId) :
    (budget : Nat) → Binding → Prop
  | 0, _ => False
  | budget + 1, b => Carries facts.symbols reg (TaintsRead facts reg scope budget b.block) b.value

theorem taintsRead_iff {pos : Nat} :
    TaintsRead facts reg scope budget block name pos ↔
      (budget = 0 → reachingBindings facts name scope block pos = []) ∧
      ((∃ b ∈ reachingBindings facts name scope block pos,
          TaintsBinding facts reg scope budget b) ∨
        ((reachingWithCover facts name scope block pos).2 = false ∧
          (routeParam facts scope name).isSome)) := by
  cases budget with
  | zero =>
    simp only [TaintsRead, TaintsBinding, and_false, exists_false, false_or, forall_const]
    constructor
    · rintro ⟨hn, hp⟩
      exact ⟨hn, uncovered_of_nil hn, hp⟩
    · rintro ⟨hn, _, hp⟩
      exact ⟨hn, hp⟩
  | succ budget => simp [TaintsRead, TaintsBinding]

/-! ## One read -/

variable {enterAll : String → List Binding → Search → Found} {o : Origin} {s s' : Search}

theorem readThrough_eq_some {t : Taint}
    (h : readThrough facts maxHops scope block budget enterAll name o s = (some t, s')) :
    (budget = 0 → reachingBindings facts name scope block o.pos = []) ∧
      (enterAll name (reachingBindings facts name scope block o.pos) s = (some t, s') ∨
        ((reachingWithCover facts name scope block o.pos).2 = false ∧
          routeParam facts scope name = some t)) := by
  unfold readThrough at h
  unfold reachingBindings
  rcases hr : reachingWithCover facts name scope block o.pos with ⟨candidates, covered⟩
  simp only [hr] at h
  split at h
  · cases h
  · rename_i hb
    refine ⟨fun h0 => by simpa [h0] using hb, ?_⟩
    rcases Found.orElse_eq_some h with h | h
    · exact Or.inl h
    · split at h
      · cases h
      · rename_i hc
        exact Or.inr ⟨by simpa using hc, (Prod.ext_iff.mp h).1⟩

theorem readThrough_isSome
    (h : (readThrough facts maxHops scope block budget enterAll name o s).1.isSome) :
    (budget = 0 → reachingBindings facts name scope block o.pos = []) ∧
      ((enterAll name (reachingBindings facts name scope block o.pos) s).1.isSome ∨
        ((reachingWithCover facts name scope block o.pos).2 = false ∧
          (routeParam facts scope name).isSome)) := by
  obtain ⟨t, ht⟩ := Option.isSome_iff_exists.mp h
  obtain ⟨hb, hfound⟩ := readThrough_eq_some (Prod.ext ht rfl)
  refine ⟨hb, hfound.imp (fun hfound => by rw [hfound]; rfl) fun ⟨hc, hp⟩ => ⟨hc, by rw [hp]; rfl⟩⟩

theorem readThrough_eq_none
    (h : readThrough facts maxHops scope block budget enterAll name o s = (none, s')) :
    (budget = 0 ∧ reachingBindings facts name scope block o.pos ≠ [] ∧ ∃ e, s' = s.log e) ∨
      ((budget = 0 → reachingBindings facts name scope block o.pos = []) ∧
        enterAll name (reachingBindings facts name scope block o.pos) s = (none, s') ∧
        ¬ ((reachingWithCover facts name scope block o.pos).2 = false ∧
          (routeParam facts scope name).isSome)) := by
  unfold readThrough at h
  unfold reachingBindings
  rcases hr : reachingWithCover facts name scope block o.pos with ⟨candidates, covered⟩
  simp only [hr] at h
  split at h
  · rename_i hb
    simp only [Prod.mk.injEq, true_and] at h
    simp only [Bool.and_eq_true, decide_eq_true_eq, Bool.not_eq_eq_eq_not, Bool.not_true,
      List.isEmpty_eq_false_iff] at hb
    exact Or.inl ⟨hb.1, hb.2, _, h.symm⟩
  · rename_i hb
    obtain ⟨h₁, h₂⟩ := Found.orElse_eq_none h
    refine Or.inr ⟨fun h0 => by simpa [h0] using hb, ?_⟩
    split at h₂
    · rename_i hc
      simp only [Prod.mk.injEq, true_and] at h₂
      exact ⟨by rw [h₁, h₂], by simp [hc]⟩
    · simp only [Prod.mk.injEq] at h₂
      exact ⟨by rw [h₁, h₂.2], by simp [h₂.1]⟩

/-- A search is sound when the bindings that it finds taint in are tainted. -/
theorem carries_of_readThrough
    (hall : ∀ {name bs s}, (enterAll name bs s).1.isSome →
      ∃ b ∈ bs, TaintsBinding facts reg scope budget b) {e : Expr}
    (h : (exprTaint facts reg (readThrough facts maxHops scope block budget enterAll) e s).1.isSome) :
    Carries facts.symbols reg (TaintsRead facts reg scope budget block) e := by
  have hread : ∀ name o s,
      (readThrough facts maxHops scope block budget enterAll name o s).1.isSome →
      TaintsRead facts reg scope budget block name o.pos := by
    intro name o s h
    obtain ⟨hb, h⟩ := readThrough_isSome h
    exact taintsRead_iff.mpr ⟨hb, h.imp hall id⟩
  exact carries_of_exprTaint hread h

/-! ## The search without memory is exact -/

theorem exists_of_enterEach {enter : Binding → Search → Found} {bs : List Binding}
    (h : (enterEach facts enter name bs s).1.isSome) : ∃ b ∈ bs, ∃ s, (enter b s).1.isSome := by
  induction bs generalizing s with
  | nil => simp [enterEach] at h
  | cons b rest ih =>
    rw [enterEach] at h
    split at h
    · rename_i taint s₁ hb
      exact ⟨b, by simp, s, by simp [hb]⟩
    · rename_i s₁ hb
      obtain ⟨b', hm, hs⟩ := ih h
      exact ⟨b', List.mem_cons_of_mem _ hm, hs⟩

theorem enterEach_eq_none {enter : Binding → Search → Found} {bs : List Binding}
    (h : enterEach facts enter name bs s = (none, s')) :
    ∀ b ∈ bs, ∃ s₁ s₂, enter b s₁ = (none, s₂) := by
  induction bs generalizing s with
  | nil => simp
  | cons b rest ih =>
    rw [enterEach] at h
    split at h
    · cases h
    · rename_i s₁ hb
      intro b' hb'
      rcases List.mem_cons.mp hb' with rfl | hb'
      · exact ⟨s, s₁, hb⟩
      · exact ih h b' hb'

/-- How the search without memory enters a binding. -/
def enterAnew (facts : FileFacts) (reg : Registry) (maxHops : Nat) (scope : ScopeId) :
    (budget : Nat) → Binding → Search → Found
  | 0, _ => fun s => (none, s)
  | budget + 1, b => taintWithinAnew facts reg maxHops scope budget b.block b.value

theorem taintWithinAnew_eq : taintWithinAnew facts reg maxHops scope budget block =
    exprTaint facts reg (readThrough facts maxHops scope block budget
      (enterEach facts (enterAnew facts reg maxHops scope budget))) := by
  cases budget <;> rfl

/-- Without memory no state matters, so a read in vain says only that it is not tainted. -/
theorem stateless (fails : String → Nat → Prop) :
    InVain (fun _ _ => True) (fun name pos _ => fails name pos) where
  refl _ := trivial
  trans _ _ := trivial
  log _ _ := trivial
  keeps _ h := h

theorem taintWithinAnew_isSome_of (henter : ∀ b s,
      (enterAnew facts reg maxHops scope budget b s).1.isSome ↔
        TaintsBinding facts reg scope budget b) (e : Expr) (s : Search) :
    (taintWithinAnew facts reg maxHops scope budget block e s).1.isSome ↔
      Carries facts.symbols reg (TaintsRead facts reg scope budget block) e := by
  rw [taintWithinAnew_eq]
  constructor
  · refine carries_of_readThrough fun h => ?_
    obtain ⟨b, hm, s₁, hs⟩ := exists_of_enterEach h
    exact ⟨b, hm, (henter b s₁).mp hs⟩
  · intro hc
    by_contra hn
    have hread : ∀ name o s s', readThrough facts maxHops scope block budget
        (enterEach facts (enterAnew facts reg maxHops scope budget)) name o s = (none, s') →
        True ∧ ¬ TaintsRead facts reg scope budget block name o.pos := by
      intro name o s s' h
      refine ⟨trivial, fun ht => ?_⟩
      obtain ⟨hb, ht⟩ := taintsRead_iff.mp ht
      rcases readThrough_eq_none h with ⟨h0, hne, _⟩ | ⟨_, hall, hp⟩
      · exact hne (hb h0)
      · obtain ⟨b, hm, ht⟩ := ht.resolve_right hp
        obtain ⟨s₁, s₂, hs⟩ := enterEach_eq_none hall b hm
        have := (henter b s₁).mpr ht
        simp [hs] at this
    have hnone := exprTaint_eq_none
      (stateless fun name pos => ¬ TaintsRead facts reg scope budget block name pos) hread
      (Prod.ext (Option.not_isSome_iff_eq_none.mp hn) rfl)
    exact hnone.2 (hc.mono fun _ _ h => not_not_intro h)

/-- The search without memory finds exactly the expressions into which tainted reads carry
taint. -/
theorem taintWithinAnew_isSome (e : Expr) (s : Search) :
    (taintWithinAnew facts reg maxHops scope budget block e s).1.isSome ↔
      Carries facts.symbols reg (TaintsRead facts reg scope budget block) e := by
  induction budget generalizing block e s with
  | zero => exact taintWithinAnew_isSome_of (by simp [enterAnew, TaintsBinding]) e s
  | succ budget ih =>
    have henter : ∀ b s, (enterAnew facts reg maxHops scope (budget + 1) b s).1.isSome ↔
        TaintsBinding facts reg scope (budget + 1) b := fun b s => ih b.value s
    exact taintWithinAnew_isSome_of henter e s

/-! ## What the memory says -/

/-- A read is in vain once all its bindings were entered with the budget left and no
parameter can be read. -/
def ReadInVain (facts : FileFacts) (scope : ScopeId) (block : BlockPath) (budget : Nat)
    (name : String) (pos : Nat) (s : Search) : Prop :=
  (budget = 0 ∧ reachingBindings facts name scope block pos ≠ []) ∨
    ((∀ b ∈ reachingBindings facts name scope block pos, s.explored.Holds b.id budget) ∧
      ¬ ((reachingWithCover facts name scope block pos).2 = false ∧
        (routeParam facts scope name).isSome))

/-- The value of a binding was searched in vain when its reads were, with the budget that was left
inside. -/
def ValueInVain (facts : FileFacts) (reg : Registry) (scope : ScopeId) (left : Nat) (b : Binding)
    (seen : Explored) : Prop :=
  CarriesNothing facts.symbols reg (ReadInVain facts scope b.block left) b.value ⟨seen, []⟩

/-- A search in vain forgets no entry, and leaves every entry that it adds spent. -/
def GrowsSpent (facts : FileFacts) (reg : Registry) (scope : ScopeId) (s s' : Search) : Prop :=
  s.explored.GrowsSpent facts (ValueInVain facts reg scope) s'.explored

theorem ReadInVain.mono {pos : Nat} (hsub : ∀ e ∈ s.explored, e ∈ s'.explored)
    (h : ReadInVain facts scope block budget name pos s) :
    ReadInVain facts scope block budget name pos s' := by
  rcases h with h | ⟨hall, hp⟩
  · exact Or.inl h
  · exact Or.inr ⟨fun b hb => (hall b hb).mono hsub, hp⟩

theorem keeps_valueInVain : Explored.Keeps (ValueInVain facts reg scope) := by
  intro left b seen seen' hsub h hc
  exact h (hc.mono fun _ _ hf h₁ => hf (h₁.mono hsub))

theorem growsSpent_inVain :
    InVain (GrowsSpent facts reg scope) (ReadInVain facts scope block budget) where
  refl _ := Explored.GrowsSpent.refl
  trans h₁ h₂ := Explored.GrowsSpent.trans keeps_valueInVain h₁ h₂
  log _ _ := Explored.GrowsSpent.refl
  keeps h := ReadInVain.mono h.1

/-- What entering a binding in vain says, whatever way it is entered. -/
def EntersInVain (facts : FileFacts) (reg : Registry) (scope : ScopeId) (budget : Nat)
    (enter : Binding → Search → Found) : Prop :=
  ∀ b s s', enter b s = (none, s') → GrowsSpent facts reg scope s s' ∧
    CarriesNothing facts.symbols reg (ReadInVain facts scope b.block (budget - 1)) b.value s'

theorem passedInVain_of_enterBindings {enter : Binding → Search → Found} {bs : List Binding}
    (h : enterBindings facts name budget enter bs s = (none, s')) :
    Explored.PassedInVain
      (fun b seen seen' => ∃ s s', s.explored = seen ∧ s'.explored = seen' ∧
        enter b s = (none, s')) budget bs s.explored s'.explored := by
  induction bs generalizing s with
  | nil =>
    simp only [enterBindings, Prod.mk.injEq, true_and] at h
    subst h
    exact .nil
  | cons b rest ih =>
    rw [enterBindings] at h
    split at h
    · exact .covered ‹_› (ih h)
    · split at h
      · cases h
      · rename_i s₁ he
        exact .entered ⟨_, s₁, rfl, rfl, he⟩ (ih h)

theorem enterBindings_eq_none {enter : Binding → Search → Found} {bs : List Binding}
    (hids : DistinctIds facts) (hb : 0 < budget) (hbs : ∀ b ∈ bs, b ∈ facts.bindings)
    (henter : EntersInVain facts reg scope budget enter)
    (h : enterBindings facts name budget enter bs s = (none, s')) :
    GrowsSpent facts reg scope s s' ∧ ∀ b ∈ bs, s'.explored.Holds b.id budget := by
  refine (passedInVain_of_enterBindings h).growsSpent hids keeps_valueInVain hb hbs ?_
  rintro b _ _ ⟨s₁, s₂, rfl, rfl, he⟩
  exact henter b s₁ s₂ he

/-! ## The search with memory is exact -/

/-- How the search with memory enters a binding. -/
def enterKnown (facts : FileFacts) (reg : Registry) (maxHops : Nat) (scope : ScopeId) :
    (budget : Nat) → Binding → Search → Found
  | 0, _ => fun s => (none, s)
  | budget + 1, b => taintWithin facts reg maxHops scope budget b.block b.value

theorem taintWithin_eq : taintWithin facts reg maxHops scope budget block =
    exprTaint facts reg (readThrough facts maxHops scope block budget fun name =>
      enterBindings facts name budget (enterKnown facts reg maxHops scope budget)) := by
  cases budget <;> rfl

/-- What is found through a binding gets the binding as its last step. -/
theorem enterBindings_eq_some {enter : Binding → Search → Found} {bs : List Binding} {t : Taint}
    (h : enterBindings facts name budget enter bs s = (some t, s')) :
    ∃ b ∈ bs, ∃ found s₁, enter b s₁ = (some found, s') ∧
      t = { found with trace := found.trace ++ [bindingStep facts name b] } := by
  induction bs generalizing s with
  | nil => simp [enterBindings] at h
  | cons b rest ih =>
    have hrest {s : Search} (h : enterBindings facts name budget enter rest s = (some t, s')) :
        ∃ b' ∈ b :: rest, ∃ found s₁, enter b' s₁ = (some found, s') ∧
          t = { found with trace := found.trace ++ [bindingStep facts name b'] } := by
      obtain ⟨b', hm, hfound⟩ := ih h
      exact ⟨b', List.mem_cons_of_mem _ hm, hfound⟩
    rw [enterBindings] at h
    split at h
    · exact hrest h
    · split at h
      · rename_i found s₁ hb
        cases h
        exact ⟨b, by simp, found, _, hb, rfl⟩
      · exact hrest h

theorem exists_of_enterBindings {enter : Binding → Search → Found} {bs : List Binding}
    (h : (enterBindings facts name budget enter bs s).1.isSome) :
    ∃ b ∈ bs, ∃ s, (enter b s).1.isSome := by
  obtain ⟨t, ht⟩ := Option.isSome_iff_exists.mp h
  obtain ⟨b, hb, found, s₁, hfound, _⟩ := enterBindings_eq_some (Prod.ext ht rfl)
  exact ⟨b, hb, s₁, by rw [hfound]; rfl⟩

/-- What the search finds is carried by tainted reads, whatever it remembers. -/
theorem carries_of_taintWithin {e : Expr}
    (h : (taintWithin facts reg maxHops scope budget block e s).1.isSome) :
    Carries facts.symbols reg (TaintsRead facts reg scope budget block) e := by
  induction budget generalizing block e s with
  | zero =>
    rw [taintWithin_eq] at h
    refine carries_of_readThrough (fun h => ?_) h
    obtain ⟨b, hm, s₁, hs⟩ := exists_of_enterBindings h
    simp [enterKnown] at hs
  | succ budget ih =>
    rw [taintWithin_eq] at h
    refine carries_of_readThrough (fun h => ?_) h
    obtain ⟨b, hm, s₁, hs⟩ := exists_of_enterBindings h
    exact ⟨b, hm, ih hs⟩

theorem readThrough_inVain (hids : DistinctIds facts)
    (henter : 0 < budget →
      EntersInVain facts reg scope budget (enterKnown facts reg maxHops scope budget))
    (h : readThrough facts maxHops scope block budget (fun name =>
      enterBindings facts name budget (enterKnown facts reg maxHops scope budget)) name o s =
        (none, s')) :
    GrowsSpent facts reg scope s s' ∧ ReadInVain facts scope block budget name o.pos s' := by
  rcases readThrough_eq_none h with ⟨h0, hne, e, rfl⟩ | ⟨h0, hall, hp⟩
  · exact ⟨Explored.GrowsSpent.refl, Or.inl ⟨h0, hne⟩⟩
  · rcases Nat.eq_zero_or_pos budget with hb | hb
    · simp only [h0 hb, enterBindings, Prod.mk.injEq, true_and] at hall
      subst hall
      exact ⟨Explored.GrowsSpent.refl, Or.inr ⟨by simp [h0 hb], hp⟩⟩
    · obtain ⟨hg, hall⟩ := enterBindings_eq_none hids hb
        (fun b hb => mem_of_mem_reachingBindings hb) (henter hb) hall
      exact ⟨hg, Or.inr ⟨hall, hp⟩⟩

theorem taintWithin_eq_none (hids : DistinctIds facts) {e : Expr}
    (h : taintWithin facts reg maxHops scope budget block e s = (none, s')) :
    GrowsSpent facts reg scope s s' ∧
      CarriesNothing facts.symbols reg (ReadInVain facts scope block budget) e s' := by
  induction budget generalizing block e s s' with
  | zero =>
    rw [taintWithin_eq] at h
    refine exprTaint_eq_none growsSpent_inVain (fun name o s s' h => ?_) h
    exact readThrough_inVain hids (by simp) h
  | succ budget ih =>
    rw [taintWithin_eq] at h
    refine exprTaint_eq_none growsSpent_inVain (fun name o s s' h => ?_) h
    exact readThrough_inVain hids (fun _ b s s' h => ih h) h

/-! ## What a search in vain proves -/

theorem ReadInVain.anti {pos less : Nat} (hle : less ≤ budget)
    (h : ReadInVain facts scope block budget name pos s) :
    ReadInVain facts scope block less name pos s := by
  rcases h with ⟨h0, hne⟩ | ⟨hall, hp⟩
  · exact Or.inl ⟨by omega, hne⟩
  · exact Or.inr ⟨fun b hb => (hall b hb).anti hle, hp⟩

/-- Once all entries of the memory are spent, a read in vain is not tainted. The induction is
on the budget: an entry with more budget than is asked for says more than is asked. -/
theorem not_taintsRead_of_inVain
    (hspent : ∀ e ∈ s.explored, s.explored.Spent facts (ValueInVain facts reg scope) e.1 e.2)
    {pos : Nat} (h : ReadInVain facts scope block budget name pos s) :
    ¬ TaintsRead facts reg scope budget block name pos := by
  induction budget generalizing block name pos with
  | zero =>
    rintro ⟨hnil, hp⟩
    rcases h with ⟨_, hne⟩ | ⟨_, hn⟩
    · exact hne hnil
    · exact hn ⟨uncovered_of_nil hnil, hp⟩
  | succ budget ih =>
    rcases h with ⟨h0, _⟩ | ⟨hall, hn⟩
    · cases h0
    · rintro (⟨b, hb, hc⟩ | hp)
      · obtain ⟨k, hk, hm⟩ := hall b hb
        refine (hspent _ hm).2 b (mem_of_mem_reachingBindings hb) rfl (hc.mono ?_)
        intro n p ht hv
        exact ih (hv.anti (by simp only; omega)) ht
      · exact hn hp

/-- With ids of their own for all bindings, the search finds a flow exactly where tainted
reads carry taint into the expression. -/
theorem taintOf_isSome_iff (hids : DistinctIds facts) (e : Expr) :
    (taintOf facts reg maxHops e scope block).1.isSome ↔
      Carries facts.symbols reg (TaintsRead facts reg scope maxHops block) e := by
  unfold taintOf
  rcases ht : taintWithin facts reg maxHops scope maxHops block e .start with ⟨_ | taint, s⟩
  · obtain ⟨hg, hn⟩ := taintWithin_eq_none hids ht
    simp only [Option.isSome_none, Bool.false_eq_true, false_iff]
    exact fun hc => hn (hc.mono fun n p ht hv => not_taintsRead_of_inVain hg.all_spent hv ht)
  · simp only [Option.isSome_some, true_iff]
    exact carries_of_taintWithin (s := .start) (by rw [ht]; rfl)

theorem taintAnew_isSome_iff (e : Expr) :
    (taintAnew facts reg maxHops e scope block).isSome ↔
      Carries facts.symbols reg (TaintsRead facts reg scope maxHops block) e :=
  taintWithinAnew_isSome e .start

/-- The memory of budgets, which all operands, arguments, receivers and bindings share, hides
no flow: a flow is found exactly where the search without memory finds one. So an operand or
argument counts as it would alone, in whatever order they are searched. -/
theorem a_remembered_budget_hides_no_flow (facts : FileFacts) (hids : DistinctIds facts)
    (reg : Registry) (maxHops : Nat) (scope : ScopeId) (block : BlockPath) :
    (∀ e, (taintOf facts reg maxHops e scope block).1.isSome =
        (taintAnew facts reg maxHops e scope block).isSome) ∧
      (∀ operands o, (taintOf facts reg maxHops (.compound operands o) scope block).1.isSome ↔
        ∃ e ∈ operands, (taintOf facts reg maxHops e scope block).1.isSome) ∧
      ∀ func callee args o, sourceOf facts.symbols reg (.call func callee args o) = none →
        callee.filter reg.isSanitizer = none →
        ((taintOf facts reg maxHops (.call func callee args o) scope block).1.isSome ↔
          (∃ object, func.receiver? = some object ∧
            (taintOf facts reg maxHops object scope block).1.isSome) ∨
          ∃ a ∈ args, (taintOf facts reg maxHops a.value scope block).1.isSome) := by
  refine ⟨fun e => ?_, fun operands o => ?_, fun func callee args o hs hf => ?_⟩
  · rw [Bool.eq_iff_iff, taintOf_isSome_iff hids, taintAnew_isSome_iff]
  · simp only [taintOf_isSome_iff hids, carries_compound]
  · simp only [taintOf_isSome_iff hids, carries_call, hs, hf, Option.isSome_none,
      Bool.false_eq_true, false_or, true_and]

end

/-- A name that is read at byte 9. -/
def readOf (name : String) : Expr := .name name ⟨name, 9, default⟩

/-- Two bindings that read one another, of which the second also reads a request. -/
def mutualFacts : FileFacts :=
  { FileFacts.empty "app.py" "python" with
    bindings :=
      [{ id := 1, name := "a", value := readOf "b", scope := moduleScope, block := [], pos := 2,
         place := default },
       { id := 2, name := "b", scope := moduleScope, block := [], pos := 4, place := default,
         value := .compound
           [readOf "a", .member (readOf "request") "args" ⟨"request.args", 9, default⟩]
           ⟨"a + request.args", 9, default⟩ }] }

theorem a_remembered_budget_hides_no_flow_of_mutual_bindings :
    DistinctIds mutualFacts ∧
      (taintOf mutualFacts .builtin 3 (readOf "a") moduleScope []).1.isSome = true ∧
      (taintAnew mutualFacts .builtin 3 (readOf "a") moduleScope []).isSome = true := by
  have hids : DistinctIds mutualFacts := by decide
  have h := (a_remembered_budget_hides_no_flow mutualFacts hids .builtin 3 moduleScope []).1
  have hfound : (taintOf mutualFacts .builtin 3 (readOf "a") moduleScope []).1.isSome = true := by
    cbv
  exact ⟨hids, hfound, by rw [← h (readOf "a"), hfound]⟩

end XPathTaint
