import Mathlib.Tactic.Common
import XPathTaint.Proofs.TaintMemory

-- The search for taint as a run, step by step and without a bound on how deep it goes: it looks at
-- expressions, at their parts in turn, and at the values of bindings, and comes back to a binding
-- whenever its memory lets it. Every search has just one run, and that ends as the budgeted search
-- says.

namespace XPathTaint

/-! ## Tasks -/

/-- A part through which an expression is searched. -/
inductive Part where
  | read (name : String) (o : Origin)
  | value (e : Expr)

/-- The parts of an expression that is no source, in the order of the search. -/
def Expr.parts : Expr → List Part
  | .name id o => [.read id o]
  | .literal _ _ => []
  | .unknown _ => []
  | .member object attr o =>
    (Expr.member object attr o).dotted.toList.map (Part.read · o) ++ [.value object]
  | .subscript value _ _ => [.value value]
  | .call func _ args _ =>
    func.receiver?.toList.map Part.value ++ (args.map (·.value)).map Part.value
  | .compound operands _ => operands.map Part.value

/-- The sanitizer that an expression calls. -/
def Expr.sanitizer? (reg : Registry) : Expr → Option String
  | .call _ callee _ _ => callee.filter reg.isSanitizer
  | _ => none

/-- What a search looks at: an expression, parts in turn, one part, or bindings that a read of a
name may enter, in turn. -/
inductive Task where
  | expr (e : Expr)
  | parts (ps : List Part)
  | read (name : String) (o : Origin)
  | enter (name : String) (bs : List Binding)

def Part.task : Part → Task
  | .read name o => .read name o
  | .value e => .expr e

/-! ## Runs -/

/-- A binding that a search enters: its id, the budget left, and the ids of the bindings whose
values are being searched around it, the innermost first. -/
structure EnteredBinding where
  id : Nat
  budget : Nat
  around : List Nat
  deriving Repr, DecidableEq

/-- The entry in the memory of the search. -/
def EnteredBinding.key (entry : EnteredBinding) : Nat × Nat := (entry.id, entry.budget)

def Search.enter (s : Search) (id budget : Nat) : Search :=
  { s with explored := s.explored.enter id budget }

/-- The runs of a search: what it looks at in a block, with the ids of the bindings whose values are
being searched around it, its state before, what it finds, and the bindings that it enters. -/
inductive Searches (facts : FileFacts) (reg : Registry) (maxHops : Nat) (scope : ScopeId) :
    List Nat → BlockPath → Task → Search → Found → List EnteredBinding → Prop
  | source {around : List Nat} {block : BlockPath} {e : Expr} {s : Search} {kind : SourceKind} :
      sourceOf facts.symbols reg e = some kind →
      Searches facts reg maxHops scope around block (.expr e) s
        (some ⟨kind, [.at e.text e.place]⟩, s) []
  | sanitized {around : List Nat} {block : BlockPath} {e : Expr} {s : Search} {sanitizer : String} :
      sourceOf facts.symbols reg e = none → e.sanitizer? reg = some sanitizer →
      Searches facts reg maxHops scope around block (.expr e) s
        (none, s.log (.sanitized e.place.line sanitizer)) []
  | through {around : List Nat} {block : BlockPath} {e : Expr} {s : Search} {found : Found}
      {run : List EnteredBinding} : sourceOf facts.symbols reg e = none → e.sanitizer? reg = none →
      Searches facts reg maxHops scope around block (.parts e.parts) s found run →
      Searches facts reg maxHops scope around block (.expr e) s found run
  | noPart {around : List Nat} {block : BlockPath} {s : Search} :
      Searches facts reg maxHops scope around block (.parts []) s (none, s) []
  | foundInPart {around : List Nat} {block : BlockPath} {p : Part} {ps : List Part} {s s' : Search}
      {t : Taint} {run : List EnteredBinding} :
      Searches facts reg maxHops scope around block p.task s (some t, s') run →
      Searches facts reg maxHops scope around block (.parts (p :: ps)) s (some t, s') run
  | nextPart {around : List Nat} {block : BlockPath} {p : Part} {ps : List Part} {s s₁ : Search}
      {found : Found} {run₁ run₂ : List EnteredBinding} :
      Searches facts reg maxHops scope around block p.task s (none, s₁) run₁ →
      Searches facts reg maxHops scope around block (.parts ps) s₁ found run₂ →
      Searches facts reg maxHops scope around block (.parts (p :: ps)) s found (run₁ ++ run₂)
  | spent {around : List Nat} {block : BlockPath} {name : String} {o : Origin} {s : Search} :
      reachingBindings facts name scope block o.pos ≠ [] → maxHops ≤ around.length →
      Searches facts reg maxHops scope around block (.read name o) s
        (none, s.log (.budgetExhausted name o.place.line maxHops)) []
  | bound {around : List Nat} {block : BlockPath} {name : String} {o : Origin} {s s' : Search}
      {t : Taint} {run : List EnteredBinding} :
      (reachingBindings facts name scope block o.pos ≠ [] → around.length < maxHops) →
      Searches facts reg maxHops scope around block
        (.enter name (reachingBindings facts name scope block o.pos)) s (some t, s') run →
      Searches facts reg maxHops scope around block (.read name o) s (some t, s') run
  | unbound {around : List Nat} {block : BlockPath} {name : String} {o : Origin} {s s' : Search}
      {run : List EnteredBinding} :
      (reachingBindings facts name scope block o.pos ≠ [] → around.length < maxHops) →
      Searches facts reg maxHops scope around block
        (.enter name (reachingBindings facts name scope block o.pos)) s (none, s') run →
      Searches facts reg maxHops scope around block (.read name o) s
        (if (reachingWithCover facts name scope block o.pos).2 then none
          else routeParam facts scope name, s') run
  | noBinding {around : List Nat} {block : BlockPath} {name : String} {s : Search} :
      Searches facts reg maxHops scope around block (.enter name []) s (none, s) []
  | known {around : List Nat} {block : BlockPath} {name : String} {b : Binding} {bs : List Binding}
      {s : Search} {found : Found} {run : List EnteredBinding} :
      s.explored.covers b.id (maxHops - around.length) = true →
      Searches facts reg maxHops scope around block (.enter name bs) s found run →
      Searches facts reg maxHops scope around block (.enter name (b :: bs)) s found run
  | tainted {around : List Nat} {block : BlockPath} {name : String} {b : Binding}
      {bs : List Binding} {s s' : Search} {t : Taint} {run : List EnteredBinding} :
      s.explored.covers b.id (maxHops - around.length) = false →
      Searches facts reg maxHops scope (b.id :: around) b.block (.expr b.value)
        (s.enter b.id (maxHops - around.length)) (some t, s') run →
      Searches facts reg maxHops scope around block (.enter name (b :: bs)) s
        (some { t with trace := t.trace ++ [bindingStep facts name b] }, s')
        (⟨b.id, maxHops - around.length, around⟩ :: run)
  | untainted {around : List Nat} {block : BlockPath} {name : String} {b : Binding}
      {bs : List Binding} {s s₁ : Search} {found : Found} {run₁ run₂ : List EnteredBinding} :
      s.explored.covers b.id (maxHops - around.length) = false →
      Searches facts reg maxHops scope (b.id :: around) b.block (.expr b.value)
        (s.enter b.id (maxHops - around.length)) (none, s₁) run₁ →
      Searches facts reg maxHops scope around block (.enter name bs) s₁ found run₂ →
      Searches facts reg maxHops scope around block (.enter name (b :: bs)) s found
        (⟨b.id, maxHops - around.length, around⟩ :: (run₁ ++ run₂))

section

variable {facts : FileFacts} {reg : Registry} {maxHops : Nat} {scope : ScopeId}
  {around : List Nat} {block : BlockPath} {task : Task} {s : Search} {found : Found}
  {run : List EnteredBinding}

/-- A search can go one way only. -/
theorem Searches.unique (h : Searches facts reg maxHops scope around block task s found run)
    {found' : Found} {run' : List EnteredBinding}
    (h' : Searches facts reg maxHops scope around block task s found' run') :
    found' = found ∧ run' = run := by
  induction h generalizing found' run' with
  | source hs =>
    cases h' with
    | source hs' =>
      obtain rfl := Option.some.inj (hs.symm.trans hs')
      exact ⟨rfl, rfl⟩
    | sanitized hs' => simp [hs] at hs'
    | through hs' => simp [hs] at hs'
  | sanitized hs hf =>
    cases h' with
    | source hs' => simp [hs] at hs'
    | sanitized _ hf' =>
      obtain rfl := Option.some.inj (hf.symm.trans hf')
      exact ⟨rfl, rfl⟩
    | through _ hf' => simp [hf] at hf'
  | through hs hf _ ih =>
    cases h' with
    | source hs' => simp [hs] at hs'
    | sanitized _ hf' => simp [hf] at hf'
    | through _ _ hparts => exact ih hparts
  | noPart =>
    cases h'
    exact ⟨rfl, rfl⟩
  | foundInPart _ ih =>
    cases h' with
    | foundInPart hpart => exact ih hpart
    | nextPart hpart _ => cases (ih hpart).1
  | nextPart _ _ ih₁ ih₂ =>
    cases h' with
    | foundInPart hpart => cases (ih₁ hpart).1
    | nextPart hpart hrest =>
      obtain ⟨heq, rfl⟩ := ih₁ hpart
      cases heq
      obtain ⟨rfl, rfl⟩ := ih₂ hrest
      exact ⟨rfl, rfl⟩
  | spent hne hfull =>
    cases h' with
    | spent => exact ⟨rfl, rfl⟩
    | bound hroom => exact absurd (hroom hne) (by omega)
    | unbound hroom => exact absurd (hroom hne) (by omega)
  | bound hroom _ ih =>
    cases h' with
    | spent hne hfull => exact absurd (hroom hne) (by omega)
    | bound _ henter => exact ih henter
    | unbound _ henter => cases (ih henter).1
  | unbound hroom _ ih =>
    cases h' with
    | spent hne hfull => exact absurd (hroom hne) (by omega)
    | bound _ henter => cases (ih henter).1
    | unbound _ henter =>
      obtain ⟨heq, rfl⟩ := ih henter
      cases heq
      exact ⟨rfl, rfl⟩
  | noBinding =>
    cases h'
    exact ⟨rfl, rfl⟩
  | known hknown _ ih =>
    cases h' with
    | known _ hrest => exact ih hrest
    | tainted hnew => simp [hknown] at hnew
    | untainted hnew => simp [hknown] at hnew
  | tainted hnew _ ih =>
    cases h' with
    | known hknown => simp [hnew] at hknown
    | tainted _ hvalue =>
      obtain ⟨heq, rfl⟩ := ih hvalue
      cases heq
      exact ⟨rfl, rfl⟩
    | untainted _ hvalue => cases (ih hvalue).1
  | untainted hnew _ _ ih₁ ih₂ =>
    cases h' with
    | known hknown => simp [hnew] at hknown
    | tainted _ hvalue => cases (ih₁ hvalue).1
    | untainted _ hvalue hrest =>
      obtain ⟨heq, rfl⟩ := ih₁ hvalue
      cases heq
      obtain ⟨rfl, rfl⟩ := ih₂ hrest
      exact ⟨rfl, rfl⟩

/-! ## Every search has a run -/

/-- Whatever the state, there is a run that finds what a function says. -/
def HasRuns (facts : FileFacts) (reg : Registry) (maxHops : Nat) (scope : ScopeId)
    (around : List Nat) (block : BlockPath) (task : Task) (finds : Search → Found) : Prop :=
  ∀ s, ∃ run, Searches facts reg maxHops scope around block task s (finds s) run

theorem Found.orElse_none (found : Found) : found.orElse (fun s => (none, s)) = found := by
  obtain ⟨_ | t, s⟩ := found <;> rfl

theorem HasRuns.noPart :
    HasRuns facts reg maxHops scope around block (.parts []) fun s => (none, s) :=
  fun _ => ⟨[], .noPart⟩

theorem HasRuns.parts {p : Part} {ps : List Part} {finds rest : Search → Found}
    (h : HasRuns facts reg maxHops scope around block p.task finds)
    (hrest : HasRuns facts reg maxHops scope around block (.parts ps) rest) :
    HasRuns facts reg maxHops scope around block (.parts (p :: ps)) fun s =>
      (finds s).orElse rest := by
  intro s
  dsimp only
  obtain ⟨run₁, h₁⟩ := h s
  rcases hfound : finds s with ⟨_ | t, s₁⟩
  · rw [hfound] at h₁
    obtain ⟨run₂, h₂⟩ := hrest s₁
    exact ⟨run₁ ++ run₂, .nextPart h₁ h₂⟩
  · rw [hfound] at h₁
    exact ⟨run₁, .foundInPart h₁⟩

variable {read : ReadPath}

theorem HasRuns.operands {operands : List Expr}
    (h : ∀ e ∈ operands,
      HasRuns facts reg maxHops scope around block (.expr e) (exprTaint facts reg read e)) :
    HasRuns facts reg maxHops scope around block (.parts (operands.map Part.value))
      (operandsTaint facts reg read operands) := by
  induction operands with
  | nil => exact fun s => ⟨[], by simpa [operandsTaint] using .noPart⟩
  | cons e rest ih =>
    have hrest := ih fun e he => h e (List.mem_cons_of_mem _ he)
    intro s
    rw [operandsTaint]
    exact HasRuns.parts (p := .value e) (h e (by simp)) hrest s

/-- What is found in one part is all that is found in it alone. -/
theorem HasRuns.part {p : Part} {finds : Search → Found}
    (h : HasRuns facts reg maxHops scope around block p.task finds) :
    HasRuns facts reg maxHops scope around block (.parts [p]) finds := by
  intro s
  have hparts := h.parts .noPart s
  simpa only [Found.orElse_none] using hparts

/-- An expression is searched through its parts, given how names and paths are read. -/
theorem HasRuns.expr
    (hread : ∀ name o, HasRuns facts reg maxHops scope around block (.read name o) (read name o))
    (e : Expr) :
    HasRuns facts reg maxHops scope around block (.expr e) (exprTaint facts reg read e) := by
  -- a source or sanitizer ends the search; what is left is the search through the parts
  have hthrough : ∀ e, (sourceOf facts.symbols reg e = none → e.sanitizer? reg = none →
      HasRuns facts reg maxHops scope around block (.parts e.parts) (exprTaint facts reg read e)) →
      HasRuns facts reg maxHops scope around block (.expr e) (exprTaint facts reg read e) := by
    intro e h s
    rcases hs : sourceOf facts.symbols reg e with _ | kind
    · rcases hf : e.sanitizer? reg with _ | sanitizer
      · obtain ⟨run, hrun⟩ := h hs hf s
        exact ⟨run, .through hs hf hrun⟩
      · cases e with
        | call func callee args o =>
          rw [exprTaint_sanitized _ _ _ _ _ _ hs hf]
          exact ⟨[], .sanitized hs hf⟩
        | _ => cases hf
    · rw [exprTaint_source hs]
      exact ⟨[], .source hs⟩
  induction e using Expr.ind with
  | name id o =>
    refine hthrough _ fun hs _ s => ?_
    rw [exprTaint.eq_def, hs]
    exact (HasRuns.part (p := .read id o) (hread id o)) s
  | literal value o =>
    refine hthrough _ fun hs _ s => ?_
    rw [exprTaint.eq_def, hs]
    exact HasRuns.noPart s
  | unknown o =>
    refine hthrough _ fun hs _ s => ?_
    rw [exprTaint.eq_def, hs]
    exact HasRuns.noPart s
  | member object attr o ih =>
    refine hthrough _ fun hs _ s => ?_
    rw [exprTaint_member _ _ _ _ hs, Expr.parts]
    rcases (Expr.member object attr o).dotted with _ | path
    · exact HasRuns.part (p := .value object) ih s
    · exact HasRuns.parts (p := .read path o) (hread path o)
        (HasRuns.part (p := .value object) ih) s
  | subscript value index o ih =>
    refine hthrough _ fun hs _ s => ?_
    rw [exprTaint_subscript _ _ _ _ hs]
    exact HasRuns.part (p := .value value) ih s
  | call func callee args o ihf iha =>
    refine hthrough _ fun hs hf s => ?_
    have hargs : HasRuns facts reg maxHops scope around block
        (.parts ((args.map (·.value)).map Part.value))
        (operandsTaint facts reg read (args.map (·.value))) := by
      refine HasRuns.operands fun e he => ?_
      obtain ⟨a, ha, rfl⟩ := List.mem_map.mp he
      exact iha a ha
    rw [exprTaint_call _ _ _ _ _ hs hf, Expr.parts]
    rcases hr : func.receiver? with _ | object
    · exact hargs s
    · exact HasRuns.parts (p := .value object) (ihf.of_receiver hr) hargs s
  | compound operands o ih =>
    refine hthrough _ fun _ _ s => ?_
    rw [exprTaint_compound]
    exact HasRuns.operands ih s

/-- Bindings are entered in turn, given how their values are searched. -/
theorem HasRuns.enter {budget : Nat} {enter : Binding → Search → Found} {name : String}
    {bs : List Binding} (hbudget : budget = maxHops - around.length)
    (henter : ∀ b, HasRuns facts reg maxHops scope (b.id :: around) b.block (.expr b.value)
      (enter b)) :
    HasRuns facts reg maxHops scope around block (.enter name bs)
      (enterBindings facts name budget enter bs) := by
  subst hbudget
  induction bs with
  | nil => exact fun s => ⟨[], .noBinding⟩
  | cons b rest ih =>
    intro s
    rw [enterBindings]
    split
    · rename_i hknown
      obtain ⟨run, hrun⟩ := ih s
      exact ⟨run, .known hknown hrun⟩
    · rename_i hnew
      rw [Bool.not_eq_true] at hnew
      obtain ⟨run₁, h₁⟩ := henter b (s.enter b.id (maxHops - around.length))
      split
      · rename_i t s₁ hfound
        exact ⟨_, .tainted hnew (hfound ▸ h₁)⟩
      · rename_i s₁ hfound
        obtain ⟨run₂, h₂⟩ := ih s₁
        exact ⟨_, .untainted hnew (hfound ▸ h₁) h₂⟩

/-- A read enters the bindings that may reach it, unless the budget is spent. -/
theorem HasRuns.readThrough {budget : Nat} {enterAll : String → List Binding → Search → Found}
    (hbudget : budget = maxHops - around.length) {name : String} {o : Origin}
    (henter : (reachingBindings facts name scope block o.pos ≠ [] → 0 < budget) →
      HasRuns facts reg maxHops scope around block
        (.enter name (reachingBindings facts name scope block o.pos))
        (enterAll name (reachingBindings facts name scope block o.pos))) :
    HasRuns facts reg maxHops scope around block (.read name o)
      (readThrough facts maxHops scope block budget enterAll name o) := by
  intro s
  unfold XPathTaint.readThrough
  rw [show reachingWithCover facts name scope block o.pos =
    (reachingBindings facts name scope block o.pos,
      (reachingWithCover facts name scope block o.pos).2) from rfl]
  dsimp only
  split
  · rename_i hspent
    simp only [Bool.and_eq_true, decide_eq_true_eq, Bool.not_eq_eq_eq_not, Bool.not_true,
      List.isEmpty_eq_false_iff] at hspent
    exact ⟨[], .spent hspent.2 (by omega)⟩
  · rename_i hopen
    have hroom : reachingBindings facts name scope block o.pos ≠ [] → 0 < budget := by
      intro hne
      by_contra hzero
      exact hopen (by simp [hne, Nat.eq_zero_of_not_pos hzero])
    obtain ⟨run, hrun⟩ := henter hroom s
    rcases hfound : enterAll name (reachingBindings facts name scope block o.pos) s with ⟨_ | t, s'⟩
    · rw [hfound] at hrun
      have hleft := Searches.unbound (fun hne => by have := hroom hne; omega) hrun
      refine ⟨run, ?_⟩
      rw [Found.orElse]
      split
      · rename_i hcovered
        simpa only [hcovered, if_true] using hleft
      · rename_i hcovered
        simpa only [hcovered, Bool.false_eq_true, if_false] using hleft
    · rw [hfound] at hrun
      exact ⟨run, .bound (fun hne => by have := hroom hne; omega) hrun⟩

/-- The search with a budget finds what its run finds: the budget is what the bindings around it
have left of the hops. -/
theorem hasRuns_taintWithin {budget : Nat} (h : around.length + budget = maxHops) (e : Expr) :
    HasRuns facts reg maxHops scope around block (.expr e)
      (taintWithin facts reg maxHops scope budget block e) := by
  induction budget generalizing around block e with
  | zero =>
    rw [taintWithin_eq]
    refine HasRuns.expr (fun name o => HasRuns.readThrough (by omega) fun hroom => ?_) e
    have hnil : reachingBindings facts name scope block o.pos = [] := by
      by_contra hne
      exact absurd (hroom hne) (Nat.lt_irrefl 0)
    rw [hnil]
    exact fun s => ⟨[], .noBinding⟩
  | succ budget ih =>
    rw [taintWithin_eq]
    refine HasRuns.expr (fun name o => HasRuns.readThrough (by omega) fun _ => ?_) e
    exact HasRuns.enter (by omega) fun b => ih (by rw [List.length_cons]; omega) b.value

end

end XPathTaint
