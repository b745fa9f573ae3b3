import Mathlib.Tactic.Common
import XPathTaint.Taint.Flow

-- When an expression is tainted, said without a search: it is a source, or taint flows
-- into it from a read that is tainted itself. A read is tainted through a binding that may
-- reach it, or because it reads a parameter of a route that no binding covers.

namespace XPathTaint

/-! ## Induction over expressions -/

/-- What holds of an expression, and of the object that a member is taken from. -/
def HoldsWithObject (motive : Expr → Prop) (e : Expr) : Prop :=
  motive e ∧ ∀ object attr o, e = .member object attr o → motive object

/-- Induction over expressions, in which a call also knows the receiver of its target. -/
@[elab_as_elim]
theorem Expr.ind {motive : Expr → Prop} (name : ∀ id o, motive (.name id o))
    (literal : ∀ value o, motive (.literal value o))
    (member : ∀ object attr o, motive object → motive (.member object attr o))
    (subscript : ∀ value index o, motive value → motive index → motive (.subscript value index o))
    (call : ∀ func callee args o, HoldsWithObject motive func → (∀ a ∈ args, motive a.value) →
      motive (.call func callee args o))
    (compound : ∀ operands o, (∀ e ∈ operands, motive e) → motive (.compound operands o))
    (unknown : ∀ o, motive (.unknown o)) (e : Expr) : motive e := by
  suffices h : HoldsWithObject motive e from h.1
  refine @Expr.rec (HoldsWithObject motive) (fun args => ∀ a ∈ args, motive a.value)
    (fun operands => ∀ e ∈ operands, motive e) (fun a => motive a.value)
    ?name ?literal ?member ?subscript ?call ?compound ?unknown ?noArgument ?argument ?noOperand
    ?operand ?value e
  case name => exact fun id o => ⟨name id o, by simp⟩
  case literal => exact fun value o => ⟨literal value o, by simp⟩
  case member =>
    intro object attr o h
    refine ⟨member object attr o h.1, ?_⟩
    rintro object' attr' o' he
    cases he
    exact h.1
  case subscript => exact fun value index o hv hi => ⟨subscript value index o hv.1 hi.1, by simp⟩
  case call => exact fun func callee args o hf ha => ⟨call func callee args o hf ha, by simp⟩
  case compound => exact fun operands o h => ⟨compound operands o h, by simp⟩
  case unknown => exact fun o => ⟨unknown o, by simp⟩
  case noArgument => simp
  case argument => exact fun a rest h hs => by simpa using ⟨h, hs⟩
  case noOperand => simp
  case operand => exact fun e rest h hs => by simpa using ⟨h.1, hs⟩
  case value => exact fun _ _ _ h => h.1

/-- The value that a call of a member is made on. -/
def Expr.receiver? : Expr → Option Expr
  | .member object _ _ => some object
  | _ => none

theorem HoldsWithObject.of_receiver {motive : Expr → Prop} {func object : Expr}
    (h : HoldsWithObject motive func) (hr : func.receiver? = some object) : motive object := by
  cases func <;> simp only [Expr.receiver?, Option.some.injEq, reduceCtorEq] at hr
  subst hr
  exact h.2 _ _ _ rfl

/-! ## What an expression carries -/

mutual

/-- Whether taint flows into an expression, given which reads are tainted: each read has the
name or path that it reads and the byte where it stands. -/
def Carries (symbols : Symbols) (reg : Registry) (reads : String → Nat → Prop) (e : Expr) :
    Prop :=
  (sourceOf symbols reg e).isSome ∨
    match e with
    | .name id o => reads id o.pos
    | .literal _ _ => False
    | .unknown _ => False
    | .member object attr o =>
      (∃ path, (Expr.member object attr o).dotted = some path ∧ reads path o.pos) ∨
        Carries symbols reg reads object
    | .subscript value _ _ => Carries symbols reg reads value
    | .call func callee args _ =>
      callee.filter reg.isSanitizer = none ∧
        ((match func with
          | .member object _ _ => Carries symbols reg reads object
          | _ => False) ∨ CarriesArgument symbols reg reads args)
    | .compound operands _ => CarriesOperand symbols reg reads operands

def CarriesArgument (symbols : Symbols) (reg : Registry) (reads : String → Nat → Prop)
    (args : List (ArgumentOf Expr)) : Prop :=
  match args with
  | [] => False
  | ⟨_, _, value⟩ :: rest =>
    Carries symbols reg reads value ∨ CarriesArgument symbols reg reads rest

def CarriesOperand (symbols : Symbols) (reg : Registry) (reads : String → Nat → Prop)
    (operands : List Expr) : Prop :=
  match operands with
  | [] => False
  | operand :: rest =>
    Carries symbols reg reads operand ∨ CarriesOperand symbols reg reads rest

end

section

variable {symbols : Symbols} {reg : Registry} {reads : String → Nat → Prop}

theorem carriesArgument_iff (args : List Argument) :
    CarriesArgument symbols reg reads args ↔ ∃ a ∈ args, Carries symbols reg reads a.value := by
  induction args with
  | nil => simp [CarriesArgument]
  | cons a rest ih =>
    obtain ⟨keyword, splat, value⟩ := a
    simp [CarriesArgument, ih]

theorem carriesOperand_iff (operands : List Expr) :
    CarriesOperand symbols reg reads operands ↔ ∃ e ∈ operands, Carries symbols reg reads e := by
  induction operands with
  | nil => simp [CarriesOperand]
  | cons e rest ih => simp [CarriesOperand, ih]

theorem carries_name (id : String) (o : Origin) :
    Carries symbols reg reads (.name id o) ↔ reads id o.pos := by
  have hnone : ¬(sourceOf symbols reg (.name id o)).isSome := by simp [sourceOf]
  exact or_iff_right hnone

theorem carries_member (object : Expr) (attr : String) (o : Origin) :
    Carries symbols reg reads (.member object attr o) ↔
      (sourceOf symbols reg (.member object attr o)).isSome ∨
        (∃ path, (Expr.member object attr o).dotted = some path ∧ reads path o.pos) ∨
          Carries symbols reg reads object :=
  Iff.rfl

theorem carries_subscript (value index : Expr) (o : Origin) :
    Carries symbols reg reads (.subscript value index o) ↔
      (sourceOf symbols reg (.subscript value index o)).isSome ∨
        Carries symbols reg reads value :=
  Iff.rfl

theorem carries_compound (operands : List Expr) (o : Origin) :
    Carries symbols reg reads (.compound operands o) ↔
      ∃ e ∈ operands, Carries symbols reg reads e := by
  have hnone : ¬(sourceOf symbols reg (.compound operands o)).isSome := by simp [sourceOf]
  exact (or_iff_right hnone).trans (carriesOperand_iff operands)

theorem carries_call (func : Expr) (callee : Option String) (args : List Argument) (o : Origin) :
    Carries symbols reg reads (.call func callee args o) ↔
      (sourceOf symbols reg (.call func callee args o)).isSome ∨
        (callee.filter reg.isSanitizer = none ∧
          ((∃ object, func.receiver? = some object ∧ Carries symbols reg reads object) ∨
            ∃ a ∈ args, Carries symbols reg reads a.value)) := by
  rw [Carries.eq_def]
  simp only [carriesArgument_iff]
  cases func <;> simp [Expr.receiver?]

/-- More tainted reads carry no less taint. -/
theorem Carries.mono {more : String → Nat → Prop} (h : ∀ name pos, reads name pos → more name pos)
    {e : Expr} (he : Carries symbols reg reads e) : Carries symbols reg more e := by
  induction e using Expr.ind with
  | name id o => exact (carries_name id o).mpr (h id o.pos ((carries_name id o).mp he))
  | literal value o => simpa [Carries] using he
  | unknown o => simpa [Carries] using he
  | member object attr o ih =>
    rw [carries_member] at he ⊢
    rcases he with he | ⟨path, hp, hr⟩ | he
    · exact Or.inl he
    · exact Or.inr (Or.inl ⟨path, hp, h path o.pos hr⟩)
    · exact Or.inr (Or.inr (ih he))
  | subscript value index o ih =>
    rw [carries_subscript] at he ⊢
    exact he.imp id ih
  | call func callee args o ihf iha =>
    rw [carries_call] at he ⊢
    rcases he with he | ⟨hs, ⟨object, ho, hc⟩ | ⟨a, ha, hc⟩⟩
    · exact Or.inl he
    · exact Or.inr ⟨hs, Or.inl ⟨object, ho, ihf.of_receiver ho hc⟩⟩
    · exact Or.inr ⟨hs, Or.inr ⟨a, ha, iha a ha hc⟩⟩
  | compound operands o ih =>
    rw [carries_compound] at he ⊢
    obtain ⟨e, hm, hc⟩ := he
    exact ⟨e, hm, ih e hm hc⟩

end

/-! ## A search through an expression -/

theorem Found.orElse_eq_none {found : Found} {rest : Search → Found} {s : Search}
    (h : found.orElse rest = (none, s)) : found = (none, found.2) ∧ rest found.2 = (none, s) := by
  obtain ⟨_ | taint, s₁⟩ := found
  · exact ⟨rfl, h⟩
  · cases h

section

variable {facts : FileFacts} {reg : Registry} {read : ReadPath}

theorem argumentsTaint_eq (args : List Argument) (s : Search) :
    argumentsTaint facts reg read args s = operandsTaint facts reg read (args.map (·.value)) s := by
  induction args generalizing s with
  | nil => simp [argumentsTaint, operandsTaint]
  | cons a rest ih =>
    obtain ⟨keyword, splat, value⟩ := a
    simp only [argumentsTaint, List.map_cons, operandsTaint]
    congr 1
    funext s
    exact ih s

theorem exprTaint_member (object : Expr) (attr : String) (o : Origin) (s : Search)
    (h : sourceOf facts.symbols reg (.member object attr o) = none) :
    exprTaint facts reg read (.member object attr o) s =
      Found.orElse
        (match (Expr.member object attr o).dotted with
        | some path => read path o s
        | none => (none, s)) fun s => exprTaint facts reg read object s := by
  rewrite [exprTaint.eq_def, h]
  rfl

theorem exprTaint_subscript (value index : Expr) (o : Origin) (s : Search)
    (h : sourceOf facts.symbols reg (.subscript value index o) = none) :
    exprTaint facts reg read (.subscript value index o) s =
      exprTaint facts reg read value s := by
  rw [exprTaint.eq_def, h]

theorem exprTaint_call (func : Expr) (callee : Option String) (args : List Argument) (o : Origin)
    (s : Search) (h : sourceOf facts.symbols reg (.call func callee args o) = none)
    (hs : callee.filter reg.isSanitizer = none) :
    exprTaint facts reg read (.call func callee args o) s =
      Found.orElse
        (match func.receiver? with
        | some object => exprTaint facts reg read object s
        | none => (none, s)) fun s => operandsTaint facts reg read (args.map (·.value)) s := by
  rw [exprTaint.eq_def, h]
  simp only [hs, argumentsTaint_eq]
  cases func <;> rfl

theorem exprTaint_sanitized (func : Expr) (callee : Option String) (args : List Argument)
    (o : Origin) (s : Search) (sanitizer : String)
    (h : sourceOf facts.symbols reg (.call func callee args o) = none)
    (hs : callee.filter reg.isSanitizer = some sanitizer) :
    exprTaint facts reg read (.call func callee args o) s =
      (none, s.log (.sanitized o.place.line sanitizer)) := by
  rw [exprTaint.eq_def, h]
  simp only [hs]

theorem exprTaint_compound (operands : List Expr) (o : Origin) (s : Search) :
    exprTaint facts reg read (.compound operands o) s =
      operandsTaint facts reg read operands s := by
  simp [exprTaint.eq_def, sourceOf]

theorem exprTaint_source {e : Expr} {s : Search} {source : SourceKind}
    (h : sourceOf facts.symbols reg e = some source) :
    exprTaint facts reg read e s = (some ⟨source, [.at e.text e.place]⟩, s) := by
  rw [exprTaint.eq_def, h]

theorem sourceOf_eq_none {e : Expr} {s s' : Search}
    (h : exprTaint facts reg read e s = (none, s')) : sourceOf facts.symbols reg e = none := by
  rcases hs : sourceOf facts.symbols reg e with _ | source
  · rfl
  · rw [exprTaint_source hs] at h
    cases h

/-! ## A search that finds nothing -/

/-- What a search in vain leaves behind: `le` relates the states before and after it, and
`fails` says of a state that a read is in vain from then on. -/
structure InVain (le : Search → Search → Prop) (fails : String → Nat → Search → Prop) : Prop where
  refl : ∀ s, le s s
  trans : ∀ {s₁ s₂ s₃}, le s₁ s₂ → le s₂ s₃ → le s₁ s₃
  log : ∀ s e, le s (s.log e)
  keeps : ∀ {name pos s₁ s₂}, le s₁ s₂ → fails name pos s₁ → fails name pos s₂

variable {le : Search → Search → Prop} {fails : String → Nat → Search → Prop}

/-- In a state where reads fail, an expression carries nothing. -/
def CarriesNothing (symbols : Symbols) (reg : Registry) (fails : String → Nat → Search → Prop)
    (e : Expr) (s : Search) : Prop :=
  ¬ Carries symbols reg (fun name pos => ¬ fails name pos s) e

theorem InVain.keeps_nothing (hv : InVain le fails) {symbols : Symbols} {e : Expr}
    {s₁ s₂ : Search} (hle : le s₁ s₂) (h : CarriesNothing symbols reg fails e s₁) :
    CarriesNothing symbols reg fails e s₂ :=
  fun hc => h (hc.mono fun _ _ hf h₁ => hf (hv.keeps hle h₁))

theorem operandsTaint_eq_none (hv : InVain le fails) {operands : List Expr}
    (hall : ∀ e ∈ operands, ∀ s₁ s₂, exprTaint facts reg read e s₁ = (none, s₂) →
      le s₁ s₂ ∧ CarriesNothing facts.symbols reg fails e s₂) {s s' : Search}
    (h : operandsTaint facts reg read operands s = (none, s')) :
    le s s' ∧ ∀ e ∈ operands, CarriesNothing facts.symbols reg fails e s' := by
  induction operands generalizing s with
  | nil =>
    simp only [operandsTaint, Prod.mk.injEq, true_and] at h
    subst h
    exact ⟨hv.refl s, by simp⟩
  | cons e rest ih =>
    rw [operandsTaint] at h
    obtain ⟨h₁, h₂⟩ := Found.orElse_eq_none h
    obtain ⟨hle, hn⟩ := hall e (by simp) _ _ h₁
    obtain ⟨hle', hns⟩ := ih (fun e he => hall e (List.mem_cons_of_mem _ he)) h₂
    refine ⟨hv.trans hle hle', ?_⟩
    intro e' he'
    rcases List.mem_cons.mp he' with rfl | he'
    · exact hv.keeps_nothing hle' hn
    · exact hns e' he'

/-- A search that finds nothing ends where the expression carries nothing. -/
theorem exprTaint_eq_none (hv : InVain le fails)
    (hread : ∀ name o s s', read name o s = (none, s') → le s s' ∧ fails name o.pos s') {e : Expr}
    {s s' : Search} (h : exprTaint facts reg read e s = (none, s')) :
    le s s' ∧ CarriesNothing facts.symbols reg fails e s' := by
  induction e using Expr.ind generalizing s s' with
  | name id o =>
    have hr := hread id o s s' (by simpa [exprTaint.eq_def, sourceOf] using h)
    refine ⟨hr.1, fun hc => ?_⟩
    exact (carries_name id o).mp hc hr.2
  | literal value o =>
    simp only [exprTaint.eq_def, sourceOf, Prod.mk.injEq, true_and] at h
    exact ⟨h ▸ hv.refl s, by simp [CarriesNothing, Carries, sourceOf]⟩
  | unknown o =>
    simp only [exprTaint.eq_def, sourceOf, Prod.mk.injEq, true_and] at h
    exact ⟨h ▸ hv.refl s, by simp [CarriesNothing, Carries, sourceOf]⟩
  | member object attr o ih =>
    have hs := sourceOf_eq_none h
    rw [exprTaint_member _ _ _ _ hs] at h
    obtain ⟨h₁, h₂⟩ := Found.orElse_eq_none h
    obtain ⟨hle, hn⟩ := ih h₂
    rcases hd : (Expr.member object attr o).dotted with _ | path
    · simp only [hd] at hle
      refine ⟨hle, fun hc => ?_⟩
      simp [carries_member, hs, hd] at hc
      exact hn hc
    · simp only [hd] at h₁ hle
      obtain ⟨hle', hf⟩ := hread path o s _ h₁
      refine ⟨hv.trans hle' hle, fun hc => ?_⟩
      simp only [carries_member, hs, hd, Option.isSome_none, Option.some.injEq, exists_eq_left',
        Bool.false_eq_true, false_or] at hc
      rcases hc with hc | hc
      · exact hc (hv.keeps hle hf)
      · exact hn hc
  | subscript value index o ih =>
    have hs := sourceOf_eq_none h
    rw [exprTaint_subscript _ _ _ _ hs] at h
    refine ⟨(ih h).1, fun hc => (ih h).2 ?_⟩
    simpa [carries_subscript, hs] using hc
  | call func callee args o ihf iha =>
    have hs := sourceOf_eq_none h
    rcases hf : callee.filter reg.isSanitizer with _ | sanitizer
    · rw [exprTaint_call _ _ _ _ _ hs hf] at h
      obtain ⟨h₁, h₂⟩ := Found.orElse_eq_none h
      have hall : ∀ e ∈ args.map (·.value), ∀ s₁ s₂, exprTaint facts reg read e s₁ = (none, s₂) →
          le s₁ s₂ ∧ CarriesNothing facts.symbols reg fails e s₂ := by
        intro e he s₁ s₂ h
        obtain ⟨a, ha, rfl⟩ := List.mem_map.mp he
        exact iha a ha h
      obtain ⟨hle, hn⟩ := operandsTaint_eq_none hv hall h₂
      have hargs : ¬ ∃ a ∈ args, Carries facts.symbols reg (fun n p => ¬ fails n p s') a.value := by
        rintro ⟨a, ha, hc⟩
        exact hn a.value (List.mem_map_of_mem ha) hc
      rcases hr : func.receiver? with _ | object
      · simp only [hr] at hle
        refine ⟨hle, fun hc => ?_⟩
        simp only [carries_call, hs, hf, hr] at hc
        simp [hargs] at hc
      · simp only [hr] at h₁ hle
        obtain ⟨hle', ho⟩ := ihf.of_receiver hr h₁
        refine ⟨hv.trans hle' hle, fun hc => ?_⟩
        simp only [carries_call, hs, hf, hr] at hc
        have hc : Carries facts.symbols reg (fun n p => ¬ fails n p s') object := by
          simpa [hargs] using hc
        exact hv.keeps_nothing hle ho hc
    · rw [exprTaint_sanitized _ _ _ _ _ _ hs hf] at h
      simp only [Prod.mk.injEq, true_and] at h
      refine ⟨h ▸ hv.log s _, fun hc => ?_⟩
      simp [carries_call, hs, hf] at hc
  | compound operands o ih =>
    rw [exprTaint_compound] at h
    obtain ⟨hle, hn⟩ := operandsTaint_eq_none hv (fun e he _ _ => ih e he) h
    refine ⟨hle, fun hc => ?_⟩
    obtain ⟨e, he, hc⟩ := (carries_compound operands o).mp hc
    exact hn e he hc

end

end XPathTaint
