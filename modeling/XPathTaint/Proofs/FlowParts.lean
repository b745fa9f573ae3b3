import Mathlib.Tactic.Common
import XPathTaint.Proofs.TaintReads

-- Which parts of an expression taint can come from. An expression carries taint exactly where one
-- of them is a source or a tainted read, and what a search finds in it comes from one of them.

namespace XPathTaint

/-! ## Where taint flows on -/

/-- The parts that the value of an expression is built from: objects of members and subscripts,
operands, and the receiver and the arguments of a call that is no sanitizer. Neither an index nor
the function that is called is such a part. -/
inductive FlowsInto (reg : Registry) (r : Expr) : Expr → Prop
  | self : FlowsInto reg r r
  | object {object : Expr} {attr : String} {o : Origin} :
      FlowsInto reg r object → FlowsInto reg r (.member object attr o)
  | item {value index : Expr} {o : Origin} :
      FlowsInto reg r value → FlowsInto reg r (.subscript value index o)
  | receiver {func object : Expr} {callee : Option String} {args : List Argument} {o : Origin} :
      callee.filter reg.isSanitizer = none → func.receiver? = some object →
      FlowsInto reg r object → FlowsInto reg r (.call func callee args o)
  | argument {func : Expr} {callee : Option String} {args : List Argument} {o : Origin}
      {a : Argument} : callee.filter reg.isSanitizer = none → a ∈ args →
      FlowsInto reg r a.value → FlowsInto reg r (.call func callee args o)
  | operand {e : Expr} {operands : List Expr} {o : Origin} : e ∈ operands →
      FlowsInto reg r e → FlowsInto reg r (.compound operands o)

section

variable {facts : FileFacts} {reg : Registry} {e r : Expr}

/-- Where a part is a source or a tainted read, taint flows into the part. -/
theorem carries_self {symbols : Symbols} {reads : String → Nat → Prop}
    (h : (sourceOf symbols reg r).isSome ∨ ∃ path, r.dotted = some path ∧ reads path r.pos) :
    Carries symbols reg reads r := by
  cases r with
  | name id o => simpa [carries_name, sourceOf, Expr.dotted, Expr.pos, Expr.origin] using h
  | member object attr o =>
    rw [carries_member]
    exact h.imp id Or.inl
  | _ =>
    rw [Carries.eq_def]
    exact Or.inl (by simpa [Expr.dotted] using h)

/-- An expression carries taint exactly where a part of it is a source or a tainted read. -/
theorem carries_iff {symbols : Symbols} {reads : String → Nat → Prop} :
    Carries symbols reg reads e ↔ ∃ r, FlowsInto reg r e ∧
      ((sourceOf symbols reg r).isSome ∨ ∃ path, r.dotted = some path ∧ reads path r.pos) := by
  constructor
  · intro h
    induction e using Expr.ind with
    | name id o => exact ⟨_, .self, Or.inr ⟨id, rfl, (carries_name id o).mp h⟩⟩
    | literal value o => simp [Carries, sourceOf] at h
    | unknown o => simp [Carries, sourceOf] at h
    | member object attr o ih =>
      rcases (carries_member object attr o).mp h with h | h | h
      · exact ⟨_, .self, Or.inl h⟩
      · exact ⟨_, .self, Or.inr h⟩
      · obtain ⟨r, hr, h⟩ := ih h
        exact ⟨r, .object hr, h⟩
    | subscript value index o ih =>
      rcases (carries_subscript value index o).mp h with h | h
      · exact ⟨_, .self, Or.inl h⟩
      · obtain ⟨r, hr, h⟩ := ih h
        exact ⟨r, .item hr, h⟩
    | call func callee args o ihf iha =>
      rcases (carries_call func callee args o).mp h with h | ⟨hs, ⟨object, ho, h⟩ | ⟨a, ha, h⟩⟩
      · exact ⟨_, .self, Or.inl h⟩
      · obtain ⟨r, hr, h⟩ := ihf.of_receiver ho h
        exact ⟨r, .receiver hs ho hr, h⟩
      · obtain ⟨r, hr, h⟩ := iha a ha h
        exact ⟨r, .argument hs ha hr, h⟩
    | compound operands o ih =>
      obtain ⟨e, he, h⟩ := (carries_compound operands o).mp h
      obtain ⟨r, hr, h⟩ := ih e he h
      exact ⟨r, .operand he hr, h⟩
  · rintro ⟨r, hr, h⟩
    induction hr with
    | self => exact carries_self h
    | object _ ih => exact (carries_member _ _ _).mpr (Or.inr (Or.inr ih))
    | item _ ih => exact (carries_subscript _ _ _).mpr (Or.inr ih)
    | receiver hs ho _ ih => exact (carries_call _ _ _ _).mpr (Or.inr ⟨hs, Or.inl ⟨_, ho, ih⟩⟩)
    | argument hs ha _ ih => exact (carries_call _ _ _ _).mpr (Or.inr ⟨hs, Or.inr ⟨_, ha, ih⟩⟩)
    | operand he _ ih => exact (carries_compound _ _).mpr ⟨_, he, ih⟩

/-! ## What a search finds -/

theorem Found.orElse_eq_some {found : Found} {rest : Search → Found} {t : Taint} {s : Search}
    (h : found.orElse rest = (some t, s)) : found = (some t, s) ∨ rest found.2 = (some t, s) := by
  obtain ⟨_ | taint, s₁⟩ := found
  · exact Or.inr h
  · exact Or.inl h

variable {read : ReadPath} {t : Taint} {s s' : Search}

theorem operandsTaint_eq_some {operands : List Expr}
    (h : operandsTaint facts reg read operands s = (some t, s')) :
    ∃ e ∈ operands, ∃ s₁, exprTaint facts reg read e s₁ = (some t, s') := by
  induction operands generalizing s with
  | nil => simp [operandsTaint] at h
  | cons e rest ih =>
    rw [operandsTaint] at h
    rcases Found.orElse_eq_some h with h | h
    · exact ⟨e, by simp, s, h⟩
    · obtain ⟨e', he, hs⟩ := ih h
      exact ⟨e', List.mem_cons_of_mem _ he, hs⟩

/-- A source is found where it stands. -/
theorem found_at_source {kind : SourceKind} (hs : sourceOf facts.symbols reg e = some kind)
    (h : exprTaint facts reg read e s = (some t, s')) :
    ∃ kind, sourceOf facts.symbols reg e = some kind ∧ t = ⟨kind, [.at e.text e.place]⟩ := by
  rw [exprTaint_source hs] at h
  cases h
  exact ⟨kind, hs, rfl⟩

/-- What is found in an expression is a source in a part of it, or what the read of a part
gives. -/
theorem exprTaint_eq_some (h : exprTaint facts reg read e s = (some t, s')) :
    ∃ r, FlowsInto reg r e ∧
      ((∃ kind, sourceOf facts.symbols reg r = some kind ∧ t = ⟨kind, [.at r.text r.place]⟩) ∨
        ∃ path s₁, r.dotted = some path ∧ read path r.origin s₁ = (some t, s')) := by
  induction e using Expr.ind generalizing s s' with
  | name id o =>
    rw [exprTaint.eq_def] at h
    exact ⟨_, .self, Or.inr ⟨id, s, rfl, h⟩⟩
  | literal value o => simp [exprTaint.eq_def, sourceOf] at h
  | unknown o => simp [exprTaint.eq_def, sourceOf] at h
  | member object attr o ih =>
    rcases hs : sourceOf facts.symbols reg (.member object attr o) with _ | kind
    · rw [exprTaint_member _ _ _ _ hs] at h
      rcases Found.orElse_eq_some h with h | h
      · rcases hd : (Expr.member object attr o).dotted with _ | path
        · simp [hd] at h
        · simp only [hd] at h
          exact ⟨_, .self, Or.inr ⟨path, s, hd, h⟩⟩
      · obtain ⟨r, hr, h⟩ := ih h
        exact ⟨r, .object hr, h⟩
    · exact ⟨_, .self, Or.inl (found_at_source hs h)⟩
  | subscript value index o ih =>
    rcases hs : sourceOf facts.symbols reg (.subscript value index o) with _ | kind
    · rw [exprTaint_subscript _ _ _ _ hs] at h
      obtain ⟨r, hr, h⟩ := ih h
      exact ⟨r, .item hr, h⟩
    · exact ⟨_, .self, Or.inl (found_at_source hs h)⟩
  | call func callee args o ihf iha =>
    rcases hs : sourceOf facts.symbols reg (.call func callee args o) with _ | kind
    · rcases hf : callee.filter reg.isSanitizer with _ | sanitizer
      · rw [exprTaint_call _ _ _ _ _ hs hf] at h
        rcases Found.orElse_eq_some h with h | h
        · rcases ho : func.receiver? with _ | object
          · simp [ho] at h
          · obtain ⟨r, hr, h⟩ := ihf.of_receiver ho (by simpa [ho] using h)
            exact ⟨r, .receiver hf ho hr, h⟩
        · obtain ⟨e, he, s₁, h⟩ := operandsTaint_eq_some h
          obtain ⟨a, ha, rfl⟩ := List.mem_map.mp he
          obtain ⟨r, hr, h⟩ := iha a ha h
          exact ⟨r, .argument hf ha hr, h⟩
      · rw [exprTaint_sanitized _ _ _ _ _ _ hs hf] at h
        cases h
    · exact ⟨_, .self, Or.inl (found_at_source hs h)⟩
  | compound operands o ih =>
    rw [exprTaint_compound] at h
    obtain ⟨e, he, s₁, h⟩ := operandsTaint_eq_some h
    obtain ⟨r, hr, h⟩ := ih e he h
    exact ⟨r, .operand he hr, h⟩

/-- What a search finds is carried by the reads that find something. -/
theorem carries_of_exprTaint {reads : String → Nat → Prop}
    (hread : ∀ name o s, (read name o s).1.isSome → reads name o.pos)
    (h : (exprTaint facts reg read e s).1.isSome) : Carries facts.symbols reg reads e := by
  obtain ⟨t, ht⟩ := Option.isSome_iff_exists.mp h
  obtain ⟨r, hr, ⟨kind, hs, _⟩ | ⟨path, s₁, hd, hfound⟩⟩ := exprTaint_eq_some (Prod.ext ht rfl)
  · exact carries_iff.mpr ⟨r, hr, Or.inl (by rw [hs]; rfl)⟩
  · exact carries_iff.mpr ⟨r, hr, Or.inr ⟨path, hd, hread path r.origin s₁ (by rw [hfound]; rfl)⟩⟩

end

end XPathTaint
