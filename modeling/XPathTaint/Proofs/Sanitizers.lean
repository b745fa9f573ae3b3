import XPathTaint.Proofs.FlowChains

-- What comes out of a sanitizer. No taint flows through a call of one, so such a call is tainted only
-- where it is a source itself. An expression is free of taint when every source and every parameter
-- that can be reached from it stands inside calls of sanitizers.

namespace XPathTaint

/-! ## Places outside of sanitizers -/

/-- A part of an expression that stands inside no call of a sanitizer: neither in the function nor
in the arguments of one. -/
inductive Unsanitized (reg : Registry) (r : Expr) : Expr → Prop
  | self : Unsanitized reg r r
  | object {object : Expr} {attr : String} {o : Origin} :
      Unsanitized reg r object → Unsanitized reg r (.member object attr o)
  | item {value index : Expr} {o : Origin} :
      Unsanitized reg r value → Unsanitized reg r (.subscript value index o)
  | index {value index : Expr} {o : Origin} :
      Unsanitized reg r index → Unsanitized reg r (.subscript value index o)
  | func {func : Expr} {callee : Option String} {args : List Argument} {o : Origin} :
      callee.filter reg.isSanitizer = none → Unsanitized reg r func →
      Unsanitized reg r (.call func callee args o)
  | argument {func : Expr} {callee : Option String} {args : List Argument} {o : Origin}
      {a : Argument} : callee.filter reg.isSanitizer = none → a ∈ args →
      Unsanitized reg r a.value → Unsanitized reg r (.call func callee args o)
  | operand {e : Expr} {operands : List Expr} {o : Origin} : e ∈ operands →
      Unsanitized reg r e → Unsanitized reg r (.compound operands o)

section

variable {facts : FileFacts} {reg : Registry} {maxHops : Nat} {scope : ScopeId} {block : BlockPath}
  {e r : Expr} {t : Taint}

/-- Taint flows on only outside of sanitizers. -/
theorem unsanitized_of_flowsInto (h : FlowsInto reg r e) : Unsanitized reg r e := by
  induction h with
  | self => exact .self
  | object _ ih => exact .object ih
  | item _ ih => exact .item ih
  | argument hs ha _ ih => exact .argument hs ha ih
  | operand he _ ih => exact .operand he ih
  | @receiver func object callee args o hs ho _ ih =>
    cases func with
    | member inner attr o' =>
      obtain rfl : inner = object := Option.some.inj ho
      exact .func hs (.object ih)
    | _ => cases ho

/-- Inside a call of a sanitizer there is nothing outside of it. -/
theorem unsanitized_sanitizer_iff {func : Expr} {name : String} {args : List Argument} {o : Origin}
    (hs : reg.isSanitizer name = true) :
    Unsanitized reg r (.call func (some name) args o) ↔ r = .call func (some name) args o := by
  constructor
  · intro h
    cases h with
    | self => rfl
    | func hnone => simp [Option.filter, hs] at hnone
    | argument hnone => simp [Option.filter, hs] at hnone
  · rintro rfl
    exact .self

/-- Where taint begins in an expression, a part outside of all sanitizers is a source or the read of
a parameter. -/
theorem Begins.exists_unsanitized (h : Begins facts reg scope block e t) :
    ∃ r, Unsanitized reg r e ∧ ((sourceOf facts.symbols reg r).isSome ∨
      ∃ name f, r.dotted = some name ∧ OpenParam facts scope block name r.pos f) := by
  cases h with
  | source hr hs => exact ⟨_, unsanitized_of_flowsInto hr, Or.inl (by rw [hs]; rfl)⟩
  | param hr hd hp => exact ⟨_, unsanitized_of_flowsInto hr, Or.inr ⟨_, _, hd, hp⟩⟩

/-- A call of a sanitizer is tainted as far as it is a source, whatever its receiver and its
arguments are. -/
theorem taintOf_sanitizer {func : Expr} {name : String} {args : List Argument} {o : Origin}
    (hs : reg.isSanitizer name = true) :
    (taintOf facts reg maxHops (.call func (some name) args o) scope block).1 =
      (sourceOf facts.symbols reg (.call func (some name) args o)).map
        fun kind => ⟨kind, [.at o.text o.place]⟩ := by
  have hfilter : (some name).filter reg.isSanitizer = some name := by simp [Option.filter, hs]
  unfold taintOf
  rw [taintWithin_eq]
  rcases hsource : sourceOf facts.symbols reg (.call func (some name) args o) with _ | kind
  · rw [exprTaint_sanitized _ _ _ _ _ _ hsource hfilter]
    rfl
  · rw [exprTaint_source hsource]
    rfl

end

/-! ## What comes out of sanitizers -/

/-- No taint comes out of a sanitizer. A call of one is tainted only where it is a source itself,
whatever its receiver and its arguments are; and where no chain of bindings, each of them read
outside of sanitizers, leads from an expression to a source or to the read of a parameter that stand
outside of sanitizers too, the expression is not tainted. -/
theorem no_taint_comes_out_of_a_sanitizer (facts : FileFacts) (reg : Registry) (maxHops : Nat)
    (scope : ScopeId) (block : BlockPath) :
    (∀ func name args o, reg.isSanitizer name = true →
      (taintOf facts reg maxHops (.call func (some name) args o) scope block).1 =
        (sourceOf facts.symbols reg (.call func (some name) args o)).map
          fun kind => ⟨kind, [.at o.text o.place]⟩) ∧
    ∀ e, (∀ bs last v r, Chain facts scope (Unsanitized reg) block e bs last v →
        Unsanitized reg r v → sourceOf facts.symbols reg r = none ∧
          ∀ name f, r.dotted = some name → ¬ OpenParam facts scope last name r.pos f) →
      (taintOf facts reg maxHops e scope block).1 = none := by
  refine ⟨fun _ _ _ _ hs => taintOf_sanitizer hs, ?_⟩
  intro e hinside
  rcases htaint : (taintOf facts reg maxHops e scope block).1 with _ | t
  · rfl
  · exfalso
    have hfound : taintWithin facts reg maxHops scope maxHops block e .start =
        (some t, (taintWithin facts reg maxHops scope maxHops block e .start).2) :=
      Prod.ext htaint rfl
    obtain ⟨bs, last, v, start, hchain, _, hbegins, _⟩ := chain_of_taintWithin hfound
    obtain ⟨r, hr, hend⟩ := hbegins.exists_unsanitized
    obtain ⟨hsource, hparam⟩ :=
      hinside bs last v r (hchain.mono fun _ _ => unsanitized_of_flowsInto) hr
    rcases hend with hsome | ⟨name, f, hd, hopen⟩
    · rw [hsource] at hsome
      cases hsome
    · exact hparam name f hd hopen

/-! ## A number made of a query -/

/-- `int(q)` -/
def numberCall : Expr :=
  .call (.name "int" default) (some "int") [⟨none, .none, readOf "q"⟩] ⟨"int(q)", 20, default⟩

/-- `q = request.args` and `n = int(q)`. -/
def numberFacts : FileFacts :=
  { FileFacts.empty "app.py" "python" with
    bindings :=
      [{ id := 1, name := "q", value := .member (.name "request" default) "args" default,
         scope := moduleScope, block := [], pos := 5, place := default },
       { id := 2, name := "n", value := numberCall, scope := moduleScope, block := [], pos := 30,
         place := default }] }

def numberRead : Expr := .name "n" ⟨"n", 50, default⟩

/-- `"//a" + n` -/
def numberPath : Expr := .compound [.literal "//a" default, numberRead] ⟨"'//a' + n", 40, default⟩

theorem unsanitized_numberPath {r : Expr} (h : Unsanitized .builtin r numberPath) :
    r = numberPath ∨ r = .literal "//a" default ∨ r = numberRead := by
  cases h with
  | self => exact Or.inl rfl
  | operand he hr =>
    rcases List.mem_cons.mp he with rfl | he
    · cases hr
      exact Or.inr (Or.inl rfl)
    · obtain rfl := List.mem_singleton.mp he
      cases hr
      exact Or.inr (Or.inr rfl)

/-- Nothing is reached from the call of a sanitizer: it has no part outside of itself to read. -/
theorem chain_of_numberCall {bs : List Binding} {block last : BlockPath} {v : Expr}
    (h : Chain numberFacts moduleScope (Unsanitized .builtin) block numberCall bs last v) :
    v = numberCall := by
  cases h with
  | nil => rfl
  | snoc hread =>
    obtain ⟨r, hr, hd, _⟩ := hread
    obtain rfl := (unsanitized_sanitizer_iff (by decide)).mp hr
    cases hd

theorem chain_of_numberPath {bs : List Binding} {last : BlockPath} {v : Expr}
    (h : Chain numberFacts moduleScope (Unsanitized .builtin) [] numberPath bs last v) :
    v = numberPath ∨ v = numberCall := by
  cases h with
  | nil => exact Or.inl rfl
  | @snoc _ _ _ _ b _ hread hrest =>
    obtain ⟨r, hr, hd, hb⟩ := hread
    have hname : b.name = "n" := by
      rcases unsanitized_numberPath hr with rfl | rfl | rfl
      · cases hd
      · cases hd
      · exact (Option.some.inj hd).symm
    have hvalues : ∀ c ∈ numberFacts.bindings, c.name = "n" → c.value = numberCall := by
      simp [numberFacts]
    rw [hvalues b (mem_of_mem_reachingBindings hb) hname] at hrest
    exact Or.inr (chain_of_numberCall hrest)

theorem no_taint_comes_out_of_a_sanitizer_of_a_number :
    Registry.builtin.isSanitizer "int" = true ∧
      (taintOf numberFacts .builtin 16 numberCall moduleScope []).1 = none ∧
      (taintOf numberFacts .builtin 16 (readOf "q") moduleScope []).1.isSome ∧
      (taintOf numberFacts .builtin 16 numberPath moduleScope []).1 = none := by
  have hint : Registry.builtin.isSanitizer "int" = true := by decide
  have hall := no_taint_comes_out_of_a_sanitizer numberFacts .builtin 16 moduleScope []
  refine ⟨hint, hall.1 _ _ _ _ hint, by cbv, hall.2 numberPath ?_⟩
  intro bs last v r hchain hr
  constructor
  · rcases chain_of_numberPath hchain with rfl | rfl
    · rcases unsanitized_numberPath hr with rfl | rfl | rfl <;> rfl
    · obtain rfl := (unsanitized_sanitizer_iff hint).mp hr
      rfl
  · intro name f route hopen
    cases hopen.function

/-- `request.args.get('q')`, whose method has the name of a sanitizer, is a source all the same. -/
theorem an_accessor_named_like_a_sanitizer_is_tainted :
    let reg := Registry.ofCatalog { Catalog.empty with sanitizers := ["get"] }
    let args : Expr := .member (.name "request" default) "args" default
    let call : Expr := .call (.member args "get" default) (some "request.args.get")
      [⟨none, .none, .literal "q" default⟩] default
    reg.isSanitizer "request.args.get" = true ∧
      (taintOf (.empty "app.py" "python") reg 16 call moduleScope []).1 ≠ none := by
  decide +kernel

end XPathTaint
