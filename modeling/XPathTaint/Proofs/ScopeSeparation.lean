import Mathlib.Data.List.Permutation
import XPathTaint.Proofs.TaintReads
import XPathTaint.Sink.Match

-- Scopes are apart: what is found at a call site depends on the bindings of its own scope only,
-- however the bindings of the other scopes differ.

namespace XPathTaint

/-- Two source units that look the same from a scope: they may differ in the bindings of all other
scopes, and in how many there are. -/
structure AgreeIn (scope : ScopeId) (f g : FileFacts) : Prop where
  symbols : f.symbols = g.symbols
  scopes : f.scopes = g.scopes
  source : f.source = g.source
  calls : f.calls = g.calls
  bindings : f.bindings.filter (·.scope == scope) = g.bindings.filter (·.scope == scope)

section

variable {scope : ScopeId} {f g : FileFacts} {reg : Registry} {maxHops budget : Nat}
  {block : BlockPath} {name : String} {pos : Nat}

/-! ## Reads -/

theorem earlierBindings_eq_filter : earlierBindings f name scope pos =
    ((f.bindings.filter (·.scope == scope)).filter fun b => decide (b.pos ≤ pos) && b.name == name
      ).mergeSort fun a b => decide (b.pos ≤ a.pos) := by
  unfold earlierBindings
  rw [List.filter_filter]
  congr 2
  funext b
  rw [Bool.and_assoc, Bool.and_comm]

theorem AgreeIn.reachingWithCover_eq (h : AgreeIn scope f g) (name : String) (block : BlockPath)
    (pos : Nat) :
    reachingWithCover f name scope block pos = reachingWithCover g name scope block pos := by
  unfold reachingWithCover
  rw [earlierBindings_eq_filter, earlierBindings_eq_filter, h.bindings]

theorem AgreeIn.reachingBindings_eq (h : AgreeIn scope f g) (name : String) (block : BlockPath)
    (pos : Nat) :
    reachingBindings f name scope block pos = reachingBindings g name scope block pos := by
  unfold reachingBindings
  rw [h.reachingWithCover_eq]

theorem AgreeIn.routeParam_eq (h : AgreeIn scope f g) (name : String) :
    routeParam f scope name = routeParam g scope name := by
  unfold routeParam FileFacts.scope?
  rw [h.scopes]

theorem AgreeIn.bindingStep_eq (h : AgreeIn scope f g) (name : String) (b : Binding) :
    bindingStep f name b = bindingStep g name b := by
  unfold bindingStep FileFacts.lineText?
  rw [h.source]

theorem AgreeIn.enterBindings_eq (h : AgreeIn scope f g) (enter : Binding → Search → Found)
    (bs : List Binding) (s : Search) :
    enterBindings f name budget enter bs s = enterBindings g name budget enter bs s := by
  induction bs generalizing s with
  | nil => rfl
  | cons b rest ih => simp only [enterBindings, ih, h.bindingStep_eq]

theorem AgreeIn.readPath_eq (h : AgreeIn scope f g) (enter : Binding → Search → Found) :
    readPath f maxHops scope block budget enter = readPath g maxHops scope block budget enter := by
  funext name o s
  unfold readPath
  rw [h.reachingWithCover_eq, h.routeParam_eq]
  simp only [h.enterBindings_eq]

/-! ## Expressions -/

theorem operandsTaint_congr {read : ReadPath} {operands : List Expr}
    (hall : ∀ e ∈ operands, ∀ s, exprTaint f reg read e s = exprTaint g reg read e s) (s : Search) :
    operandsTaint f reg read operands s = operandsTaint g reg read operands s := by
  induction operands generalizing s with
  | nil => simp [operandsTaint]
  | cons e rest ih =>
    have hrest := ih fun e he => hall e (List.mem_cons_of_mem _ he)
    rw [operandsTaint, operandsTaint, hall e (by simp)]
    congr 1
    funext s
    exact hrest s

/-- Apart from its reads, a search through an expression looks at the import aliases only. -/
theorem exprTaint_congr (h : f.symbols = g.symbols) (read : ReadPath) (e : Expr) (s : Search) :
    exprTaint f reg read e s = exprTaint g reg read e s := by
  induction e using Expr.ind generalizing s with
  | name id o => simp [exprTaint.eq_def, sourceOf]
  | literal value o => simp [exprTaint.eq_def, sourceOf]
  | unknown o => simp [exprTaint.eq_def, sourceOf]
  | member object attr o ih =>
    rcases hs : sourceOf f.symbols reg (.member object attr o) with _ | kind
    · rw [exprTaint_member _ _ _ _ hs, exprTaint_member _ _ _ _ (h ▸ hs)]
      congr 1
      funext s
      exact ih s
    · rw [exprTaint_source hs, exprTaint_source (h ▸ hs)]
  | subscript value index o ih =>
    rcases hs : sourceOf f.symbols reg (.subscript value index o) with _ | kind
    · rw [exprTaint_subscript _ _ _ _ hs, exprTaint_subscript _ _ _ _ (h ▸ hs), ih]
    · rw [exprTaint_source hs, exprTaint_source (h ▸ hs)]
  | call func callee args o ihf iha =>
    rcases hs : sourceOf f.symbols reg (.call func callee args o) with _ | kind
    · rcases hf : callee.filter reg.isSanitizer with _ | sanitizer
      · have hargs (s : Search) : operandsTaint f reg read (args.map (·.value)) s =
            operandsTaint g reg read (args.map (·.value)) s := by
          refine operandsTaint_congr (fun e he s => ?_) s
          obtain ⟨a, ha, rfl⟩ := List.mem_map.mp he
          exact iha a ha s
        rw [exprTaint_call _ _ _ _ _ hs hf, exprTaint_call _ _ _ _ _ (h ▸ hs) hf]
        congr 1
        · rcases hr : func.receiver? with _ | object
          · rfl
          · exact ihf.of_receiver hr s
        · funext s
          exact hargs s
      · rw [exprTaint_sanitized _ _ _ _ _ _ hs hf, exprTaint_sanitized _ _ _ _ _ _ (h ▸ hs) hf]
    · rw [exprTaint_source hs, exprTaint_source (h ▸ hs)]
  | compound operands o ih =>
    rw [exprTaint_compound, exprTaint_compound]
    exact operandsTaint_congr ih s

/-! ## Searches -/

/-- Every hop of a search stays in its scope, so the induction on the budget never meets a binding
of another one. -/
theorem AgreeIn.taintWithin_eq (h : AgreeIn scope f g) :
    taintWithin f reg maxHops scope budget = taintWithin g reg maxHops scope budget := by
  induction budget with
  | zero =>
    funext block e s
    rw [taintWithin, taintWithin, h.readPath_eq, exprTaint_congr h.symbols]
  | succ budget ih =>
    funext block e s
    rw [taintWithin, taintWithin, ih, h.readPath_eq, exprTaint_congr h.symbols]

theorem AgreeIn.taintOf_eq (h : AgreeIn scope f g) (e : Expr) :
    taintOf f reg maxHops e scope block = taintOf g reg maxHops e scope block := by
  unfold taintOf
  rw [h.taintWithin_eq]

theorem AgreeIn.resolveWithin_eq (h : AgreeIn scope f g) (test : Resolve → Resolve) :
    resolveWithin f scope test budget = resolveWithin g scope test budget := by
  induction budget with
  | zero => rfl
  | succ budget ih =>
    funext block
    have hthrough (check : Binding → Explored → Bool × Explored) :
        throughBindings f scope block (budget + 1) check =
          throughBindings g scope block (budget + 1) check := by
      funext e seen
      simp only [throughBindings, h.reachingBindings_eq]
    rw [resolveWithin, resolveWithin, ih, hthrough]

theorem AgreeIn.sinkOf_eq (h : AgreeIn scope f g) {call : CallSite} (hcall : call.scope = scope) :
    sinkOf f reg maxHops call = sinkOf g reg maxHops call := by
  subst hcall
  unfold sinkOf isDocument isEvaluator
  simp only [h.resolveWithin_eq]

/-- No flow crosses scopes: if two source units agree in all but the bindings of other scopes, then
each call site of the scope is the same match in both, and its values have the same taint there,
source and trace included. -/
theorem no_flow_crosses_scopes (f g : FileFacts) (scope : ScopeId) (h : AgreeIn scope f g)
    (reg : Registry) (maxHops : Nat) :
    ∀ call ∈ f.calls, call.scope = scope →
      call ∈ g.calls ∧ sinkOf f reg maxHops call = sinkOf g reg maxHops call ∧
        ∀ e block, taintOf f reg maxHops e call.scope block =
          taintOf g reg maxHops e call.scope block := by
  rintro call hcall rfl
  exact ⟨h.calls ▸ hcall, h.sinkOf_eq rfl, fun e _ => h.taintOf_eq e⟩

end

/-! ## A function beside a tainted name of its module -/

/-- The argument of the call below. -/
def innerRead : Expr := .name "q" ⟨"q", 90, default⟩

/-- `etree.XPath(q)` in the first function of a module. -/
def innerCall : CallSite :=
  { id := 1, callee := some "lxml.etree.XPath", args := [⟨none, .none, innerRead⟩], scope := 1,
    func := .member (.name "etree" ⟨"etree", 78, default⟩) "XPath" ⟨"etree.XPath", 78, default⟩
    block := [], pos := 78, place := default, text := "etree.XPath(q)" }

/-- Binds the same name in the module. -/
def moduleBinding : Binding :=
  { id := 1, name := "q", scope := moduleScope, block := [], pos := 16, place := default,
    value := .member (.name "request" ⟨"request", 4, default⟩) "args" ⟨"request.args", 4, default⟩ }

def innerFacts : FileFacts := { FileFacts.empty "app.py" "python" with calls := [innerCall] }

def outerFacts : FileFacts := { innerFacts with bindings := [moduleBinding] }

theorem no_flow_crosses_scopes_of_a_module :
    AgreeIn 1 outerFacts innerFacts ∧ innerCall ∈ outerFacts.calls ∧
      (taintOf outerFacts .builtin 4 innerRead moduleScope []).1.isSome ∧
      sinkOf outerFacts .builtin 4 innerCall = sinkOf innerFacts .builtin 4 innerCall ∧
      taintOf outerFacts .builtin 4 innerRead 1 [] = taintOf innerFacts .builtin 4 innerRead 1 [] := by
  have hagree : AgreeIn 1 outerFacts innerFacts := ⟨rfl, rfl, rfl, rfl, rfl⟩
  have hcall : innerCall ∈ outerFacts.calls := List.mem_singleton_self _
  obtain ⟨_, hsink, htaint⟩ :=
    no_flow_crosses_scopes outerFacts innerFacts 1 hagree .builtin 4 innerCall hcall rfl
  exact ⟨hagree, hcall, by cbv, hsink, htaint innerRead []⟩

end XPathTaint
