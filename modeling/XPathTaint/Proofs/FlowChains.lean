import XPathTaint.Proofs.BindingChains
import XPathTaint.Proofs.TaintMemory

-- What a flow is, as a chain of bindings: it starts at a source or at a parameter of a route, and
-- each hop stands where taint flows on. Every flow that the search reports is such a chain, step
-- by step as its trace tells it, and the budget of hops bounds the length of the chain.

namespace XPathTaint

section

variable {facts : FileFacts} {reg : Registry} {e : Expr} {t : Taint} {s s' : Search}
  {maxHops budget : Nat} {scope : ScopeId} {block : BlockPath} {name : String}

/-! ## Chains of a flow -/

/-- A parameter of the routed function of a scope, at a place where no binding is sure to have
replaced it. -/
structure OpenParam (facts : FileFacts) (scope : ScopeId) (block : BlockPath) (name : String)
    (pos : Nat) (f : Scope) : Prop where
  function : facts.scope? scope = some f
  routed : f.isEntrypoint = true
  param : name ∈ f.params
  uncovered : ∀ b ∈ facts.bindings, b.scope = scope → b.name = name → b.pos ≤ pos →
    dominates b.block block = false

/-- How taint begins in an expression, with the one step that its trace has then. -/
inductive Begins (facts : FileFacts) (reg : Registry) (scope : ScopeId) (block : BlockPath)
    (e : Expr) : Taint → Prop
  | source {r : Expr} {kind : SourceKind} : FlowsInto reg r e →
      sourceOf facts.symbols reg r = some kind →
      Begins facts reg scope block e ⟨kind, [.at r.text r.place]⟩
  | param {r : Expr} {name : String} {f : Scope} : FlowsInto reg r e → r.dotted = some name →
      OpenParam facts scope block name r.pos f →
      Begins facts reg scope block e
        ⟨.routeParam f.name name, [.at ("def " ++ f.name ++ "(" ++ name ++ ", ...)") f.place]⟩

/-- Where taint begins, its trace is a single step. -/
theorem Begins.trace (h : Begins facts reg scope block e t) :
    ∃ start, t = ⟨t.source, [start]⟩ := by
  cases h with
  | source => exact ⟨_, rfl⟩
  | param => exact ⟨_, rfl⟩

theorem routeParam_eq_some (h : routeParam facts scope name = some t) :
    ∃ f, facts.scope? scope = some f ∧ f.isEntrypoint = true ∧ name ∈ f.params ∧
      t = ⟨.routeParam f.name name, [.at ("def " ++ f.name ++ "(" ++ name ++ ", ...)") f.place]⟩ := by
  unfold routeParam at h
  split at h
  · rename_i f hf
    split at h
    · rename_i hp
      rw [Bool.and_eq_true, List.contains_iff_mem] at hp
      cases h
      exact ⟨f, hf, hp.1, hp.2, rfl⟩
    · cases h
  · cases h

/-- What the search finds in an expression begins there, or was found in the value of a binding that
is read there, with one hop less. -/
theorem taintWithin_eq_some
    (h : taintWithin facts reg maxHops scope budget block e s = (some t, s')) :
    Begins facts reg scope block e t ∨
      ∃ b left found s₁, Reads facts scope (FlowsInto reg) block e b ∧ budget = left + 1 ∧
        taintWithin facts reg maxHops scope left b.block b.value s₁ = (some found, s') ∧
        t = { found with trace := found.trace ++ [bindingStep facts b.name b] } := by
  rw [taintWithin_eq] at h
  obtain ⟨r, hr, ⟨kind, hs, rfl⟩ | ⟨path, s₁, hd, h⟩⟩ := exprTaint_eq_some h
  · exact Or.inl (.source hr hs)
  · rcases (readThrough_eq_some h).2 with h | ⟨hc, hp⟩
    · obtain ⟨b, hb, found, s₂, hfound, ht⟩ := enterBindings_eq_some h
      obtain rfl : b.name = path := name_of_mem_reachingBindings hb
      cases budget with
      | zero => cases hfound
      | succ left => exact Or.inr ⟨b, left, found, s₂, ⟨r, hr, hd, hb⟩, rfl, hfound, ht⟩
    · obtain ⟨f, hf, hrouted, hparam, rfl⟩ := routeParam_eq_some hp
      exact Or.inl (.param hr hd ⟨hf, hrouted, hparam, uncovered_iff.mp hc⟩)

/-- What the search finds within a budget began at the end of a chain with at most so many hops,
and its trace tells them all. -/
theorem chain_of_taintWithin
    (h : taintWithin facts reg maxHops scope budget block e s = (some t, s')) :
    ∃ bs last v start, Chain facts scope (FlowsInto reg) block e bs last v ∧ bs.length ≤ budget ∧
      Begins facts reg scope last v ⟨t.source, [start]⟩ ∧
      t.trace = start :: bs.map fun b => bindingStep facts b.name b := by
  induction budget using Nat.strongRecOn generalizing block e s s' t with
  | _ budget ih =>
    rcases taintWithin_eq_some h with hbegins | ⟨b, left, found, s₁, hread, rfl, hfound, rfl⟩
    · obtain ⟨start, hstart⟩ := hbegins.trace
      rw [hstart] at hbegins ⊢
      exact ⟨[], block, e, start, .nil, Nat.zero_le _, hbegins, rfl⟩
    · obtain ⟨bs, last, v, start, hchain, hlen, hbegins, htrace⟩ := ih left (by omega) hfound
      refine ⟨bs ++ [b], last, v, start, .snoc hread hchain, by simpa using hlen, hbegins, ?_⟩
      rw [List.map_append, List.map_singleton, ← List.cons_append, ← htrace]

/-- Every flow that is reported has a witness: a chain of bindings of its own scope, as many as its
trace has steps behind the first, that leads from where the taint begins to the expression. -/
theorem every_flow_follows_a_chain (facts : FileFacts) (reg : Registry) (maxHops : Nat) (e : Expr)
    (scope : ScopeId) (block : BlockPath) (t : Taint)
    (h : (taintOf facts reg maxHops e scope block).1 = some t) :
    ∃ bs last v start, Chain facts scope (FlowsInto reg) block e bs last v ∧
      (∀ b ∈ bs, b ∈ facts.bindings ∧ b.scope = scope) ∧
      bs.length = t.trace.length - 1 ∧ bs.length ≤ maxHops ∧
      Begins facts reg scope last v ⟨t.source, [start]⟩ ∧
      t.trace = start :: bs.map fun b => bindingStep facts b.name b := by
  have hfound : taintWithin facts reg maxHops scope maxHops block e .start =
      (some t, (taintWithin facts reg maxHops scope maxHops block e .start).2) := Prod.ext h rfl
  obtain ⟨bs, last, v, start, hchain, hlen, hbegins, htrace⟩ := chain_of_taintWithin hfound
  exact ⟨bs, last, v, start, hchain, hchain.mem, by simp [htrace], hlen, hbegins, htrace⟩

theorem every_flow_follows_a_chain_of_mutual_bindings :
    ∃ t bs last v start, (taintOf mutualFacts .builtin 3 (readOf "a") moduleScope []).1 = some t ∧
      Chain mutualFacts moduleScope (FlowsInto .builtin) [] (readOf "a") bs last v ∧
      bs.length = 2 ∧ Begins mutualFacts .builtin moduleScope last v ⟨t.source, [start]⟩ ∧
      t.source = .requestInput "request" "args" := by
  have hfound : (taintOf mutualFacts .builtin 3 (readOf "a") moduleScope []).1 =
      some ⟨.requestInput "request" "args",
        [⟨0, 0, "request.args"⟩, ⟨0, 0, "b"⟩, ⟨0, 0, "a"⟩]⟩ := by cbv
  obtain ⟨bs, last, v, start, hchain, _, hlen, _, hbegins, _⟩ :=
    every_flow_follows_a_chain mutualFacts .builtin 3 (readOf "a") moduleScope [] _ hfound
  exact ⟨_, bs, last, v, start, hfound, hchain, hlen, hbegins, rfl⟩

/-! ## How far a flow is followed -/

theorem exists_openParam_iff {pos : Nat} : (∃ f, OpenParam facts scope block name pos f) ↔
    (reachingWithCover facts name scope block pos).2 = false ∧
      (routeParam facts scope name).isSome := by
  constructor
  · rintro ⟨f, hf, hrouted, hparam, huncovered⟩
    refine ⟨uncovered_iff.mpr huncovered, ?_⟩
    simp [routeParam, hf, hrouted, hparam]
  · rintro ⟨hc, hp⟩
    obtain ⟨t, ht⟩ := Option.isSome_iff_exists.mp hp
    obtain ⟨f, hf, hrouted, hparam, _⟩ := routeParam_eq_some ht
    exact ⟨f, hf, hrouted, hparam, uncovered_iff.mp hc⟩

/-- Where a chain may end with a number of hops left: at a source, or at the read of a parameter.
Once no hop is left, a parameter counts only if there is no binding at all that may replace it. -/
def FlowEnds (facts : FileFacts) (reg : Registry) (scope : ScopeId) (left : Nat)
    (block : BlockPath) (e : Expr) : Prop :=
  ∃ r, FlowsInto reg r e ∧ ((sourceOf facts.symbols reg r).isSome ∨
    ∃ name f, r.dotted = some name ∧ OpenParam facts scope block name r.pos f ∧
      (left = 0 → reachingBindings facts name scope block r.pos = []))

/-- Tainted reads carry taint into an expression exactly where a chain within the budget leads from
it to an end. -/
theorem carries_iff_leadsWithin :
    Carries facts.symbols reg (TaintsRead facts reg scope budget block) e ↔
      LeadsWithin facts scope (FlowsInto reg) (FlowEnds facts reg scope) budget block e := by
  induction budget generalizing block e with
  | zero =>
    rw [carries_iff, leadsWithin_zero]
    constructor
    · rintro ⟨r, hr, hs | ⟨path, hd, hnil, hp⟩⟩
      · exact ⟨r, hr, Or.inl hs⟩
      · obtain ⟨f, hf⟩ := exists_openParam_iff.mpr ⟨uncovered_of_nil hnil, hp⟩
        exact ⟨r, hr, Or.inr ⟨path, f, hd, hf, fun _ => hnil⟩⟩
    · rintro ⟨r, hr, hs | ⟨path, f, hd, hf, hnil⟩⟩
      · exact ⟨r, hr, Or.inl hs⟩
      · exact ⟨r, hr, Or.inr ⟨path, hd, hnil rfl, (exists_openParam_iff.mp ⟨f, hf⟩).2⟩⟩
  | succ budget ih =>
    rw [carries_iff, leadsWithin_succ]
    simp only [TaintsRead, ih]
    constructor
    · rintro ⟨r, hr, hs | ⟨path, hd, ⟨b, hb, hleads⟩ | hp⟩⟩
      · exact Or.inl ⟨r, hr, Or.inl hs⟩
      · exact Or.inr ⟨b, .of_dotted hr hd hb, hleads⟩
      · obtain ⟨f, hf⟩ := exists_openParam_iff.mpr hp
        exact Or.inl ⟨r, hr, Or.inr ⟨path, f, hd, hf, by simp⟩⟩
    · rintro (⟨r, hr, hs | ⟨path, f, hd, hf, _⟩⟩ | ⟨b, ⟨r, hr, hd, hb⟩, hleads⟩)
      · exact ⟨r, hr, Or.inl hs⟩
      · exact ⟨r, hr, Or.inr ⟨path, hd, Or.inr (exists_openParam_iff.mp ⟨f, hf⟩)⟩⟩
      · exact ⟨r, hr, Or.inr ⟨b.name, hd, Or.inl ⟨b, hb, hleads⟩⟩⟩

/-- A flow is found exactly where a chain of at most `maxHops` bindings leads to a source, or to a
read of a parameter that no binding is sure to have replaced. The two ends count hops the same way,
except that a parameter that some binding may have replaced needs one hop to spare. -/
theorem a_flow_is_found_within_its_hops (facts : FileFacts) (hids : DistinctIds facts)
    (reg : Registry) (maxHops : Nat) (e : Expr) (scope : ScopeId) (block : BlockPath) :
    (taintOf facts reg maxHops e scope block).1.isSome ↔
      ∃ bs last v r, Chain facts scope (FlowsInto reg) block e bs last v ∧ bs.length ≤ maxHops ∧
        FlowsInto reg r v ∧ ((sourceOf facts.symbols reg r).isSome ∨
          ∃ name f, r.dotted = some name ∧ OpenParam facts scope last name r.pos f ∧
            (bs.length = maxHops → reachingBindings facts name scope last r.pos = [])) := by
  rw [taintOf_isSome_iff hids, carries_iff_leadsWithin]
  unfold LeadsWithin FlowEnds
  constructor
  · rintro ⟨bs, last, v, hchain, hlen, r, hr, hends⟩
    refine ⟨bs, last, v, r, hchain, hlen, hr, hends.imp id ?_⟩
    rintro ⟨name, f, hd, hf, hleft⟩
    exact ⟨name, f, hd, hf, fun hfull => hleft (by omega)⟩
  · rintro ⟨bs, last, v, r, hchain, hlen, hr, hends⟩
    refine ⟨bs, last, v, hchain, hlen, r, hr, hends.imp id ?_⟩
    rintro ⟨name, f, hd, hf, hfull⟩
    exact ⟨name, f, hd, hf, fun hleft => hfull (by omega)⟩

end

/-! ## A parameter that a branch replaces -/

/-- The names of the function below, where they are read. -/
def nameRead : Expr := .name "name" ⟨"name", 77, ⟨"app.py", 5, 9⟩⟩

def queryRead : Expr := .name "q" ⟨"q", 91, ⟨"app.py", 6, 10⟩⟩

/-- Replaces the parameter in a branch. -/
def nameBinding : Binding :=
  { id := 1, name := "name", value := .literal "x" ⟨"'x'", 65, ⟨"app.py", 4, 16⟩⟩, scope := 1,
    block := [1], pos := 68, place := ⟨"app.py", 4, 9⟩ }

def queryBinding : Binding :=
  { id := 2, name := "q", value := nameRead, scope := 1, block := [], pos := 81,
    place := ⟨"app.py", 5, 5⟩ }

def showScope : Scope :=
  { id := 1, name := "show", params := ["name"], route := some ⟨"app.route", some "/u/<name>"⟩,
    parent := some 0, place := ⟨"app.py", 2, 1⟩ }

/-- A routed function that replaces its parameter in a branch, and then binds it to another
name. -/
def branchFacts : FileFacts :=
  { FileFacts.empty "app.py" "python" with
    scopes :=
      [{ id := 0, name := "<module>", params := [], route := none, parent := none,
         place := ⟨"app.py", 1, 1⟩ }, showScope]
    bindings := [nameBinding, queryBinding] }

theorem chain_of_query :
    Chain branchFacts 1 (FlowsInto .builtin) [] queryRead [queryBinding] [] nameRead := by
  have hreaches : reachingBindings branchFacts "q" 1 [] 91 = [queryBinding] := by cbv
  have hread : Reads branchFacts 1 (FlowsInto .builtin) [] queryRead queryBinding :=
    ⟨queryRead, .self, rfl, hreaches ▸ List.mem_singleton_self _⟩
  have hchain : Chain branchFacts 1 (FlowsInto .builtin) [] queryRead ([] ++ [queryBinding]) []
      nameRead := .snoc hread .nil
  exact hchain

theorem openParam_of_name : OpenParam branchFacts 1 [] "name" nameRead.pos showScope where
  function := rfl
  routed := rfl
  param := List.mem_singleton_self _
  uncovered b hb _ hn _ := by
    rcases List.mem_cons.mp hb with rfl | hb
    · rfl
    · obtain rfl := List.mem_singleton.mp hb
      exact absurd hn (by decide)

theorem a_flow_is_found_within_its_hops_of_a_parameter :
    DistinctIds branchFacts ∧ (taintOf branchFacts .builtin 2 queryRead 1 []).1.isSome := by
  have hids : DistinctIds branchFacts := by decide
  refine ⟨hids, (a_flow_is_found_within_its_hops branchFacts hids .builtin 2 queryRead 1 []).mpr ?_⟩
  exact ⟨[queryBinding], [], nameRead, nameRead, chain_of_query, by decide, .self,
    Or.inr ⟨"name", showScope, rfl, openParam_of_name, by decide⟩⟩

/-- With one hop the parameter is lost, though the chain to it has a single binding. -/
theorem a_parameter_is_lost_at_the_last_hop :
    DistinctIds branchFacts ∧
      ¬ ((taintOf branchFacts .builtin 1 queryRead 1 []).1.isSome ↔
        ∃ bs last v r, Chain branchFacts 1 (FlowsInto .builtin) [] queryRead bs last v ∧
          bs.length ≤ 1 ∧ FlowsInto .builtin r v ∧
          ((sourceOf branchFacts.symbols .builtin r).isSome ∨
            ∃ name f, r.dotted = some name ∧ OpenParam branchFacts 1 last name r.pos f)) := by
  have hlost : (taintOf branchFacts .builtin 1 queryRead 1 []).1 = none := by cbv
  refine ⟨by decide, fun h => ?_⟩
  have hfound := h.mpr ⟨[queryBinding], [], nameRead, nameRead, chain_of_query, by decide, .self,
    Or.inr ⟨"name", showScope, rfl, openParam_of_name⟩⟩
  rw [hlost] at hfound
  cases hfound

end XPathTaint
