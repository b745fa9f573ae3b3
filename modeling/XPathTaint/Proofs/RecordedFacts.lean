import XPathTaint.Proofs.FactNodes
import XPathTaint.Proofs.ScopeTable

-- The lowering records just the facts of a program, in their order: a call site for each call, a
-- binding for each name or path that is bound, and a scope for each definition.

namespace XPathTaint.Python

/-! ## Traces of facts -/

/-- What is left of a fact in its record. -/
inductive Trace where
  | call (span : Span)
  | bind (name : String) (place : Place)
  | definition (heading : Heading)

/-- The record of a fact. -/
def FactNode.trace (path : String) (symbols : Symbols) : FactNode → Trace
  | call s => .call s
  | bind name s => .bind name (placeIn path s)
  | definition d => .definition (d.heading symbols)

namespace Trace

def call? : Trace → Option Span
  | call s => some s
  | _ => none

def bind? : Trace → Option (String × Place)
  | bind name place => some (name, place)
  | _ => none

def heading? : Trace → Option Heading
  | definition heading => some heading
  | _ => none

end Trace

def Item.trace? : Item → Option Trace
  | .read _ => none
  | .call s _ _ _ => some (.call s)
  | .bind _ name _ _ place => some (.bind name place)

namespace Outline

/-- What an outline records. -/
def traces : Outline → List Trace
  | nothing => []
  | item x => x.trace?.toList
  | both one other => one.traces ++ other.traces
  | block body => body.traces
  | definition heading body => .definition heading :: body.traces

variable {parts : List Outline}

@[simp] theorem traces_both (one other : Outline) :
    (both one other).traces = one.traces ++ other.traces := rfl

@[simp] theorem traces_block (body : Outline) : (block body).traces = body.traces := rfl

@[simp] theorem traces_definition (heading : Heading) (body : Outline) :
    (definition heading body).traces = .definition heading :: body.traces := rfl

@[simp] theorem traces_all : (all parts).traces = parts.flatMap traces := by
  induction parts with
  | nil => rfl
  | cons part rest ih => rw [all, traces_both, ih, List.flatMap_cons]

end Outline

section

variable (path : String) (symbols : Symbols)

/-- The records of facts. -/
def tracesOf (fs : List FactNode) : List Trace := fs.map (FactNode.trace path symbols)

@[simp] theorem tracesOf_append (fs gs : List FactNode) :
    tracesOf path symbols (fs ++ gs) = tracesOf path symbols fs ++ tracesOf path symbols gs :=
  List.map_append

@[simp] theorem tracesOf_cons (f : FactNode) (fs : List FactNode) :
    tracesOf path symbols (f :: fs) = f.trace path symbols :: tracesOf path symbols fs := rfl

theorem tracesOf_ite (taking : Bool) (fs : List FactNode) :
    tracesOf path symbols (if taking then fs else []) =
      if taking then tracesOf path symbols fs else [] := by
  cases taking <;> rfl

/-! ## Expressions -/

/-- Storing in the value of a node binds what the node says. -/
theorem traces_taking (n : Node) (value : Expr) (pos : Nat) :
    (Outline.taking (n.expr path symbols) value pos).traces = tracesOf path symbols n.stored := by
  induction n using Node.ind with
  | string s values formats ihv ihf =>
    rw [Node.expr]
    split <;> rfl
  | strings s parts ih =>
    rw [Node.expr]
    unfold joinStrings
    split <;> rfl
  | member s object attr ih =>
    have hdotted := dotted_expr path symbols (.member s object attr)
    unfold Outline.taking taking
    rw [Node.expr] at hdotted ⊢
    dsimp only
    have hstored : (Node.member s object attr).stored = (Node.member s object attr).bound := rfl
    rw [hdotted, hstored, Node.bound]
    cases (Node.member s object attr).path? <;> rfl
  | subscript s base indices ihb ihi =>
    have hplace : (base.expr path symbols).place = placeIn path base.core.span := by
      rw [Expr.place, expr_origin path symbols base]
      rfl
    unfold Outline.taking taking
    rw [Node.expr, Node.stored, Node.bound]
    dsimp only
    rw [dotted_expr path symbols base, hplace]
    cases base.path? <;> rfl
  | paren s lead inner ih => exact ih
  | walrus s target inner ih => exact ih
  | _ => rfl

theorem traces_goal (goal : Goal) (n : Node) :
    (goal.outline (n.expr path symbols)).traces =
      if goal.takes then tracesOf path symbols n.stored else [] := by
  cases goal with
  | value => rfl
  | target given pairwise pos => exact traces_taking path symbols n given pos

/-! ## Nodes -/

/-- The outline of a node records the facts in it, whatever it is read for. -/
def Node.Traced (n : Node) : Prop :=
  ∀ goal, (n.outline path symbols goal).traces = tracesOf path symbols (n.facts goal.takes)

variable {path symbols} {ns : List Node}

theorem Node.Traced.value {n : Node} (h : n.Traced path symbols) :
    (n.outline path symbols .value).traces = tracesOf path symbols (n.facts false) := h .value

theorem traces_nodes (h : ∀ n ∈ ns, n.Traced path symbols) :
    (Node.outlineOfAll path symbols ns).traces =
      tracesOf path symbols (Node.factsOfAll false ns) := by
  induction ns with
  | nil => rfl
  | cons n rest ih =>
    rw [Node.outlineOfAll, Node.factsOfAll, Outline.traces_both, tracesOf_append,
      (h n (by simp)).value, ih fun m hm => h m (List.mem_cons_of_mem _ hm)]

theorem traces_first (h : ∀ n ∈ ns, n.Traced path symbols) :
    (Node.outlineOfFirst path symbols ns).traces =
      tracesOf path symbols (Node.factsOfFirst ns) := by
  cases ns with
  | nil => rfl
  | cons n rest => exact (h n (by simp)).value

theorem traces_arguments {args : List (ArgumentOf Node)}
    (h : ∀ arg ∈ args, arg.value.Traced path symbols) :
    (Node.outlineOfArguments path symbols args).traces =
      tracesOf path symbols (Node.factsOfArguments args) := by
  induction args with
  | nil => rfl
  | cons arg rest ih =>
    obtain ⟨keyword, splat, value⟩ := arg
    rw [Node.outlineOfArguments, Node.factsOfArguments, Outline.traces_both, tracesOf_append,
      (h ⟨keyword, splat, value⟩ (by simp)).value,
      ih fun arg harg => h arg (List.mem_cons_of_mem _ harg)]

theorem traces_clauses {clauses : List (ClauseOf Node)} (pos : Nat)
    (h : ∀ c ∈ clauses, c.Holds fun n => n.Traced path symbols) :
    (Node.outlineOfClauses path symbols pos clauses).traces =
      tracesOf path symbols (Node.factsOfClauses clauses) := by
  induction clauses with
  | nil => rfl
  | cons clause rest ih =>
    have hrest := ih fun c hc => h c (List.mem_cons_of_mem _ hc)
    have hclause := h clause (by simp)
    cases clause with
    | loop target sources =>
      have htarget := hclause.1
        (.target (Node.exprOfFirst path symbols (.unknown default) sources) false pos)
      simp only [Node.outlineOfClauses, Node.factsOfClauses, Outline.traces_both, tracesOf_append,
        traces_first hclause.2, htarget, hrest, Goal.takes]
    | guard condition =>
      have hcondition := Node.Traced.value (hclause : condition.Traced path symbols)
      simp only [Node.outlineOfClauses, Node.factsOfClauses, Outline.traces_both, tracesOf_append,
        hcondition, hrest]

/-- Targets, each with a value of its own. -/
theorem traces_targets {values : List Expr} (h : ∀ n ∈ ns, n.Traced path symbols)
    (hlen : values.length = ns.length) (pos : Nat) :
    (Node.outlineOfTargets path symbols pos values ns).traces =
      tracesOf path symbols (Node.factsOfAll true ns) := by
  induction ns generalizing values with
  | nil =>
    rw [Node.outlineOfTargets]
    rfl
  | cons n rest ih =>
    cases values with
    | nil => simp at hlen
    | cons value values =>
      have hn := h n (by simp) (.target value false pos)
      rw [Node.outlineOfTargets, Node.factsOfAll, Outline.traces_both, tracesOf_append, hn,
        ih (fun m hm => h m (List.mem_cons_of_mem _ hm)) (by simpa using hlen)]
      rfl

/-- Behind a bracket or star, where a comment takes the place of a target. -/
theorem traces_behind {inner : Node} (h : inner.Traced path symbols) (goal : Goal)
    (lead : Option Span) :
    (match goal, lead with
      | .target _ _ _, some _ => Outline.nothing
      | goal, _ => inner.outline path symbols goal).traces =
      tracesOf path symbols
        (if goal.takes && lead.isSome then [] else inner.facts goal.takes) := by
  cases goal with
  | value => exact h .value
  | target given pairwise pos =>
    cases lead with
    | none => exact h (.target given pairwise pos)
    | some comment => rfl

theorem traces_node (n : Node) : n.Traced path symbols := by
  induction n using Node.ind with
  | name s =>
    intro goal
    rw [Node.outline, Node.facts, tracesOf_ite]
    exact traces_goal path symbols goal (.name s)
  | constant s => exact fun goal => rfl
  | string s values formats ihv ihf => exact fun goal => traces_nodes ihv
  | strings s parts ih => exact fun goal => traces_nodes ih
  | member s object attr ih =>
    intro goal
    have hgoal := traces_goal path symbols goal (.member s object attr)
    rw [Node.expr] at hgoal
    simp only [Node.outline, Node.facts, Outline.traces_both, tracesOf_append, tracesOf_ite,
      ih.value, hgoal]
  | subscript s value indices ihv ihi =>
    intro goal
    have hgoal := traces_goal path symbols goal (.subscript s value indices)
    simp only [Node.outline, Node.facts, Outline.traces_both, tracesOf_append, tracesOf_ite,
      ihv.value, traces_first ihi, hgoal, List.append_assoc]
  | call s func args ihf iha =>
    intro goal
    simp only [Node.outline, Node.facts, Outline.traces_both, tracesOf_append, ihf.value,
      traces_arguments iha]
    rfl
  | paren s lead inner ih =>
    intro goal
    rw [Node.outline.eq_def, Node.facts]
    exact traces_behind ih goal lead
  | starred s lead inner ih =>
    intro goal
    rw [Node.outline.eq_def, Node.facts]
    exact traces_behind ih goal lead
  | hidden comment inner ih => exact fun goal => rfl
  | walrus s target value ih =>
    intro goal
    simp only [Node.outline, Node.facts, Outline.traces_both, tracesOf_append, tracesOf_cons,
      tracesOf_ite, ih.value, traces_goal path symbols goal value, List.append_assoc]
    rfl
  | aliased s value targetSpan target ihv iht =>
    intro goal
    simp only [Node.outline, Node.facts, Outline.traces_both, tracesOf_append, ihv.value,
      iht.value]
  | lambda s params defaults body ihd ihb =>
    intro goal
    simp only [Node.outline, Node.facts, Outline.traces_both, Outline.traces_definition,
      tracesOf_append, tracesOf_cons, traces_nodes ihd, ihb.value]
    rfl
  | comprehension s body clauses ihb ihc =>
    intro goal
    simp only [Node.outline, Node.facts, Outline.traces_both, Outline.traces_block,
      tracesOf_append, traces_clauses s.pos ihc, ihb.value]
  | test s parts ih => exact fun goal => traces_nodes ih
  | group s form parts ih =>
    intro goal
    rw [Node.outline.eq_def, Node.facts]
    dsimp only
    split
    · rename_i value pairwise pos
      exact traces_targets ih (length_valuesFor value pairwise parts.length) pos
    · rename_i hsequence
      have htaking : (goal.takes && form == .sequence) = false := by
        cases goal with
        | value => rfl
        | target value pairwise pos =>
          cases form with
          | sequence => exact (hsequence _ _ _ rfl rfl).elim
          | _ => rfl
      rw [htaking]
      exact traces_nodes ih

end

/-! ## Statements -/

section

variable (path : String) (symbols : Symbols)

theorem traces_value (n : Node) :
    (n.outline path symbols .value).traces = tracesOf path symbols (n.facts false) :=
  (traces_node n).value

theorem traces_target (n : Node) (given : Expr) (pairwise : Bool) (pos : Nat) :
    (n.outline path symbols (.target given pairwise pos)).traces =
      tracesOf path symbols (n.facts true) := traces_node n (.target given pairwise pos)

theorem traces_values (ns : List Node) :
    (Node.outlineOfAll path symbols ns).traces =
      tracesOf path symbols (Node.factsOfAll false ns) := traces_nodes fun n _ => traces_node n

theorem traces_outlineOfTargets (targets : List Node) (value : Expr) (pairwise : Bool)
    (pos : Nat) : (outlineOfTargets path symbols value pairwise pos targets).traces =
      tracesOf path symbols (Node.factsOfAll true targets.reverse) := by
  unfold outlineOfTargets
  split
  · rename_i h
    rw [h]
    rfl
  · rename_i last others h
    rw [h, Outline.traces_both, Outline.traces_all, Node.factsOfAll, tracesOf_append,
      traces_target path symbols last]
    clear h
    congr 1
    induction others with
    | nil => rfl
    | cons n rest ih =>
      rw [List.map_cons, List.flatMap_cons, Node.factsOfAll, tracesOf_append, ih,
        traces_target path symbols n]

theorem traces_item (n : Node) :
    (outlineOfItem path symbols n).traces = tracesOf path symbols n.factsOfItem := by
  cases n with
  | aliased s value targetSpan target =>
    simp only [outlineOfItem, Node.factsOfItem, Outline.traces_both, tracesOf_append,
      traces_value path symbols value, traces_target path symbols target]
  | _ => exact traces_value path symbols _

theorem traces_items (items : List Node) :
    (items.map (outlineOfItem path symbols)).flatMap Outline.traces =
      tracesOf path symbols (items.flatMap Node.factsOfItem) := by
  induction items with
  | nil => rfl
  | cons item rest ih =>
    rw [List.map_cons, List.flatMap_cons, List.flatMap_cons, tracesOf_append, ih,
      traces_item path symbols item]

theorem traces_head (head : Head) :
    (head.outline path symbols).traces = tracesOf path symbols head.facts := by
  cases head with
  | plain => rfl
  | condition value => exact traces_value path symbols value
  | guard value => rfl
  | handler kind target others =>
    have hkind : (Node.outlineOfFirst path symbols kind.toList).traces =
        tracesOf path symbols (Node.factsOfFirst kind.toList) :=
      traces_first fun n _ => traces_node n
    rw [Head.facts, tracesOf_append, ← hkind]
    cases target with
    | none => rfl
    | some target =>
      rw [Option.toList_some, Node.factsOfAll, Node.factsOfAll, List.append_nil]
      exact congrArg _ (traces_target path symbols target _ _ _)

variable {path symbols}

/-- The outline of a statement records the facts in it. -/
def Stmt.Traced (path : String) (symbols : Symbols) (t : Stmt) : Prop :=
  ∀ decorators, (t.outline path symbols (routeOf symbols decorators)).traces =
    tracesOf path symbols (t.facts decorators)

theorem traces_stmts {ts : List Stmt} (h : ∀ t ∈ ts, t.Traced path symbols) :
    (Stmt.outlineOfAll path symbols ts).traces = tracesOf path symbols (Stmt.factsOfAll ts) := by
  induction ts with
  | nil => rfl
  | cons t rest ih =>
    rw [Stmt.outlineOfAll, Stmt.factsOfAll, Outline.traces_both, tracesOf_append,
      ← h t (by simp) [], ih fun t ht => h t (List.mem_cons_of_mem _ ht)]
    rfl

theorem traces_branches {branches : List (BranchOf Stmt)}
    (h : ∀ b ∈ branches, ∀ t ∈ b.body, t.Traced path symbols) :
    (Stmt.outlineOfBranches path symbols branches).traces =
      tracesOf path symbols (Stmt.factsOfBranches branches) := by
  induction branches with
  | nil => rfl
  | cons b rest ih =>
    obtain ⟨head, body⟩ := b
    have hrest := ih fun b hb => h b (List.mem_cons_of_mem _ hb)
    simp only [Stmt.outlineOfBranches, Stmt.factsOfBranches, Outline.traces_both,
      Outline.traces_block, tracesOf_append, traces_head path symbols head,
      traces_stmts (h ⟨head, body⟩ (by simp)), hrest, List.append_assoc]

theorem traces_stmt (t : Stmt) : t.Traced path symbols := by
  induction t using Stmt.ind with
  | values parts => exact fun decorators => traces_values path symbols parts
  | assign stop targets value =>
    intro decorators
    cases value with
    | none => rfl
    | some value =>
      rw [Stmt.outline, Stmt.facts, Outline.traces_both, tracesOf_append,
        traces_value path symbols value, traces_outlineOfTargets path symbols targets]
  | augmented s target value =>
    intro decorators
    simp only [Stmt.outline, Stmt.facts, Outline.traces_both, tracesOf_append,
      traces_value path symbols target, traces_value path symbols value,
      traces_taking path symbols target]
  | imports clauses => exact fun decorators => rfl
  | choice condition body branches ihb ihr =>
    intro decorators
    simp only [Stmt.outline, Stmt.facts, Outline.traces_both, Outline.traces_block,
      tracesOf_append, traces_value path symbols condition, traces_stmts ihb, traces_branches ihr]
  | whileLoop condition body branches ihb ihr =>
    intro decorators
    simp only [Stmt.outline, Stmt.facts, Outline.traces_both, Outline.traces_block,
      tracesOf_append, traces_value path symbols condition, traces_stmts ihb, traces_branches ihr]
  | forLoop target source body branches ihb ihr =>
    intro decorators
    simp only [Stmt.outline, Stmt.facts, Outline.traces_both, Outline.traces_block,
      tracesOf_append, traces_value path symbols source, traces_target path symbols target,
      traces_stmts ihb, traces_branches ihr, List.append_assoc]
  | attempt body branches final ihb ihr ihf =>
    intro decorators
    simp only [Stmt.outline, Stmt.facts, Outline.traces_both, Outline.traces_block,
      tracesOf_append, traces_stmts ihb, traces_branches ihr, traces_stmts ihf]
  | withItems items body ihb =>
    intro decorators
    simp only [Stmt.outline, Stmt.facts, Outline.traces_both, Outline.traces_all,
      tracesOf_append, traces_items path symbols items, traces_stmts ihb]
  | cases subjects branches ihr =>
    intro decorators
    rw [Stmt.outline, Stmt.facts, Outline.traces_both, tracesOf_append,
      traces_first fun n _ => traces_node n, traces_branches ihr]
  | functionDef s name params defaults body ihb =>
    intro decorators
    simp only [Stmt.outline, Stmt.facts, Outline.traces_both, Outline.traces_definition,
      tracesOf_append, tracesOf_cons, traces_values path symbols defaults, traces_stmts ihb]
    rfl
  | classDef s name bases body ihb =>
    intro decorators
    simp only [Stmt.outline, Stmt.facts, Outline.traces_both, Outline.traces_definition,
      tracesOf_append, tracesOf_cons, traces_arguments fun arg _ => traces_node arg.value,
      traces_stmts ihb]
    rfl
  | decorated decorators definition ih =>
    intro outer
    rw [Stmt.outline, Stmt.facts, Outline.traces_both, tracesOf_append,
      traces_values path symbols decorators, ih decorators]

end

/-! ## Programs -/

namespace Outline

variable {β : Type} (c : Outline) (a : Around) (k : Nat)

/-- What is told from the items of an outline. -/
theorem filterMap_marks {f : Trace → Option β} (hf : ∀ heading, f (.definition heading) = none)
    (n : Nat) :
    (c.marks a k n).filterMap (fun m => m.item.trace?.bind f) = c.traces.filterMap f := by
  induction c generalizing a k n with
  | nothing => rfl
  | item x =>
    cases x with
    | read s => rfl
    | call s func callee args =>
      cases h : f (.call s) <;> simp [marks, traces, Item.trace?, Around.mark, h]
    | bind ahead name value pos place =>
      cases h : f (.bind name place) <;> simp [marks, traces, Item.trace?, Around.mark, h]
  | both one other ih₁ ih₂ =>
    rw [marks, List.filterMap_append, ih₁, ih₂, traces, List.filterMap_append]
  | block body ih => exact ih _ _ _
  | definition heading body ih => rw [marks, ih, traces, List.filterMap_cons_none (hf heading)]

/-- What is told from the scopes of an outline. -/
theorem map_table {f : Heading → β} {g : Scope → β}
    (hg : ∀ heading names id parent, g (Heading.scope heading a.path names id parent) = f heading) :
    (c.table a k).map g = (c.traces.filterMap Trace.heading?).map f := by
  induction c generalizing a k with
  | nothing => rfl
  | item x => cases x <;> rfl
  | both one other ih₁ ih₂ =>
    rw [table, List.map_append, ih₁ a k hg, ih₂ a _ hg, traces, List.filterMap_append,
      List.map_append]
  | block body ih => exact ih a k hg
  | definition heading body ih =>
    rw [table, List.map_cons, hg, ih (a.within k heading.name) (k + 1) hg]
    rfl

end Outline

section

variable (path : String) (symbols : Symbols) (p : Program)

theorem traces_program :
    (p.outline path symbols).traces = tracesOf path symbols p.facts :=
  traces_stmts fun t _ => traces_stmt t

theorem filterMap_program {β : Type} {f : Trace → Option β}
    (hf : ∀ heading, f (.definition heading) = none) :
    (p.marks path symbols).filterMap (fun m => m.item.trace?.bind f) =
      p.facts.filterMap fun fact => f (fact.trace path symbols) := by
  rw [Program.marks, Outline.filterMap_marks _ _ _ hf, traces_program, tracesOf,
    List.filterMap_map]
  rfl

/-- The number, text and place that a call is recorded with. -/
def callRecord (s : Span) : Nat × String × Place :=
  (stableId path s.line s.column ("call." ++ s.text), s.text, placeIn path s)

/-- The number, name and place that a binding is recorded with. -/
def bindingRecord (name : String) (place : Place) : Nat × String × Place :=
  (stableId path place.line place.column ("bind." ++ name), name, place)

/-- The call sites are the calls in a program. -/
theorem calls_of_facts :
    (lowerProgram path symbols p).calls.map (fun c => (c.id, c.text, c.place)) =
      p.callSpans.map (callRecord path) := by
  have hmark : ∀ m : Mark, (m.call? path).map (fun c => (c.id, c.text, c.place)) =
      (m.item.trace?.bind Trace.call?).map (callRecord path) := by
    rintro ⟨here, x⟩
    cases x <;> rfl
  have hfact : ∀ f : FactNode, (f.trace path symbols).call? = f.call? := by
    intro f
    cases f <;> rfl
  rw [calls_lowerProgram, List.map_filterMap]
  simp only [hmark]
  rw [← List.map_filterMap, filterMap_program path symbols p fun _ => rfl]
  simp only [hfact]
  rfl

/-- The bindings are those of the names and paths that a program binds. -/
theorem bindings_of_facts :
    (lowerProgram path symbols p).bindings.map (fun b => (b.id, b.name, b.place)) =
      p.binders.map (fun b => bindingRecord path b.1 (placeIn path b.2)) := by
  have hmark : ∀ m : Mark, (m.binding? path).map (fun b => (b.id, b.name, b.place)) =
      (m.item.trace?.bind Trace.bind?).map fun b => bindingRecord path b.1 b.2 := by
    rintro ⟨here, x⟩
    cases x <;> rfl
  have hfact : ∀ f : FactNode, (f.trace path symbols).bind? =
      f.bind?.map fun b => (b.1, placeIn path b.2) := by
    intro f
    cases f <;> rfl
  rw [bindings_lowerProgram, List.map_filterMap]
  simp only [hmark]
  rw [← List.map_filterMap, filterMap_program path symbols p fun _ => rfl]
  simp only [hfact]
  rw [← List.map_filterMap, List.map_map]
  rfl

/-- The scopes are those of the module and of the definitions in it. -/
theorem scopes_of_facts :
    (lowerProgram path symbols p).scopes.map (fun s => (s.place, s.params, s.route)) =
      (placeIn path p.start, [], none) ::
        p.definitions.map fun d => (placeIn path d.span, d.params, d.route symbols) := by
  have htable : ((p.outline path symbols).table (.ofModule path symbols) 1).map
      (fun s => (s.place, s.params, s.route)) =
      ((p.outline path symbols).traces.filterMap Trace.heading?).map
        fun h => (placeIn path h.span, h.params, h.route) :=
    Outline.map_table _ _ _ fun _ _ _ _ => rfl
  have hheading : ∀ f : FactNode, (f.trace path symbols).heading? =
      f.definition?.map (·.heading symbols) := by
    intro f
    cases f <;> rfl
  rw [scopes_lowerProgram, List.map_cons, htable, traces_program, tracesOf, List.filterMap_map,
    Program.definitions]
  simp only [Function.comp_def, hheading]
  rw [← List.map_filterMap, List.map_map]
  rfl

end

end XPathTaint.Python
