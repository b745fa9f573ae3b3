import XPathTaint.Proofs.CourseLowering
import XPathTaint.Proofs.ProgramOutline

-- The lowering records the outline of a program: every node and statement adds the scopes, calls
-- and bindings of its outline, whatever was found before and whatever surrounds it.

namespace XPathTaint.Python

/-! ## Steps -/

/-- Whatever was found before, `m` records an outline; events are no facts. -/
def Outlined {α : Type} (a : Around) (c : Outline) (m : Lowering α) : Prop :=
  ∀ s, ∃ events, (m s).2 = { s.record a c with events }

namespace Outlined

variable {a : Around} {c c' : Outline} {α β : Type} {m : Lowering α} {f : α → Lowering β}

theorem pure (x : α) : Outlined a .nothing (pure x : Lowering α) :=
  fun s => ⟨s.events, by rw [Lowered.record_nothing]; rfl⟩

/-- What comes next may depend on the value of what came before. -/
theorem both (value : α) (hvalue : ∀ s, (m s).1 = value) (h : Outlined a c m)
    (hf : Outlined a c' (f value)) : Outlined a (.both c c') (m >>= f) := by
  intro s
  obtain ⟨events, hm⟩ := h s
  obtain ⟨events', hrest⟩ := hf { s.record a c with events }
  refine ⟨events', ?_⟩
  rw [run_bind, hvalue, hm, hrest, Lowered.record_both]
  rfl

theorem andThen (h : Outlined a c m) (hf : ∀ x, Outlined a c' (f x)) :
    Outlined a (.both c c') (m >>= f) := by
  intro s
  obtain ⟨events, hm⟩ := h s
  obtain ⟨events', hrest⟩ := hf (m s).1 { s.record a c with events }
  refine ⟨events', ?_⟩
  rw [run_bind, hm, hrest, Lowered.record_both]
  rfl

/-- What follows may record nothing. -/
theorem andEnd (h : Outlined a c m) (hf : ∀ x, Outlined a .nothing (f x)) :
    Outlined a c (m >>= f) := by
  intro s
  obtain ⟨events, hs⟩ := h.andThen hf s
  exact ⟨events, by rw [hs, Lowered.record_both, Lowered.record_nothing]⟩

/-- Parts may be taken together either way. -/
theorem regroup {c'' : Outline} (h : Outlined a (.both c (.both c' c'')) m) :
    Outlined a (.both (.both c c') c'') m := by
  intro s
  obtain ⟨events, hs⟩ := h s
  exact ⟨events, by rw [hs]; simp only [Lowered.record_both]⟩

/-- What records nothing records nothing wherever it stands. -/
theorem elsewhere {a' : Around} (h : Outlined a .nothing m) : Outlined a' .nothing m := by
  intro s
  obtain ⟨events, hs⟩ := h s
  exact ⟨events, by rw [hs, Lowered.record_nothing, Lowered.record_nothing]⟩

theorem logged (e : Event) (h : Outlined a c m) :
    Outlined a c (Lowering.log e >>= fun _ => m) := by
  intro s
  obtain ⟨events, hs⟩ := h (Lowering.log e s).2
  exact ⟨events, hs⟩

/-- A part in a block of its own. -/
theorem block {m : Nat → Lowering α} (h : ∀ n, Outlined (a.inBlock n) c (m n)) :
    Outlined a (.block c) (Lowering.newBlock >>= m) := by
  intro s
  obtain ⟨events, hs⟩ := h (s.blocks + 1) { s with blocks := s.blocks + 1 }
  exact ⟨events, by rw [Lowered.record_block]; exact hs⟩

/-- A part in a block of its own, and what follows it. -/
theorem blockThen {m : Nat → Lowering α} (h : ∀ n, Outlined (a.inBlock n) c (m n))
    (hf : ∀ x, Outlined a c' (f x)) :
    Outlined a (.both (.block c) c') (Lowering.newBlock >>= fun n => m n >>= f) :=
  (block h).andThen hf

/-- A body in a scope of its own. -/
theorem definition {scope : ScopeId → Scope} {heading : Heading} {m : ScopeId → Lowering α}
    (hscope : ∀ id, scope id = heading.scope a.path a.qualifiers id a.scope)
    (h : ∀ id, Outlined (a.within id heading.name) c (m id)) :
    Outlined a (.definition heading c) (Lowering.nextScope >>= fun id =>
      Lowering.recordScope (scope id) >>= fun _ => m id) := by
  intro s
  obtain ⟨events, hs⟩ := h s.scopes.length
    { s with scopes := s.scopes ++ [scope s.scopes.length] }
  refine ⟨events, ?_⟩
  rw [Lowered.record_definition, ← hscope]
  exact hs

theorem bind (name : String) (value : Expr) (pos : Nat) (place : Place) :
    Outlined a (.item (.bind false name value pos place))
      (Lowering.bind a name value pos place) := by
  intro s
  refine ⟨s.events, ?_⟩
  rw [Lowered.record_item]
  simp only [Around.mark, Mark.call?, Mark.binding?, Option.toList_none, List.append_nil]
  rfl

theorem recordCall (span : Span) (func : Node) (args : List (ArgumentOf Node)) :
    Outlined a (.item (callItem a.path a.symbols span func args))
      (Lowering.recordCall a
        { id := 0
          callee := (func.expr a.path a.symbols).dotted.map a.symbols.canonical
          func := func.expr a.path a.symbols, args := Node.arguments a.path a.symbols args
          scope := a.scope, block := a.block, pos := span.pos, place := a.place span
          text := span.text }) := by
  intro s
  refine ⟨s.events, ?_⟩
  rw [Lowered.record_item]
  simp only [Around.mark, callItem, Mark.call?, Mark.binding?, Option.toList_none, List.append_nil]
  rfl

end Outlined

/-! ## Targets -/

section

variable {a : Around}

theorem outlined_bindLowered (target value : Expr) (pos : Nat) :
    Outlined a (.taking target value pos) (Lowering.bindLowered a target value pos) := by
  unfold Outline.taking taking Lowering.bindLowered
  cases target with
  | name id o => exact .bind _ _ _ _
  | member object attr o =>
    cases (Expr.member object attr o).dotted with
    | some path => exact .bind _ _ _ _
    | none => exact .pure _
  | subscript base index o =>
    dsimp only
    cases base.dotted with
    | some path => exact .bind _ _ _ _
    | none => exact .pure _
  | literal value o => exact .pure _
  | call func callee args o => exact .pure _
  | compound operands o => exact .pure _
  | unknown o => exact .pure _

theorem outlined_reach (goal : Goal) (e : Expr) :
    Outlined a (goal.outline e) (goal.reach a e) := by
  cases goal with
  | value => exact .pure e
  | target given pairwise pos => exact (outlined_bindLowered e given pos).andEnd fun _ => .pure e

/-- What is no name, path or item takes no value. -/
theorem outlined_passed (goal : Goal) (e : Expr)
    (h : ∀ given pos, taking false e given pos = .nothing) :
    Outlined a .nothing (goal.reach a e) := by
  have hreach := outlined_reach (a := a) goal e
  cases goal with
  | value => exact hreach
  | target given pairwise pos => rwa [Goal.outline, Outline.taking, h] at hreach

/-! ## Values -/

theorem value_node (a : Around) (n : Node) (s : Lowered) :
    (lowerNode a .value n s).1 = n.expr a.path a.symbols := ((takes_node n).value a s).1

theorem value_first (a : Around) (missing : Expr) (ns : List Node) (s : Lowered) :
    (lowerFirst a missing ns s).1 = Node.exprOfFirst a.path a.symbols missing ns :=
  (takes_first missing (fun n _ => takes_node n) s).1

theorem value_arguments (a : Around) (args : List (ArgumentOf Node)) (s : Lowered) :
    (lowerArguments a args s).1 = Node.arguments a.path a.symbols args :=
  (takes_arguments (fun arg _ => takes_node arg.value) s).1

/-! ## Nodes -/

/-- The lowering of a node records the outline of the node, wherever it stands. -/
def OutlinedNode (n : Node) : Prop :=
  ∀ a goal, Outlined a (n.outline a.path a.symbols goal) (lowerNode a goal n)

variable {ns : List Node}

theorem outlined_nodes (h : ∀ n ∈ ns, OutlinedNode n) :
    Outlined a (Node.outlineOfAll a.path a.symbols ns) (lowerNodes a ns) := by
  induction ns with
  | nil => exact .pure []
  | cons n rest ih =>
    have hrest := ih fun m hm => h m (List.mem_cons_of_mem _ hm)
    exact (h n (by simp) a .value).andThen fun _ => hrest.andEnd fun _ => .pure _

theorem outlined_first (missing : Expr) (h : ∀ n ∈ ns, OutlinedNode n) :
    Outlined a (Node.outlineOfFirst a.path a.symbols ns) (lowerFirst a missing ns) := by
  cases ns with
  | nil => exact .pure missing
  | cons n rest => exact h n (by simp) a .value

theorem outlined_arguments {args : List (ArgumentOf Node)}
    (h : ∀ arg ∈ args, OutlinedNode arg.value) :
    Outlined a (Node.outlineOfArguments a.path a.symbols args) (lowerArguments a args) := by
  induction args with
  | nil => exact .pure []
  | cons arg rest ih =>
    obtain ⟨keyword, splat, value⟩ := arg
    have hvalue := h ⟨keyword, splat, value⟩ (by simp) a .value
    have hrest := ih fun m hm => h m (List.mem_cons_of_mem _ hm)
    exact hvalue.andThen fun _ => hrest.andEnd fun _ => .pure _

theorem outlined_clauses {clauses : List (ClauseOf Node)} (pos : Nat)
    (h : ∀ c ∈ clauses, c.Holds OutlinedNode) :
    Outlined a (Node.outlineOfClauses a.path a.symbols pos clauses)
      (lowerClauses a pos clauses) := by
  induction clauses with
  | nil => exact .pure ()
  | cons clause rest ih =>
    have hrest := ih fun c hc => h c (List.mem_cons_of_mem _ hc)
    have hclause := h clause (by simp)
    cases clause with
    | loop target sources =>
      rw [lowerClauses, Node.outlineOfClauses]
      have hloop := (hclause.1 a (.target
        (Node.exprOfFirst a.path a.symbols (.unknown default) sources) false pos)).andThen
        fun _ => hrest
      exact (outlined_first _ hclause.2).both _ (value_first a _ sources) hloop
    | guard condition => exact (hclause a .value).andThen fun _ => hrest

theorem outlined_bindPairs (values : List Expr) (pos : Nat) (h : ∀ n ∈ ns, OutlinedNode n) :
    Outlined a (Node.outlineOfTargets a.path a.symbols pos values ns)
      (bindPairs a pos values ns) := by
  induction ns generalizing values with
  | nil =>
    rw [bindPairs, Node.outlineOfTargets]
    exact .pure ()
  | cons n rest ih =>
    cases values with
    | nil => exact .pure ()
    | cons value values =>
      have hrest := ih values fun m hm => h m (List.mem_cons_of_mem _ hm)
      rw [bindPairs]
      exact (h n (by simp) a (.target value false pos)).andThen fun _ => hrest

/-- Binding each target to the whole value is binding it to one of so many copies. -/
theorem bindAll_eq (a : Around) (value : Expr) (pos : Nat) (ns : List Node) :
    bindAll a value pos ns = bindPairs a pos (List.replicate ns.length value) ns := by
  induction ns with
  | nil => rw [bindAll, bindPairs]
  | cons n rest ih => rw [bindAll, ih, List.length_cons, List.replicate_succ, bindPairs]

/-- The targets of a sequence, taken apart or not. -/
theorem outlined_targets (span : Span) (value : Expr) (pairwise : Bool) (pos : Nat)
    (h : ∀ n ∈ ns, OutlinedNode n) :
    Outlined a (Node.outlineOfTargets a.path a.symbols pos (valuesFor value pairwise ns.length) ns)
      (lowerNode a (.target value pairwise pos) (.group span .sequence ns)) := by
  have hpairs : ∀ values, Outlined a (Node.outlineOfTargets a.path a.symbols pos values ns)
      (bindPairs a pos values ns >>= fun _ => Pure.pure (Expr.unknown (a.origin span))) :=
    fun values => (outlined_bindPairs values pos h).andEnd fun _ => .pure _
  rw [lowerNode.eq_def]
  unfold valuesFor
  simp only [bindAll_eq]
  cases value with
  | compound operands o =>
    dsimp only
    split <;> exact hpairs _
  | name id o => exact hpairs _
  | literal value o => exact hpairs _
  | member object attr o => exact hpairs _
  | subscript base index o => exact hpairs _
  | call func callee args o => exact hpairs _
  | unknown o => exact hpairs _

theorem outlined_call {s : Span} {func : Node} {args : List (ArgumentOf Node)}
    (hf : OutlinedNode func) (ha : ∀ arg ∈ args, OutlinedNode arg.value) :
    OutlinedNode (.call s func args) := by
  intro a goal
  rw [lowerNode, Node.outline]
  refine (hf a .value).both _ (value_node a func) ?_
  refine (outlined_arguments ha).both _ (value_arguments a args) ?_
  have hreach : Outlined a .nothing (goal.reach a (.call (func.expr a.path a.symbols)
      ((func.expr a.path a.symbols).dotted.map a.symbols.canonical)
      (Node.arguments a.path a.symbols args) (a.origin s))) :=
    outlined_passed goal _ fun _ _ => rfl
  have hrecord := (Outlined.recordCall (a := a) s func args).andEnd fun _ => hreach
  dsimp only
  split
  · exact hrecord.logged _
  · exact hrecord

/-- The lowering of every node records its outline. -/
theorem outlined_node (n : Node) : OutlinedNode n := by
  induction n using Node.ind with
  | name s =>
    intro a goal
    rw [lowerNode, Node.outline]
    exact outlined_reach goal _
  | constant s =>
    intro a goal
    rw [lowerNode, Node.outline]
    exact outlined_passed goal _ fun _ _ => rfl
  | string s values formats ihv ihf =>
    intro a goal
    rw [lowerNode, Node.outline]
    refine (outlined_nodes ihv).andEnd fun _ => outlined_passed goal _ fun _ _ => ?_
    split <;> rfl
  | strings s parts ih =>
    intro a goal
    rw [lowerNode, Node.outline]
    refine (outlined_nodes ih).andEnd fun _ => outlined_passed goal _ fun _ _ => ?_
    unfold joinStrings
    split <;> rfl
  | member s object attr ih =>
    intro a goal
    rw [lowerNode, Node.outline]
    exact (ih a .value).both _ (value_node a object) (outlined_reach goal _)
  | subscript s value indices ihv ihi =>
    intro a goal
    rw [lowerNode, Node.outline, Node.expr]
    have hindex : Outlined a (.both (Node.outlineOfFirst a.path a.symbols indices) (goal.outline _))
        (lowerFirst a (.unknown (a.origin s)) indices >>= fun index =>
          goal.reach a (.subscript (value.expr a.path a.symbols) index (a.origin s))) :=
      (outlined_first _ ihi).both _ (value_first a _ indices) (outlined_reach goal _)
    exact ((ihv a .value).both _ (value_node a value) hindex).regroup
  | call s func args ihf iha => exact outlined_call ihf iha
  | paren s lead inner ih =>
    intro a goal
    rw [lowerNode.eq_def, Node.outline.eq_def]
    cases goal with
    | value => exact ih a .value
    | target given pairwise pos =>
      cases lead with
      | some comment => exact .pure _
      | none => exact ih a (.target given pairwise pos)
  | starred s lead inner ih =>
    intro a goal
    rw [lowerNode.eq_def, Node.outline.eq_def]
    cases goal with
    | value => exact (ih a .value).andEnd fun _ => .pure _
    | target given pairwise pos =>
      cases lead with
      | some comment => exact .pure _
      | none => exact ih a (.target given pairwise pos)
  | hidden comment inner ih =>
    intro a goal
    rw [lowerNode, Node.outline]
    exact outlined_passed goal _ fun _ _ => rfl
  | walrus s target value ih =>
    intro a goal
    rw [lowerNode, Node.outline]
    have hbind := (Outlined.bind (a := a) target.text (value.expr a.path a.symbols) s.stop
      (a.place target)).andThen fun _ => outlined_reach goal (value.expr a.path a.symbols)
    exact ((ih a .value).both _ (value_node a value) hbind).regroup
  | aliased s value targetSpan target ihv iht =>
    intro a goal
    rw [lowerNode, Node.outline]
    refine (ihv a .value).andThen fun _ => (iht a .value).andEnd fun _ => ?_
    exact outlined_passed goal _ fun _ _ => rfl
  | lambda s params defaults body ihd ihb =>
    intro a goal
    rw [lowerNode, Node.outline]
    refine (outlined_nodes ihd).andThen fun _ => ?_
    refine Outlined.definition (fun _ => rfl) fun id => (ihb _ .value).andEnd fun _ => ?_
    exact (outlined_passed (a := a) goal _ fun _ _ => rfl).elsewhere
  | comprehension s body clauses ihb ihc =>
    intro a goal
    rw [lowerNode, Node.outline]
    refine .block fun n => (outlined_clauses s.pos ihc).andThen fun _ =>
      (ihb _ .value).andEnd fun _ => ?_
    exact (outlined_passed (a := a) goal _ fun _ _ => rfl).elsewhere
  | test s parts ih =>
    intro a goal
    rw [lowerNode, Node.outline]
    exact (outlined_nodes ih).andEnd fun _ => outlined_passed goal _ fun _ _ => rfl
  | group s form parts ih =>
    intro a goal
    have hgroup : Outlined a (Node.outlineOfAll a.path a.symbols parts)
        (lowerNodes a parts >>= fun es => goal.reach a (.compound es (a.origin s))) :=
      (outlined_nodes ih).andEnd fun _ => outlined_passed goal _ fun _ _ => rfl
    cases goal with
    | value =>
      rw [lowerNode.eq_def, Node.outline.eq_def]
      cases form <;> exact hgroup
    | target given pairwise pos =>
      cases form with
      | sequence =>
        rw [Node.outline.eq_def]
        exact outlined_targets s given pairwise pos ih
      | shortCircuit =>
        rw [lowerNode.eq_def, Node.outline.eq_def]
        exact hgroup
      | conditional =>
        rw [lowerNode.eq_def, Node.outline.eq_def]
        exact hgroup
      | other =>
        rw [lowerNode.eq_def, Node.outline.eq_def]
        exact hgroup

/-! ## Statements -/

theorem outlined_bindTarget (target : Node) (value : Expr) (pairwise : Bool) (pos : Nat) :
    Outlined a (target.outline a.path a.symbols (.target value pairwise pos))
      (bindTarget a target value pairwise pos) :=
  (outlined_node target a _).andEnd fun _ => .pure ()

theorem outlined_bindTargets (targets : List Node) (value : Expr) (pairwise : Bool) (pos : Nat) :
    Outlined a (outlineOfTargets a.path a.symbols value pairwise pos targets)
      (bindTargets a value pairwise pos targets) := by
  unfold outlineOfTargets bindTargets
  cases targets.reverse with
  | nil => exact .pure ()
  | cons last others =>
    refine (outlined_bindTarget last value pairwise pos).andThen fun _ => ?_
    induction others with
    | nil => exact .pure ()
    | cons target rest ih =>
      simp only [List.forIn_cons, bind_assoc, pure_bind]
      exact (outlined_bindTarget target value false pos).andThen fun _ => ih

theorem outlined_head (head : Head) :
    Outlined a (head.outline a.path a.symbols) (lowerHead a head) := by
  cases head with
  | plain => exact .pure ()
  | guard value => exact .pure ()
  | condition value => exact (outlined_node value a .value).andEnd fun _ => .pure ()
  | handler kind target others =>
    cases kind with
    | none =>
      cases target with
      | none => exact (Outlined.pure ()).andThen fun _ => .pure ()
      | some target =>
        exact (Outlined.pure ()).andThen fun _ =>
          outlined_bindTarget target _ false target.span.stop
    | some kind =>
      have hkind := outlined_node kind a .value
      cases target with
      | none => exact hkind.andThen fun _ => .pure ()
      | some target =>
        exact hkind.andThen fun _ => outlined_bindTarget target _ false target.span.stop

theorem outlined_items (items : List Node) :
    Outlined a (.all (items.map (outlineOfItem a.path a.symbols))) (lowerItems a items) := by
  induction items with
  | nil => exact .pure ()
  | cons item rest ih =>
    rw [lowerItems.eq_def, List.map_cons]
    dsimp only
    split
    · rename_i s value targetSpan target
      have htarget := (outlined_bindTarget (a := a) target (value.expr a.path a.symbols) false
        s.stop).andThen fun _ => ih
      exact ((outlined_node value a .value).both _ (value_node a value) htarget).regroup
    · rename_i hitem
      have hvalue : outlineOfItem a.path a.symbols item = item.outline a.path a.symbols .value := by
        unfold outlineOfItem
        split
        · exact (hitem _ _ _ _ rfl).elim
        · rfl
      rw [Outline.all, hvalue]
      exact (outlined_node item a .value).andThen fun _ => ih

end

/-- The lowering of a statement records the outline of the statement, wherever it stands. -/
def OutlinedStmt (t : Stmt) : Prop :=
  ∀ a route, Outlined a (t.outline a.path a.symbols route) (lowerStmt a route t)

section

variable {a : Around}

theorem outlined_stmts {ts : List Stmt} (h : ∀ t ∈ ts, OutlinedStmt t) :
    Outlined a (Stmt.outlineOfAll a.path a.symbols ts) (lowerStmts a ts) := by
  induction ts with
  | nil => exact .pure ()
  | cons t rest ih =>
    have hrest := ih fun t ht => h t (List.mem_cons_of_mem _ ht)
    exact (h t (by simp) a none).andThen fun _ => hrest

theorem outlined_branches {branches : List (BranchOf Stmt)}
    (h : ∀ b ∈ branches, ∀ t ∈ b.body, OutlinedStmt t) :
    Outlined a (Stmt.outlineOfBranches a.path a.symbols branches) (lowerBranches a branches) := by
  induction branches with
  | nil => exact .pure ()
  | cons b rest ih =>
    obtain ⟨head, body⟩ := b
    have hrest := ih fun b hb => h b (List.mem_cons_of_mem _ hb)
    have hbody : ∀ n, Outlined (a.inBlock n) _ (lowerHead (a.inBlock n) head >>= fun _ =>
        lowerStmts (a.inBlock n) body) := fun n =>
      (outlined_head head).andThen fun _ => outlined_stmts (h ⟨head, body⟩ (by simp))
    exact .blockThen hbody fun _ => hrest

/-- The lowering of every statement records its outline. -/
theorem outlined_stmt (t : Stmt) : OutlinedStmt t := by
  induction t using Stmt.ind with
  | values parts =>
    exact fun a route => (outlined_nodes fun n _ => outlined_node n).andEnd fun _ => .pure ()
  | assign stop targets value =>
    intro a route
    cases value with
    | none => exact .pure ()
    | some value =>
      rw [lowerStmt, Stmt.outline]
      exact (outlined_node value a .value).both _ (value_node a value)
        (outlined_bindTargets targets _ _ _)
  | augmented s target value =>
    intro a route
    rw [lowerStmt, Stmt.outline]
    refine (outlined_node target a .value).both _ (value_node a target) ?_
    refine (outlined_node value a .value).both _ (value_node a value) ?_
    exact outlined_bindLowered _ _ _
  | imports clauses => exact fun a route => .pure ()
  | choice condition body branches ihb ihr =>
    intro a route
    rw [lowerStmt, Stmt.outline]
    exact (outlined_node condition a .value).andThen fun _ =>
      .blockThen (fun _ => outlined_stmts ihb) fun _ => outlined_branches ihr
  | whileLoop condition body branches ihb ihr =>
    intro a route
    rw [lowerStmt, Stmt.outline]
    exact (outlined_node condition a .value).andThen fun _ =>
      .blockThen (fun _ => outlined_stmts ihb) fun _ => outlined_branches ihr
  | forLoop target source body branches ihb ihr =>
    intro a route
    rw [lowerStmt, Stmt.outline]
    refine (outlined_node source a .value).both _ (value_node a source) ?_
    have hbody : ∀ n, Outlined (a.inBlock n) _ (bindTarget (a.inBlock n) target
        (source.expr a.path a.symbols) false source.span.stop >>= fun _ =>
          lowerStmts (a.inBlock n) body) := fun n =>
      (outlined_bindTarget target _ _ _).andThen fun _ => outlined_stmts ihb
    exact .blockThen hbody fun _ => outlined_branches ihr
  | attempt body branches final ihb ihr ihf =>
    intro a route
    rw [lowerStmt, Stmt.outline]
    exact .blockThen (fun _ => outlined_stmts ihb) fun _ =>
      (outlined_branches ihr).andThen fun _ => outlined_stmts ihf
  | withItems items body ihb =>
    intro a route
    rw [lowerStmt, Stmt.outline]
    exact (outlined_items items).andThen fun _ => outlined_stmts ihb
  | cases subjects branches ihr =>
    intro a route
    rw [lowerStmt, Stmt.outline]
    exact (outlined_first _ fun n _ => outlined_node n).andThen fun _ => outlined_branches ihr
  | functionDef s name params defaults body ihb =>
    intro a route
    rw [lowerStmt, Stmt.outline]
    refine (outlined_nodes fun n _ => outlined_node n).andThen fun _ => ?_
    have hbody : Outlined a (.definition ⟨name, params, route, s⟩
        (Stmt.outlineOfAll a.path a.symbols body)) _ :=
      Outlined.definition (fun _ => rfl) fun _ => outlined_stmts ihb
    intro s'
    exact hbody.logged (.functionEntered (a.qualify name) s'.scopes.length route.isSome) s'
  | classDef s name bases body ihb =>
    intro a route
    rw [lowerStmt, Stmt.outline]
    exact (outlined_arguments fun arg _ => outlined_node arg.value).andThen fun _ =>
      .definition (fun _ => rfl) fun _ => outlined_stmts ihb
  | decorated decorators definition ih =>
    intro a route
    rw [lowerStmt, Stmt.outline]
    exact (outlined_nodes fun n _ => outlined_node n).andThen fun _ => ih a _

end

end XPathTaint.Python
