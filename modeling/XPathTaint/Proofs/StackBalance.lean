import Mathlib.Tactic.Common
import XPathTaint.Proofs.SyntaxInduction
import XPathTaint.Python.Lowering

-- The stacks of the lowering are balanced: whatever a visit of a piece of a program pushes, it pops
-- again. So what surrounds the pieces of a program can be handed down to them instead, which finds
-- the same facts and has no stacks to keep.

namespace XPathTaint.Python

/-! ## Surroundings -/

namespace Around

/-- Inside the body of a scope. -/
def within (a : Around) (id : ScopeId) (name : String) : Around :=
  { a with scope := id, block := [], qualifiers := a.qualifiers ++ [name] }

def inBlock (a : Around) (n : Nat) : Around := { a with block := a.block ++ [n] }

end Around

/-! ## Expressions, in given surroundings -/

mutual

/-- Lowers a node for a goal; records the calls, bindings and scopes in it. -/
def lowerNode (a : Around) (goal : Goal) : Node → Lowering Expr
  | .name s => goal.reach a (.name s.text (a.origin s))
  | .constant s => goal.reach a (.literal s.text (a.origin s))
  | .string s values _ => do
    let operands ← lowerNodes a values
    goal.reach a (if values.isEmpty then .literal (unquoted s.text) (a.origin s)
      else .compound operands (a.origin s))
  | .strings s parts => do
    let parts ← lowerNodes a parts
    goal.reach a (joinStrings (a.origin s) parts)
  | .member s object attr => do
    let object ← lowerNode a .value object
    goal.reach a (.member object attr (a.origin s))
  | .subscript s value indices => do
    let value ← lowerNode a .value value
    let index ← lowerFirst a (.unknown (a.origin s)) indices
    goal.reach a (.subscript value index (a.origin s))
  | .call s func args => do
    let func ← lowerNode a .value func
    let args ← lowerArguments a args
    let callee := func.dotted.map a.symbols.canonical
    if callee.isNone then Lowering.log (.targetNotDotted s.line s.text)
    Lowering.recordCall a
      { id := 0, callee, func, args, scope := a.scope, block := a.block, pos := s.pos,
        place := a.place s, text := s.text }
    goal.reach a (.call func callee args (a.origin s))
  | .paren _ lead inner =>
    match goal, lead with
    | .target _ _ _, some comment => pure (.compound [] (a.origin comment))
    | goal, _ => lowerNode a goal inner
  | .starred s lead inner =>
    match goal, lead with
    | .target _ _ _, some comment => pure (.compound [] (a.origin comment))
    | .target value pairwise pos, none => lowerNode a (.target value pairwise pos) inner
    | .value, _ => do
      let inner ← lowerNode a .value inner
      pure (.compound [inner] (a.origin s))
  | .hidden comment _ => goal.reach a (.compound [] (a.origin comment))
  | .walrus s target value => do
    let value ← lowerNode a .value value
    Lowering.bind a target.text value s.stop (a.place target)
    goal.reach a value
  | .aliased s value targetSpan target => do
    let value ← lowerNode a .value value
    let target ← lowerNode a .value target
    goal.reach a (.compound [value, .compound [target] (a.origin targetSpan)] (a.origin s))
  | .lambda s params defaults body => do
    let _ ← lowerNodes a defaults
    let id ← Lowering.nextScope
    Lowering.recordScope
      { id, name := a.qualify "<lambda>", params, route := none, parent := some a.scope,
        place := a.place s }
    let _ ← lowerNode (a.within id "<lambda>") .value body
    goal.reach a (.unknown (a.origin s))
  | .comprehension s body clauses => do
    let inner := a.inBlock (← Lowering.newBlock)
    lowerClauses inner s.pos clauses
    let body ← lowerNode inner .value body
    goal.reach a (.compound [body] (a.origin s))
  | .test s parts => do
    let _ ← lowerNodes a parts
    goal.reach a (.unknown (a.origin s))
  | .group s form parts =>
    match goal, form with
    | .target value pairwise pos, .sequence => do
      match value with
      | .compound operands _ =>
        if pairwise && operands.length == parts.length then bindPairs a pos operands parts
        else bindAll a value pos parts
      | _ => bindAll a value pos parts
      pure (.unknown (a.origin s))
    | goal, _ => do
      let operands ← lowerNodes a parts
      goal.reach a (.compound operands (a.origin s))

def lowerNodes (a : Around) : List Node → Lowering (List Expr)
  | [] => pure []
  | node :: rest => do
    let first ← lowerNode a .value node
    pure (first :: (← lowerNodes a rest))

/-- The value of the first node, `missing` if there is none. -/
def lowerFirst (a : Around) (missing : Expr) : List Node → Lowering Expr
  | [] => pure missing
  | node :: _ => lowerNode a .value node

def lowerArguments (a : Around) : List (ArgumentOf Node) → Lowering (List Argument)
  | [] => pure []
  | ⟨keyword, splat, value⟩ :: rest => do
    let first ← lowerNode a .value value
    pure (⟨keyword, splat, first⟩ :: (← lowerArguments a rest))

/-- The clauses of a comprehension; a target is bound at `pos`, before the body. -/
def lowerClauses (a : Around) (pos : Nat) : List (ClauseOf Node) → Lowering Unit
  | [] => pure ()
  | .loop target sources :: rest => do
    let source ← lowerFirst a (.unknown default) sources
    let _ ← lowerNode a (.target source false pos) target
    lowerClauses a pos rest
  | .guard condition :: rest => do
    let _ ← lowerNode a .value condition
    lowerClauses a pos rest

/-- Binds each target to the whole value. -/
def bindAll (a : Around) (value : Expr) (pos : Nat) : List Node → Lowering Unit
  | [] => pure ()
  | target :: rest => do
    let _ ← lowerNode a (.target value false pos) target
    bindAll a value pos rest

/-- Binds each target to the operand in its place. -/
def bindPairs (a : Around) (pos : Nat) : List Expr → List Node → Lowering Unit
  | _, [] => pure ()
  | [], _ :: _ => pure ()
  | value :: values, target :: rest => do
    let _ ← lowerNode a (.target value false pos) target
    bindPairs a pos values rest

end

/-- Binds a target to a value. -/
def bindTarget (a : Around) (target : Node) (value : Expr) (pairwise : Bool) (pos : Nat) :
    Lowering Unit := do
  let _ ← lowerNode a (.target value pairwise pos) target

/-! ## Statements, in given surroundings -/

/-- Binds the targets of an assignment, the last one first. Only the last one, which the
value was written for, is taken apart pairwise. -/
def bindTargets (a : Around) (value : Expr) (pairwise : Bool) (pos : Nat) (targets : List Node) :
    Lowering Unit :=
  match targets.reverse with
  | [] => pure ()
  | last :: others => do
    bindTarget a last value pairwise pos
    for target in others do bindTarget a target value false pos

/-- The head of a branch: what it evaluates, and what it binds. The condition of a case is
passed over; what a handler binds is not known. -/
def lowerHead (a : Around) : Head → Lowering Unit
  | .plain => pure ()
  | .condition value => do let _ ← lowerNode a .value value
  | .guard _ => pure ()
  | .handler kind target _ => do
    if let some kind := kind then let _ ← lowerNode a .value kind
    if let some target := target then
      bindTarget a target (.unknown (a.origin target.span)) false target.span.stop

/-- The resources of a `with`. -/
def lowerItems (a : Around) : List Node → Lowering Unit
  | [] => pure ()
  | item :: rest => do
    match item with
    | .aliased s value _ target =>
      let value ← lowerNode a .value value
      bindTarget a target value false s.stop
    | item => let _ ← lowerNode a .value item
    lowerItems a rest

mutual

/-- Lowers a statement; `route` is how a function defined by it is reached. -/
def lowerStmt (a : Around) (route : Option Route) : Stmt → Lowering Unit
  | .values parts => do let _ ← lowerNodes a parts
  | .assign _ _ none => pure ()
  | .assign stop targets (some value) => do
    let lowered ← lowerNode a .value value
    bindTargets a lowered value.isSequence stop targets
  | .augmented s target value => do
    let target ← lowerNode a .value target
    let value ← lowerNode a .value value
    Lowering.bindLowered a target (.compound [target, value] (a.origin s)) s.stop
  | .imports _ => pure ()
  | .choice condition body branches => do
    let _ ← lowerNode a .value condition
    lowerStmts (a.inBlock (← Lowering.newBlock)) body
    lowerBranches a branches
  | .whileLoop condition body branches => do
    let _ ← lowerNode a .value condition
    lowerStmts (a.inBlock (← Lowering.newBlock)) body
    lowerBranches a branches
  | .forLoop target source body branches => do
    let items ← lowerNode a .value source
    let inner := a.inBlock (← Lowering.newBlock)
    bindTarget inner target items false source.span.stop
    lowerStmts inner body
    lowerBranches a branches
  | .attempt body branches final => do
    lowerStmts (a.inBlock (← Lowering.newBlock)) body
    lowerBranches a branches
    lowerStmts a final
  | .withItems items body => do
    lowerItems a items
    lowerStmts a body
  | .cases subjects branches => do
    let _ ← lowerFirst a (.unknown default) subjects
    lowerBranches a branches
  | .functionDef s name params defaults body => do
    let _ ← lowerNodes a defaults
    let id ← Lowering.nextScope
    Lowering.log (.functionEntered (a.qualify name) id route.isSome)
    Lowering.recordScope
      { id, name := a.qualify name, params, route, parent := some a.scope, place := a.place s }
    lowerStmts (a.within id name) body
  | .classDef s name bases body => do
    let _ ← lowerArguments a bases
    let id ← Lowering.nextScope
    Lowering.recordScope
      { id, name := a.qualify name, params := [], route := none, parent := some a.scope,
        place := a.place s }
    lowerStmts (a.within id name) body
  | .decorated decorators definition => do
    let _ ← lowerNodes a decorators
    lowerStmt a (routeOf a.symbols decorators) definition

def lowerStmts (a : Around) : List Stmt → Lowering Unit
  | [] => pure ()
  | stmt :: rest => do
    lowerStmt a none stmt
    lowerStmts a rest

/-- Branches, each in a block of its own. -/
def lowerBranches (a : Around) : List (BranchOf Stmt) → Lowering Unit
  | [] => pure ()
  | ⟨head, body⟩ :: rest => do
    let inner := a.inBlock (← Lowering.newBlock)
    lowerHead inner head
    lowerStmts inner body
    lowerBranches a rest

end

/-! ## Steps of a visit -/

namespace Visit

open Lowering

variable {α β : Type}

/-- A visit leaves the open scopes, the names of their definitions and the open blocks as it found
them. -/
def IsBalanced (v : Visit α) : Prop :=
  ∀ l, (v l).2.scopes = l.scopes ∧ (v l).2.names = l.names ∧ (v l).2.block = l.block

theorem isBalanced_here (m : Around → Lowering α) : (here m).IsBalanced :=
  fun _ => ⟨rfl, rfl, rfl⟩

theorem here_bind (m : Around → Lowering α) (f : α → Around → Lowering β) :
    (here m >>= fun x => here (f x)) = here fun a => m a >>= fun x => f x a := rfl

/-- A block that is closed again surrounds its body and nothing else. -/
theorem inBranch_here (m : Around → Lowering α) :
    inBranch (here m) = here fun a => newBlock >>= fun n => m (a.inBlock n) := by
  funext l
  have hpop : (l.block ++ [l.found.blocks + 1]).dropLast = l.block := List.dropLast_concat
  show (_, { l with block := _, found := _ }) = _
  rw [hpop]
  rfl

/-- A scope that is left again surrounds its body, where no block around it counts. -/
theorem inScope_here (id : ScopeId) (name : String) (m : Around → Lowering α) :
    inScope id name (here m) = here fun a => m (a.within id name) := by
  funext l
  let inside : Lowerer :=
    { l with scopes := l.scopes ++ [id], names := l.names ++ [name], block := [] }
  have haround : inside.around = l.around.within id name := by
    simp [inside, Lowerer.around, Around.within]
  have hscopes : (l.scopes ++ [id]).dropLast = l.scopes := List.dropLast_concat
  have hnames : (l.names ++ [name]).dropLast = l.names := List.dropLast_concat
  show ((m inside.around l.found).1, { l with scopes := _, names := _, found := _ }) = _
  rw [hscopes, hnames, haround]
  rfl

end Visit

/-! ## Visits of nodes -/

open Visit

/-- The visit of a node finds what its lowering in the same surroundings does. -/
def NodeVisited (n : Node) : Prop :=
  ∀ goal, visitNode goal n = here fun a => lowerNode a goal n

section

variable {ns : List Node}

theorem visitNodes_eq (h : ∀ n ∈ ns, NodeVisited n) :
    visitNodes ns = here fun a => lowerNodes a ns := by
  induction ns with
  | nil => rfl
  | cons n rest ih =>
    have hrest := ih fun m hm => h m (List.mem_cons_of_mem _ hm)
    rw [visitNodes, h n List.mem_cons_self .value, hrest]
    rfl

theorem visitFirst_eq (missing : Around → Expr) (h : ∀ n ∈ ns, NodeVisited n) :
    visitFirst missing ns = here fun a => lowerFirst a (missing a) ns := by
  cases ns with
  | nil => rfl
  | cons n rest => exact h n List.mem_cons_self .value

theorem visitArguments_eq {args : List (ArgumentOf Node)} (h : ∀ arg ∈ args, NodeVisited arg.value) :
    visitArguments args = here fun a => lowerArguments a args := by
  induction args with
  | nil => rfl
  | cons arg rest ih =>
    obtain ⟨keyword, splat, value⟩ := arg
    have hrest := ih fun m hm => h m (List.mem_cons_of_mem _ hm)
    rw [visitArguments, h _ List.mem_cons_self .value, hrest]
    rfl

theorem visitClauses_eq {clauses : List (ClauseOf Node)} (pos : Nat)
    (h : ∀ c ∈ clauses, c.Holds NodeVisited) :
    visitClauses pos clauses = here fun a => lowerClauses a pos clauses := by
  induction clauses with
  | nil => rfl
  | cons c rest ih =>
    have hrest := ih fun m hm => h m (List.mem_cons_of_mem _ hm)
    have hc := h c List.mem_cons_self
    cases c with
    | loop target sources =>
      rw [visitClauses, visitFirst_eq _ hc.2, hrest]
      simp only [hc.1 _]
      rfl
    | guard condition =>
      rw [visitClauses, hc .value, hrest]
      rfl

theorem visitAll_eq (value : Expr) (pos : Nat) (h : ∀ n ∈ ns, NodeVisited n) :
    visitAll value pos ns = here fun a => bindAll a value pos ns := by
  induction ns with
  | nil => rfl
  | cons n rest ih =>
    have hrest := ih fun m hm => h m (List.mem_cons_of_mem _ hm)
    rw [visitAll, h n List.mem_cons_self _, hrest]
    rfl

theorem visitPairs_eq (values : List Expr) (pos : Nat) (h : ∀ n ∈ ns, NodeVisited n) :
    visitPairs pos values ns = here fun a => bindPairs a pos values ns := by
  induction ns generalizing values with
  | nil => cases values <;> rfl
  | cons n rest ih =>
    cases values with
    | nil => rfl
    | cons value values =>
      have hrest := ih values fun m hm => h m (List.mem_cons_of_mem _ hm)
      rw [visitPairs, h n List.mem_cons_self _, hrest]
      rfl

end

/-- What surrounds a node can be handed down to it: it closes what it opens. -/
theorem visitNode_eq (n : Node) : NodeVisited n := by
  induction n using Node.ind with
  | name s => exact fun goal => by rw [visitNode]; rfl
  | constant s => exact fun goal => by rw [visitNode]; rfl
  | string s values formats ihv ihf =>
    intro goal
    rw [visitNode, visitNodes_eq ihv]
    rfl
  | strings s parts ih =>
    intro goal
    rw [visitNode, visitNodes_eq ih]
    rfl
  | member s object attr ih =>
    intro goal
    rw [visitNode, ih .value]
    rfl
  | subscript s value indices ihv ihi =>
    intro goal
    rw [visitNode, ihv .value, visitFirst_eq _ ihi]
    rfl
  | call s func args ihf iha =>
    intro goal
    rw [visitNode, ihf .value, visitArguments_eq iha]
    rfl
  | paren s lead inner ih =>
    intro goal
    cases goal with
    | value =>
      rw [visitNode.eq_def]
      dsimp only
      rw [ih .value]
      funext l
      rfl
    | target value pairwise pos =>
      cases lead with
      | some comment => rw [visitNode.eq_def]; rfl
      | none =>
        rw [visitNode.eq_def]
        dsimp only
        rw [ih _]
        rfl
  | starred s lead inner ih =>
    intro goal
    cases goal with
    | value =>
      rw [visitNode.eq_def]
      dsimp only
      rw [ih .value]
      rfl
    | target value pairwise pos =>
      cases lead with
      | some comment => rw [visitNode.eq_def]; rfl
      | none =>
        rw [visitNode.eq_def]
        dsimp only
        rw [ih _]
        rfl
  | hidden comment inner ih => exact fun goal => by rw [visitNode]; rfl
  | walrus s target value ih =>
    intro goal
    rw [visitNode, ih .value]
    rfl
  | aliased s value targetSpan target ihv iht =>
    intro goal
    rw [visitNode, ihv .value, iht .value]
    rfl
  | lambda s params defaults body ihd ihb =>
    intro goal
    rw [visitNode, visitNodes_eq ihd, ihb .value]
    simp only [inScope_here]
    rfl
  | comprehension s body clauses ihb ihc =>
    intro goal
    rw [visitNode, visitClauses_eq _ ihc, ihb .value, here_bind, inBranch_here]
    rfl
  | test s parts ih =>
    intro goal
    rw [visitNode, visitNodes_eq ih]
    rfl
  | group s form parts ih =>
    intro goal
    have hparts : visitNodes parts = here fun a => lowerNodes a parts := visitNodes_eq ih
    cases goal with
    | value => rw [visitNode.eq_def]; dsimp only; rw [hparts]; rfl
    | target value pairwise pos =>
      cases form with
      | sequence =>
        rw [visitNode.eq_def]
        simp only [visitAll_eq value pos ih, visitPairs_eq _ pos ih]
        cases value with
        | compound operands o =>
          simp only [lowerNode]
          split <;> rfl
        | _ => rfl
      | _ => rw [visitNode.eq_def]; dsimp only; rw [hparts]; rfl

/-! ## Visits of statements -/

theorem visitTarget_eq (target : Node) (value : Expr) (pairwise : Bool) (pos : Nat) :
    visitTarget target value pairwise pos = here fun a => bindTarget a target value pairwise pos := by
  rw [visitTarget, visitNode_eq target _]
  rfl

theorem visitTargets_eq (value : Expr) (pairwise : Bool) (pos : Nat) (targets : List Node) :
    visitTargets value pairwise pos targets =
      here fun a => bindTargets a value pairwise pos targets := by
  unfold visitTargets bindTargets
  cases targets.reverse with
  | nil => rfl
  | cons last others =>
    have hothers :
        (forIn others PUnit.unit fun target _ =>
          visitTarget target value false pos >>= fun _ => pure (ForInStep.yield PUnit.unit)) =
        here fun a => forIn others PUnit.unit fun target _ =>
          bindTarget a target value false pos >>= fun _ => pure (ForInStep.yield PUnit.unit) := by
      induction others with
      | nil => rfl
      | cons target rest ih =>
        simp only [List.forIn_cons, bind_assoc, pure_bind]
        rw [visitTarget_eq, ih]
        rfl
    dsimp only
    rw [visitTarget_eq, hothers]
    rfl

theorem visitHead_eq (head : Head) : visitHead head = here fun a => lowerHead a head := by
  cases head with
  | plain => rfl
  | condition value => rw [visitHead, visitNode_eq value _]; rfl
  | guard value => rfl
  | handler kind target others =>
    cases kind with
    | none =>
      cases target with
      | none => rfl
      | some target => simp only [visitHead, visitTarget_eq]; rfl
    | some kind =>
      cases target with
      | none => simp only [visitHead, visitNode_eq kind _]; rfl
      | some target => simp only [visitHead, visitNode_eq kind _, visitTarget_eq]; rfl

theorem visitItems_eq (items : List Node) : visitItems items = here fun a => lowerItems a items := by
  induction items with
  | nil => rfl
  | cons item rest ih =>
    cases item with
    | aliased s value targetSpan target =>
      rw [visitItems, visitNode_eq value _, ih]
      simp only [visitTarget_eq]
      rfl
    | _ => rw [visitItems, visitNode_eq _ _, ih]; rfl; all_goals nofun

/-- The visit of a statement finds what its lowering in the same surroundings does. -/
def StmtVisited (t : Stmt) : Prop := ∀ route, visitStmt route t = here fun a => lowerStmt a route t

theorem visitStmts_eq {ts : List Stmt} (h : ∀ t ∈ ts, StmtVisited t) :
    visitStmts ts = here fun a => lowerStmts a ts := by
  induction ts with
  | nil => rfl
  | cons t rest ih =>
    have hrest := ih fun u hu => h u (List.mem_cons_of_mem _ hu)
    rw [visitStmts, h t List.mem_cons_self none, hrest]
    rfl

theorem visitBranches_eq {branches : List (BranchOf Stmt)}
    (h : ∀ b ∈ branches, ∀ t ∈ b.body, StmtVisited t) :
    visitBranches branches = here fun a => lowerBranches a branches := by
  induction branches with
  | nil => rfl
  | cons b rest ih =>
    obtain ⟨head, body⟩ := b
    have hbody := h ⟨head, body⟩ List.mem_cons_self
    have hrest := ih fun c hc => h c (List.mem_cons_of_mem _ hc)
    rw [visitBranches, visitHead_eq, visitStmts_eq hbody, hrest, here_bind, inBranch_here]
    rfl

/-- What surrounds a statement can be handed down to it: it closes what it opens. -/
theorem visitStmt_eq (t : Stmt) : StmtVisited t := by
  induction t using Stmt.ind with
  | values parts =>
    intro route
    rw [visitStmt, visitNodes_eq fun n _ => visitNode_eq n]
    rfl
  | assign stop targets value =>
    intro route
    cases value with
    | none => rfl
    | some value =>
      rw [visitStmt, visitNode_eq value _]
      simp only [visitTargets_eq]
      rfl
  | augmented s target value =>
    intro route
    rw [visitStmt, visitNode_eq target _, visitNode_eq value _]
    rfl
  | imports clauses => exact fun route => rfl
  | choice condition body branches ihb ihr =>
    intro route
    rw [visitStmt, visitNode_eq condition _, visitStmts_eq ihb, visitBranches_eq ihr, inBranch_here]
    rfl
  | whileLoop condition body branches ihb ihr =>
    intro route
    rw [visitStmt, visitNode_eq condition _, visitStmts_eq ihb, visitBranches_eq ihr, inBranch_here]
    rfl
  | forLoop target source body branches ihb ihr =>
    intro route
    rw [visitStmt, visitNode_eq source _, visitStmts_eq ihb, visitBranches_eq ihr]
    simp only [visitTarget_eq, here_bind, inBranch_here]
    rfl
  | attempt body branches final ihb ihr ihf =>
    intro route
    rw [visitStmt, visitStmts_eq ihb, visitBranches_eq ihr, visitStmts_eq ihf, inBranch_here]
    rfl
  | withItems items body ihb =>
    intro route
    rw [visitStmt, visitItems_eq, visitStmts_eq ihb]
    rfl
  | cases subjects branches ihr =>
    intro route
    rw [visitStmt, visitFirst_eq _ fun n _ => visitNode_eq n, visitBranches_eq ihr]
    rfl
  | functionDef s name params defaults body ihb =>
    intro route
    rw [visitStmt, visitNodes_eq fun n _ => visitNode_eq n, visitStmts_eq ihb]
    simp only [inScope_here]
    rfl
  | classDef s name bases body ihb =>
    intro route
    rw [visitStmt, visitArguments_eq fun arg _ => visitNode_eq arg.value, visitStmts_eq ihb]
    simp only [inScope_here]
    rfl
  | decorated decorators definition ih =>
    intro route
    rw [visitStmt, visitNodes_eq fun n _ => visitNode_eq n]
    funext l
    exact congrFun (ih (routeOf l.symbols decorators)) _

/-! ## Balance -/

theorem isBalanced_visitNode (goal : Goal) (n : Node) : (visitNode goal n).IsBalanced := by
  rw [visitNode_eq n goal]
  exact isBalanced_here _

theorem isBalanced_visitStmt (route : Option Route) (t : Stmt) :
    (visitStmt route t).IsBalanced := by
  rw [visitStmt_eq t route]
  exact isBalanced_here _

theorem isBalanced_visitProgram (p : Program) : (visitProgram p).IsBalanced := by
  intro l
  have hscopes : (l.scopes ++ [moduleScope]).dropLast = l.scopes := List.dropLast_concat
  unfold visitProgram
  rw [visitStmts_eq fun t _ => visitStmt_eq t]
  exact ⟨hscopes, rfl, rfl⟩

end XPathTaint.Python
