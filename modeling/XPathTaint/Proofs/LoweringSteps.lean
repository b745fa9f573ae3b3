import Mathlib.Tactic.Common
import XPathTaint.Proofs.CallNodes
import XPathTaint.Proofs.StackBalance
import XPathTaint.Python.Source

-- What a run of the lowering keeps. A relation between the facts before and after a piece of
-- a program and the calls in that piece is kept by the lowering of every node and statement
-- if every single step keeps it: an event, a binding, a call site, a branch with a block
-- number of its own, and the body of a scope.

namespace XPathTaint.Python

/-! ## Runs -/

theorem run_bind {α β : Type} (m : Lowering α) (f : α → Lowering β) (s : Lowered) :
    (m >>= f) s = f (m s).1 (m s).2 := rfl

/-- A relation between the facts before and after a piece of a program, what is around that
piece, and the calls in it. -/
abbrev StepRelation := Owner → Around → List CallNode → Lowered → Lowered → Prop

/-- A relation that the single steps of the lowering keep, whatever surrounds them. -/
structure StepInvariant (R : StepRelation) : Prop where
  skip : ∀ {o a cs s}, NoneRead cs → R o a cs s s
  trans : ∀ {o a cs cs' s₁ s₂ s₃}, R o a cs s₁ s₂ → R o a cs' s₂ s₃ → R o a (cs ++ cs') s₁ s₃
  log : ∀ {o a s} e, R o a [] s (Lowering.log e s).2
  bind : ∀ {o a s} name value pos place, R o a [] s (Lowering.bind a name value pos place s).2
  call : ∀ {o a s} (c : CallSite) span func args, c.scope = a.scope → c.block = a.block →
    c.pos = span.pos → c.place = a.place span → c.text = span.text →
    R o a [⟨span, func, args, o, true⟩] s (Lowering.recordCall a c s).2
  branch : ∀ {o a cs s s'}, R o (a.inBlock (s.blocks + 1)) cs { s with blocks := s.blocks + 1 } s' →
    R o a cs s s'
  scope : ∀ {o a cs s s'} scope name span, scope.id = s.scopes.length →
    scope.name = a.qualify name → scope.parent = some a.scope → scope.place = a.place span →
    R (o.inside name span) (a.within s.scopes.length name) cs
      { s with scopes := s.scopes ++ [scope] } s' → R o a cs s s'

/-- The facts before and after every run of `m` are related by the calls `cs`. -/
def Follows {α : Type} (R : StepRelation) (o : Owner) (a : Around) (cs : List CallNode)
    (m : Lowering α) : Prop := ∀ s, R o a cs s (m s).2

/-- How a piece stands that is read for a goal. -/
def Goal.standing (o : Owner) : Goal → Standing
  | .value => o.value
  | .target _ _ _ => o.target

@[simp] theorem Goal.standing_value (o : Owner) (goal : Goal) :
    (goal.standing o).value = o.value := by cases goal <;> rfl

@[simp] theorem Owner.value_value (o : Owner) : o.value.value = o.value := rfl

@[simp] theorem Goal.standing_inside (o : Owner) (goal : Goal) (name : String) (start : Span) :
    (goal.standing o).inside name start = (o.inside name start).value := by cases goal <;> rfl

namespace StepInvariant

variable {R : StepRelation} (hR : StepInvariant R) {o : Owner} {a : Around}
  {cs cs' : List CallNode} {α β : Type}

include hR

theorem pure (x : α) (h : NoneRead cs) : Follows R o a cs (pure x : Lowering α) :=
  fun _ => hR.skip h

theorem transEnd {s₁ s₂ s₃ : Lowered} (h : R o a cs s₁ s₂) (h' : R o a [] s₂ s₃) :
    R o a cs s₁ s₃ := by
  have h'' := hR.trans h h'
  rwa [List.append_nil] at h''

theorem andThen {m : Lowering α} {f : α → Lowering β} (hm : Follows R o a cs m)
    (hf : ∀ x, Follows R o a cs' (f x)) : Follows R o a (cs ++ cs') (m >>= f) :=
  fun s => hR.trans (hm s) (hf _ _)

/-- What follows a piece holds no calls of its own. -/
theorem andEnd {m : Lowering α} {f : α → Lowering β} (hm : Follows R o a cs m)
    (hf : ∀ x, Follows R o a [] (f x)) : Follows R o a cs (m >>= f) :=
  fun s => hR.transEnd (hm s) (hf _ _)

theorem ignoring {m : Lowering α} (hm : Follows R o a cs m) (h : NoneRead cs') :
    Follows R o a (cs ++ cs') m := fun s => hR.trans (hm s) (hR.skip h)

/-- A body in a block of its own, and what follows it. -/
theorem inBranch {m : Nat → Lowering α} {f : α → Lowering β}
    (hm : ∀ n, Follows R o (a.inBlock n) cs (m n)) (hf : ∀ x, Follows R o a cs' (f x)) :
    Follows R o a (cs ++ cs') (Lowering.newBlock >>= fun n => m n >>= f) := by
  intro s
  exact hR.trans (hR.branch (hm (s.blocks + 1) _)) (hf _ _)

/-- A body in a scope of its own. -/
theorem inScope {scope : ScopeId → Scope} {name : String} {span : Span} {m : ScopeId → Lowering α}
    (hid : ∀ id, (scope id).id = id) (hname : ∀ id, (scope id).name = a.qualify name)
    (hparent : ∀ id, (scope id).parent = some a.scope)
    (hplace : ∀ id, (scope id).place = a.place span)
    (hm : ∀ id, Follows R (o.inside name span) (a.within id name) cs (m id)) :
    Follows R o a cs (Lowering.nextScope >>= fun id =>
      Lowering.recordScope (scope id) >>= fun _ => m id) := by
  intro s
  refine hR.scope (scope s.scopes.length) name span (hid _) (hname _) (hparent _) (hplace _) ?_
  exact hm s.scopes.length _

/-- A body in a scope of its own, and what follows it. -/
theorem inScopeThen {scope : ScopeId → Scope} {name : String} {span : Span}
    {m : ScopeId → Lowering α} {f : α → Lowering β} (hid : ∀ id, (scope id).id = id)
    (hname : ∀ id, (scope id).name = a.qualify name)
    (hparent : ∀ id, (scope id).parent = some a.scope)
    (hplace : ∀ id, (scope id).place = a.place span)
    (hm : ∀ id, Follows R (o.inside name span) (a.within id name) cs (m id))
    (hf : ∀ x, Follows R o a [] (f x)) :
    Follows R o a cs (Lowering.nextScope >>= fun id =>
      Lowering.recordScope (scope id) >>= fun _ => m id >>= f) := by
  intro s
  exact hR.transEnd (hR.inScope hid hname hparent hplace hm s) (hf _ _)

theorem bindLowered (target value : Expr) (pos : Nat) :
    Follows R o a [] (Lowering.bindLowered a target value pos) := by
  unfold Lowering.bindLowered
  split
  · exact fun _ => hR.bind _ _ _ _
  · split
    · exact fun _ => hR.bind _ _ _ _
    · exact hR.pure _ noneRead_nil
  · split
    · exact fun _ => hR.bind _ _ _ _
    · exact hR.pure _ noneRead_nil
  · exact hR.pure _ noneRead_nil

theorem reach (goal : Goal) (e : Expr) (h : NoneRead cs) : Follows R o a cs (goal.reach a e) := by
  cases goal with
  | value => exact hR.pure e h
  | target given pairwise pos =>
    have hbind := hR.ignoring (hR.bindLowered (o := o) (a := a) e given pos) h
    exact hR.andEnd hbind fun _ => hR.pure e noneRead_nil

end StepInvariant

/-! ## Nodes -/

/-- The lowering of a node follows a relation, whatever it is read for. -/
def NodeFollows (R : StepRelation) (n : Node) : Prop :=
  ∀ o a goal, Follows R o a (n.calls (goal.standing o)) (lowerNode a goal n)

namespace StepInvariant

variable {R : StepRelation} (hR : StepInvariant R) {o : Owner} {a : Around}

include hR

theorem lowerNodes {ns : List Node} (h : ∀ n ∈ ns, NodeFollows R n) :
    Follows R o a (Node.callsOfAll o.value ns) (lowerNodes a ns) := by
  induction ns with
  | nil => exact hR.pure [] noneRead_nil
  | cons n rest ih =>
    rw [Python.lowerNodes, Node.callsOfAll]
    refine hR.andThen (h n (by simp) o a .value) fun _ => hR.andEnd (ih ?_) fun _ => ?_
    · exact fun n hn => h n (List.mem_cons_of_mem _ hn)
    · exact hR.pure _ noneRead_nil

theorem lowerFirst {ns : List Node} (h : ∀ n ∈ ns, NodeFollows R n) (missing : Expr) :
    Follows R o a (Node.callsOfFirst o.value ns) (lowerFirst a missing ns) := by
  cases ns with
  | nil => exact hR.pure missing noneRead_nil
  | cons n rest =>
    rw [Python.lowerFirst, Node.callsOfFirst]
    exact hR.ignoring (h n (by simp) o a .value) (noneRead_ignored rfl)

theorem lowerArguments {args : List (ArgumentOf Node)} (h : ∀ arg ∈ args, NodeFollows R arg.value) :
    Follows R o a (Node.callsOfArguments o.value args) (lowerArguments a args) := by
  induction args with
  | nil => exact hR.pure [] noneRead_nil
  | cons arg rest ih =>
    obtain ⟨keyword, splat, value⟩ := arg
    rw [Python.lowerArguments, Node.callsOfArguments]
    refine hR.andThen (h ⟨keyword, splat, value⟩ (by simp) o a .value) fun _ =>
      hR.andEnd (ih ?_) fun _ => ?_
    · exact fun n hn => h n (List.mem_cons_of_mem _ hn)
    · exact hR.pure _ noneRead_nil

theorem lowerClauses {clauses : List (ClauseOf Node)} (pos : Nat)
    (h : ∀ c ∈ clauses, c.Holds (NodeFollows R)) :
    Follows R o a (Node.callsOfClauses o.value clauses) (lowerClauses a pos clauses) := by
  induction clauses with
  | nil => exact hR.pure () noneRead_nil
  | cons c rest ih =>
    have hrest := ih fun c hc => h c (List.mem_cons_of_mem _ hc)
    have hc := h c (by simp)
    cases c with
    | loop target sources =>
      rw [Python.lowerClauses, Node.callsOfClauses]
      refine hR.andThen (hR.lowerFirst hc.2 _) fun source => ?_
      exact hR.andThen (hc.1 o a (.target source false pos)) fun _ => hrest
    | guard condition =>
      rw [Python.lowerClauses, Node.callsOfClauses]
      exact hR.andThen (hc o a .value) fun _ => hrest

theorem bindAll {ns : List Node} (value : Expr) (pos : Nat) (h : ∀ n ∈ ns, NodeFollows R n) :
    Follows R o a (Node.callsOfAll o.target ns) (bindAll a value pos ns) := by
  induction ns with
  | nil => exact hR.pure () noneRead_nil
  | cons n rest ih =>
    rw [Python.bindAll, Node.callsOfAll]
    refine hR.andThen (h n (by simp) o a (.target value false pos)) fun _ => ih ?_
    exact fun n hn => h n (List.mem_cons_of_mem _ hn)

theorem bindPairs {ns : List Node} (values : List Expr) (pos : Nat)
    (hlen : values.length = ns.length) (h : ∀ n ∈ ns, NodeFollows R n) :
    Follows R o a (Node.callsOfAll o.target ns) (bindPairs a pos values ns) := by
  induction ns generalizing values with
  | nil =>
    rw [Python.bindPairs]
    exact hR.pure () noneRead_nil
  | cons n rest ih =>
    cases values with
    | nil => simp at hlen
    | cons value values =>
      rw [Python.bindPairs, Node.callsOfAll]
      refine hR.andThen (h n (by simp) o a (.target value false pos)) fun _ => ih values ?_ ?_
      · simpa using hlen
      · exact fun n hn => h n (List.mem_cons_of_mem _ hn)

theorem lowerCall {s : Span} {func : Node} {args : List (ArgumentOf Node)} (goal : Goal)
    (hf : NodeFollows R func) (ha : ∀ arg ∈ args, NodeFollows R arg.value) :
    Follows R o a ((Node.call s func args).calls (goal.standing o))
      (lowerNode a goal (.call s func args)) := by
  rw [Python.lowerNode, Node.calls, Goal.standing_value]
  refine hR.andThen (hf o a .value) fun e => hR.andThen (hR.lowerArguments ha) fun es => ?_
  have hread : (goal.standing o).owner = o ∧ (goal.standing o).isRead = true := by
    cases goal <;> exact ⟨rfl, rfl⟩
  rw [hread.1, hread.2]
  dsimp only
  have hrecord : ∀ callee, Follows R o a [⟨s, func, args, o, true⟩] (do
      Lowering.recordCall a
        { id := 0, callee, func := e, args := es, scope := a.scope, block := a.block, pos := s.pos,
          place := a.place s, text := s.text }
      goal.reach a (.call e callee es (a.origin s))) := fun callee =>
    hR.andEnd (fun _ => hR.call _ s func args rfl rfl rfl rfl rfl) fun _ =>
      hR.reach goal _ noneRead_nil
  split
  · exact hR.andThen (fun _ => hR.log _) fun _ => hrecord _
  · exact hrecord _

/-- Every relation that the single steps keep is kept by every node. -/
theorem lowerNode (n : Node) : NodeFollows R n := by
  induction n using Node.ind with
  | name s => exact fun o a goal => by rw [Python.lowerNode]; exact hR.reach goal _ noneRead_nil
  | constant s => exact fun o a goal => by rw [Python.lowerNode]; exact hR.reach goal _ noneRead_nil
  | string s values formats ihv ihf =>
    intro o a goal
    rw [Python.lowerNode, Node.calls, Goal.standing_value]
    exact hR.andThen (hR.lowerNodes ihv) fun _ => hR.reach goal _ (noneRead_ignored rfl)
  | strings s parts ih =>
    intro o a goal
    rw [Python.lowerNode, Node.calls, Goal.standing_value]
    exact hR.andEnd (hR.lowerNodes ih) fun _ => hR.reach goal _ noneRead_nil
  | member s object attr ih =>
    intro o a goal
    rw [Python.lowerNode, Node.calls, Goal.standing_value]
    exact hR.andEnd (ih o a .value) fun _ => hR.reach goal _ noneRead_nil
  | subscript s value indices ihv ihi =>
    intro o a goal
    rw [Python.lowerNode, Node.calls, Goal.standing_value]
    exact hR.andThen (ihv o a .value) fun _ => hR.andEnd (hR.lowerFirst ihi _) fun _ =>
      hR.reach goal _ noneRead_nil
  | call s func args ihf iha => exact fun o a goal => hR.lowerCall goal ihf iha
  | paren s lead inner ih =>
    intro o a goal
    rw [Python.lowerNode.eq_def, Node.calls]
    dsimp only
    split
    · exact hR.pure _ (noneRead_calls inner rfl)
    · rename_i hlead
      have hbehind : (goal.standing o).behind lead = goal.standing o := by
        cases goal with
        | value => rfl
        | target value pairwise pos =>
          cases lead with
          | none => rfl
          | some comment => exact absurd rfl (hlead _ _ _ _ rfl)
      rw [hbehind]
      exact ih o a goal
  | starred s lead inner ih =>
    intro o a goal
    rw [Python.lowerNode.eq_def, Node.calls]
    dsimp only
    split
    · exact hR.pure _ (noneRead_calls inner rfl)
    · exact ih o a (.target _ _ _)
    · exact hR.andEnd (ih o a .value) fun _ => hR.pure _ noneRead_nil
  | hidden comment inner ih =>
    intro o a goal
    rw [Python.lowerNode, Node.calls]
    exact hR.reach goal _ (noneRead_calls inner rfl)
  | walrus s target value ih =>
    intro o a goal
    rw [Python.lowerNode, Node.calls, Goal.standing_value]
    refine hR.andEnd (ih o a .value) fun _ => hR.andEnd (fun _ => hR.bind _ _ _ _) fun _ => ?_
    exact hR.reach goal _ noneRead_nil
  | aliased s value targetSpan target ihv iht =>
    intro o a goal
    rw [Python.lowerNode, Node.calls, Goal.standing_value]
    exact hR.andThen (ihv o a .value) fun _ => hR.andEnd (iht o a .value) fun _ =>
      hR.reach goal _ noneRead_nil
  | lambda s params defaults body ihd ihb =>
    intro o a goal
    rw [Python.lowerNode, Node.calls, Goal.standing_value, Goal.standing_inside]
    refine hR.andThen (hR.lowerNodes ihd) fun _ => ?_
    exact hR.inScopeThen (fun _ => rfl) (fun _ => rfl) (fun _ => rfl) (fun _ => rfl)
      (fun id => ihb (o.inside "<lambda>" s) (a.within id "<lambda>") .value)
      fun _ => hR.reach goal _ noneRead_nil
  | comprehension s body clauses ihb ihc =>
    intro o a goal
    rw [Python.lowerNode, Node.calls, Goal.standing_value]
    have hbody : ∀ n, Follows R o (a.inBlock n) (Node.callsOfClauses o.value clauses ++
        body.calls o.value) (do
          Python.lowerClauses (a.inBlock n) s.pos clauses
          Python.lowerNode (a.inBlock n) .value body) :=
      fun n => hR.andThen (hR.lowerClauses _ ihc) fun _ => ihb o (a.inBlock n) .value
    intro s'
    exact hR.transEnd (hR.branch (hbody (s'.blocks + 1) _)) (hR.reach goal _ noneRead_nil _)
  | test s parts ih =>
    intro o a goal
    rw [Python.lowerNode, Node.calls, Goal.standing_value]
    exact hR.andEnd (hR.lowerNodes ih) fun _ => hR.reach goal _ noneRead_nil
  | group s form parts ih =>
    intro o a goal
    rw [Python.lowerNode.eq_def, Node.calls]
    dsimp only
    split
    · have hend : ∀ _ : Unit, Follows R o a [] (Pure.pure (Expr.unknown (a.origin s))) :=
        fun _ => hR.pure _ noneRead_nil
      split
      · split
        · rename_i h
          have hlen := (Bool.and_eq_true_iff.mp h).2
          exact hR.andEnd (hR.bindPairs _ _ (by simpa using hlen) ih) hend
        · exact hR.andEnd (hR.bindAll _ _ ih) hend
      · exact hR.andEnd (hR.bindAll _ _ ih) hend
    · rename_i hsequence
      have hpart : (goal.standing o).part form = o.value := by
        cases form with
        | shortCircuit => exact Goal.standing_value o goal
        | conditional => exact Goal.standing_value o goal
        | other => exact Goal.standing_value o goal
        | sequence =>
          cases goal with
          | value => rfl
          | target value pairwise pos => exact (hsequence _ _ _ rfl rfl).elim
      rw [hpart]
      exact hR.andEnd (hR.lowerNodes ih) fun _ => hR.reach _ _ noneRead_nil

/-! ## Statements -/

theorem bindTarget (target : Node) (value : Expr) (pairwise : Bool) (pos : Nat) :
    Follows R o a (target.calls o.target) (bindTarget a target value pairwise pos) :=
  hR.andEnd (hR.lowerNode target o a (.target value pairwise pos)) fun _ => hR.pure _ noneRead_nil

theorem bindTargets (targets : List Node) (value : Expr) (pairwise : Bool) (pos : Nat) :
    Follows R o a (Node.callsOfAll o.target targets.reverse)
      (bindTargets a value pairwise pos targets) := by
  unfold Python.bindTargets
  split
  · rename_i h
    rw [h]
    exact hR.pure () noneRead_nil
  · rename_i last others h
    rw [h, Node.callsOfAll]
    refine hR.andThen (hR.bindTarget last value pairwise pos) fun _ => ?_
    clear h
    induction others with
    | nil => exact hR.pure () noneRead_nil
    | cons target rest ih =>
      rw [Node.callsOfAll]
      simp only [List.forIn_cons, bind_assoc, pure_bind]
      exact hR.andThen (hR.bindTarget target value false pos) fun _ => ih

/-! ## Statements -/

theorem lowerHead (head : Head) : Follows R o a (head.calls o) (lowerHead a head) := by
  cases head with
  | plain => exact hR.pure () noneRead_nil
  | condition value =>
    exact hR.andEnd (hR.lowerNode value o a .value) fun _ => hR.pure _ noneRead_nil
  | guard value => exact hR.pure () (noneRead_calls value rfl)
  | handler kind target others =>
    have hothers : NoneRead (Node.callsOfAll o.ignored others) := noneRead_ignored rfl
    have htarget : ∀ target,
        Follows R o a (target.calls o.target ++ Node.callsOfAll o.ignored others)
        (Python.bindTarget a target (.unknown (a.origin target.span)) false target.span.stop) :=
      fun target => hR.ignoring (hR.bindTarget target _ _ _) hothers
    cases kind with
    | none =>
      cases target with
      | none => exact hR.pure () hothers
      | some target =>
        simp only [Head.calls, Option.toList_some, Option.toList_none, Node.callsOfAll,
          List.append_nil, List.nil_append]
        exact htarget target
    | some kind =>
      have hkind := hR.lowerNode kind o a .value
      cases target with
      | none =>
        simp only [Head.calls, Option.toList_some, Option.toList_none, Node.callsOfAll,
          List.append_nil, List.nil_append]
        exact hR.andThen hkind fun _ => hR.pure _ hothers
      | some target =>
        simp only [Head.calls, Option.toList_some, Node.callsOfAll, List.append_nil]
        exact hR.andThen hkind fun _ => htarget target

theorem lowerItems (items : List Node) :
    Follows R o a (items.flatMap (Node.callsOfItem o)) (lowerItems a items) := by
  induction items with
  | nil => exact hR.pure () noneRead_nil
  | cons item rest ih =>
    rw [Python.lowerItems.eq_def, List.flatMap_cons]
    dsimp only
    split
    · rename_i s value targetSpan target
      rw [Node.callsOfItem, List.append_assoc]
      exact hR.andThen (hR.lowerNode value o a .value) fun _ =>
        hR.andThen (hR.bindTarget target _ _ _) fun _ => ih
    · rename_i hitem
      have hcalls : Node.callsOfItem o item = item.calls o.value := by
        unfold Node.callsOfItem
        split
        · exact (hitem _ _ _ _ rfl).elim
        · rfl
      rw [hcalls]
      exact hR.andThen (hR.lowerNode item o a .value) fun _ => ih

/-- The lowering of a statement follows a relation, however a function in it is reached. -/
def StmtFollows (R : StepRelation) (t : Stmt) : Prop :=
  ∀ o a route, Follows R o a (t.calls o) (lowerStmt a route t)

theorem lowerStmts {ts : List Stmt} (h : ∀ t ∈ ts, StmtFollows R t) :
    Follows R o a (Stmt.callsOfAll o ts) (lowerStmts a ts) := by
  induction ts with
  | nil => exact hR.pure () noneRead_nil
  | cons t rest ih =>
    rw [Python.lowerStmts, Stmt.callsOfAll]
    have hrest : ∀ t ∈ rest, _ := fun t ht => h t (List.mem_cons_of_mem _ ht)
    exact hR.andThen (h t (by simp) o a none) fun _ => ih hrest

theorem lowerBranches {branches : List (BranchOf Stmt)}
    (h : ∀ b ∈ branches, ∀ t ∈ b.body, StmtFollows R t) :
    Follows R o a (Stmt.callsOfBranches o branches) (lowerBranches a branches) := by
  induction branches with
  | nil => exact hR.pure () noneRead_nil
  | cons b rest ih =>
    obtain ⟨head, body⟩ := b
    have hbody := h ⟨head, body⟩ (by simp)
    have hrest := ih fun b hb => h b (List.mem_cons_of_mem _ hb)
    have hbranch : ∀ n, Follows R o (a.inBlock n) (head.calls o ++ Stmt.callsOfAll o body) (do
        Python.lowerHead (a.inBlock n) head
        Python.lowerStmts (a.inBlock n) body) :=
      fun n => hR.andThen (hR.lowerHead head) fun _ => hR.lowerStmts hbody
    rw [Python.lowerBranches, Stmt.callsOfBranches, ← List.append_assoc]
    intro s
    exact hR.trans (hR.branch (hbranch (s.blocks + 1) _)) (hrest _)

/-- Every relation that the single steps keep is kept by every statement. -/
theorem lowerStmt (t : Stmt) : StmtFollows R t := by
  induction t using Stmt.ind with
  | values parts =>
    intro o a route
    rw [Python.lowerStmt, Stmt.calls]
    refine hR.andEnd (hR.lowerNodes fun n _ => hR.lowerNode n) fun _ => hR.pure _ noneRead_nil
  | assign stop targets value =>
    intro o a route
    cases value with
    | none =>
      rw [Python.lowerStmt, Stmt.calls]
      exact hR.pure () (noneRead_ignored rfl)
    | some value =>
      rw [Python.lowerStmt, Stmt.calls]
      exact hR.andThen (hR.lowerNode value o a .value) fun _ => hR.bindTargets _ _ _ _
  | augmented s target value =>
    intro o a route
    rw [Python.lowerStmt, Stmt.calls]
    exact hR.andThen (hR.lowerNode target o a .value) fun _ =>
      hR.andEnd (hR.lowerNode value o a .value) fun _ => hR.bindLowered _ _ _
  | imports clauses => exact fun o a route => hR.pure () noneRead_nil
  | choice condition body branches ihb ihr =>
    intro o a route
    rw [Python.lowerStmt, Stmt.calls]
    exact hR.andThen (hR.lowerNode condition o a .value) fun _ =>
      hR.inBranch (fun _ => hR.lowerStmts ihb) fun _ => hR.lowerBranches ihr
  | whileLoop condition body branches ihb ihr =>
    intro o a route
    rw [Python.lowerStmt, Stmt.calls]
    exact hR.andThen (hR.lowerNode condition o a .value) fun _ =>
      hR.inBranch (fun _ => hR.lowerStmts ihb) fun _ => hR.lowerBranches ihr
  | forLoop target source body branches ihb ihr =>
    intro o a route
    rw [Python.lowerStmt, Stmt.calls, ← List.append_assoc (target.calls o.target)]
    refine hR.andThen (hR.lowerNode source o a .value) fun items => fun s => ?_
    have hbody : ∀ n, Follows R o (a.inBlock n) (target.calls o.target ++ Stmt.callsOfAll o body) (do
        Python.bindTarget (a.inBlock n) target items false source.span.stop
        Python.lowerStmts (a.inBlock n) body) :=
      fun n => hR.andThen (hR.bindTarget target _ _ _) fun _ => hR.lowerStmts ihb
    exact hR.trans (hR.branch (hbody (s.blocks + 1) _)) (hR.lowerBranches ihr _)
  | attempt body branches final ihb ihr ihf =>
    intro o a route
    rw [Python.lowerStmt, Stmt.calls]
    exact hR.inBranch (fun _ => hR.lowerStmts ihb) fun _ =>
      hR.andThen (hR.lowerBranches ihr) fun _ => hR.lowerStmts ihf
  | withItems items body ihb =>
    intro o a route
    rw [Python.lowerStmt, Stmt.calls]
    exact hR.andThen (hR.lowerItems items) fun _ => hR.lowerStmts ihb
  | cases subjects branches ihr =>
    intro o a route
    rw [Python.lowerStmt, Stmt.calls]
    exact hR.andThen (hR.lowerFirst (fun n _ => hR.lowerNode n) _) fun _ => hR.lowerBranches ihr
  | functionDef s name params defaults body ihb =>
    intro o a route
    rw [Python.lowerStmt, Stmt.calls]
    refine hR.andThen (hR.lowerNodes fun n _ => hR.lowerNode n) fun _ s' => ?_
    let scope : Scope :=
      { id := s'.scopes.length, name := a.qualify name, params, route, parent := some a.scope,
        place := a.place s }
    have hlog := hR.log (o := o) (a := a) (s := s')
      (.functionEntered (a.qualify name) s'.scopes.length route.isSome)
    exact hR.trans hlog (hR.scope scope name s rfl rfl rfl rfl (hR.lowerStmts ihb _))
  | classDef s name bases body ihb =>
    intro o a route
    rw [Python.lowerStmt, Stmt.calls]
    refine hR.andThen (hR.lowerArguments fun arg _ => hR.lowerNode arg.value) fun _ => ?_
    exact hR.inScope (fun _ => rfl) (fun _ => rfl) (fun _ => rfl) (fun _ => rfl)
      fun id => hR.lowerStmts ihb
  | decorated decorators definition ih =>
    intro o a route
    rw [Python.lowerStmt, Stmt.calls]
    exact hR.andThen (hR.lowerNodes fun n _ => hR.lowerNode n) fun _ => ih o a _

end StepInvariant

/-! ## Programs -/

/-- What is around the statements of a module. -/
def Around.ofModule (path : String) (symbols : Symbols) : Around :=
  { path, symbols, scope := moduleScope, block := [], qualifiers := [] }

/-- The facts before the first statement of a module. -/
def Lowered.ofModule (path : String) (p : Program) : Lowered :=
  { Lowered.empty with
    scopes := [{ id := moduleScope, name := "<module>", params := [], route := none,
                 parent := none, place := ⟨path, p.start.line, p.start.column⟩ }] }

theorem lowerProgram_eq (path : String) (symbols : Symbols) (p : Program) :
    lowerProgram path symbols p =
      (lowerStmts (Around.ofModule path symbols) p.body (Lowered.ofModule path p)).2 := by
  unfold lowerProgram visitProgram
  rw [visitStmts_eq fun t _ => visitStmt_eq t]
  rfl

theorem bindings_ofProgram (path text : String) (marker : Option String) (p : Program) :
    (FileFacts.ofProgram path text marker p).1.bindings =
      (lowerStmts (Around.ofModule path (symbolsOf p.body)) p.body
        (Lowered.ofModule path p)).2.bindings :=
  congrArg Lowered.bindings (lowerProgram_eq path _ p)

theorem StepInvariant.lowerProgram {R : StepRelation} (hR : StepInvariant R) (path : String)
    (symbols : Symbols) (p : Program) :
    R p.owner (Around.ofModule path symbols) p.calls (Lowered.ofModule path p)
      (lowerProgram path symbols p) := by
  rw [lowerProgram_eq]
  exact hR.lowerStmts (fun t _ => hR.lowerStmt t) _

end XPathTaint.Python
