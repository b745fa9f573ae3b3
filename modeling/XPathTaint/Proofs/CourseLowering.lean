import XPathTaint.Proofs.LoweringSteps
import XPathTaint.Proofs.ProgramCourse

-- The lowering follows the course of a program: the calls and bindings that a node or statement
-- adds are those of its course in order, each with the scope and the block path of its place.

namespace XPathTaint.Python

/-! ## What a course adds -/

/-- What was recorded between two states is what a course has at a place around. -/
structure Adds (a : Around) (c : Course Item) (s s' : Lowered) : Prop where
  blocks : s'.blocks = s.blocks + c.blocks
  scopes : s'.scopes.length = s.scopes.length + c.scopes
  facts : ∀ here : Here, here.scope = a.scope → here.block = a.block →
    s'.calls = s.calls ++
      (c.locate here s.blocks s.scopes.length).leaves.filterMap (Mark.call? a.path) ∧
    s'.bindings = s.bindings ++
      (c.locate here s.blocks s.scopes.length).leaves.filterMap (Mark.binding? a.path)

/-- Whatever was found before, `m` adds what the course has, and its result is as told. -/
def Takes {α : Type} (a : Around) (c : Course Item) (m : Lowering α) (result : α → Prop) : Prop :=
  ∀ s, result (m s).1 ∧ Adds a c s (m s).2

section

variable {a : Around} {c c' : Course Item} {s s' s₁ s₂ s₃ : Lowered} {α β : Type}
  {result : α → Prop} {result' : β → Prop}

theorem adds_nothing (hblocks : s'.blocks = s.blocks) (hscopes : s'.scopes = s.scopes)
    (hcalls : s'.calls = s.calls) (hbindings : s'.bindings = s.bindings) :
    Adds a .nothing s s' := by
  refine ⟨hblocks, by rw [hscopes]; rfl, ?_⟩
  intro here _ _
  simp [Course.locate, Course.leaves, hcalls, hbindings]

theorem adds_read (span : Span) (s : Lowered) : Adds a (.item (.read span)) s s := by
  refine ⟨rfl, rfl, ?_⟩
  intro here _ _
  simp [Course.locate, Course.leaves, Mark.call?, Mark.binding?]

theorem Adds.pair (order : PairOrder) (h : Adds a c s₁ s₂) (h' : Adds a c' s₂ s₃) :
    Adds a (.pair order c c') s₁ s₃ := by
  refine ⟨by simp only [h'.blocks, h.blocks, Course.blocks]; omega,
    by simp only [h'.scopes, h.scopes, Course.scopes]; omega, ?_⟩
  intro here hscope hblock
  obtain ⟨hcalls, hbindings⟩ := h.facts (here.side order false) (by simp [hscope])
    (by simp [hblock])
  obtain ⟨hcalls', hbindings'⟩ := h'.facts (here.side order true) (by simp [hscope])
    (by simp [hblock])
  simp only [Course.locate, Course.leaves, List.filterMap_append, ← List.append_assoc]
  rw [hcalls', hbindings', hcalls, hbindings, h.blocks, h.scopes]
  exact ⟨rfl, rfl⟩

/-- What changes nothing may follow. -/
theorem Adds.then_nothing (h : Adds a c s₁ s₂) (h' : Adds a .nothing s₂ s₃) : Adds a c s₁ s₃ := by
  have hpair := h.pair .forward h'
  refine ⟨hpair.blocks, hpair.scopes, ?_⟩
  intro here hscope hblock
  obtain ⟨hcalls, hbindings⟩ := h.facts here hscope hblock
  obtain ⟨hcalls', hbindings'⟩ := h'.facts here hscope hblock
  simp only [Course.locate, Course.leaves, List.filterMap_nil, List.append_nil]
    at hcalls' hbindings'
  rw [hcalls', hbindings']
  exact ⟨hcalls, hbindings⟩

theorem Adds.again (h : Adds a c s s') : Adds a (.again c) s s' := by
  refine ⟨h.blocks, h.scopes, ?_⟩
  intro here hscope hblock
  exact h.facts (here.part false) hscope hblock

theorem Adds.skip (h : Adds a c s s') : Adds a (.optional false c) s s' := by
  refine ⟨h.blocks, h.scopes, ?_⟩
  intro here hscope hblock
  exact h.facts here.inSkip hscope hblock

theorem Adds.block (h : Adds (a.inBlock (s.blocks + 1)) c { s with blocks := s.blocks + 1 } s') :
    Adds a (.optional true c) s s' := by
  refine ⟨?_, h.scopes, ?_⟩
  · rw [h.blocks, Course.blocks, Nat.add_assoc, Nat.add_comm 1]
  · intro here hscope hblock
    apply h.facts (here.inBlock (s.blocks + 1)) hscope
    simp [Here.inBlock, Around.inBlock, hblock]

theorem Adds.scope {name : String} {scope : Scope} (h : Adds (a.within s.scopes.length name) c
    { s with scopes := s.scopes ++ [scope] } s') : Adds a (.scope c) s s' := by
  refine ⟨h.blocks, ?_, ?_⟩
  · rw [h.scopes, List.length_append, Course.scopes]
    simp only [List.length_singleton]
    omega
  · intro here _ _
    have hfacts := h.facts (here.within s.scopes.length) rfl rfl
    rw [List.length_append] at hfacts
    exact hfacts

/-! ## Steps -/

theorem takes_pure (x : α) (h : result x) : Takes a .nothing (pure x) result :=
  fun _ => ⟨h, adds_nothing rfl rfl rfl rfl⟩

theorem Takes.imp {weaker : α → Prop} {m : Lowering α} (h : Takes a c m result)
    (himp : ∀ x, result x → weaker x) : Takes a c m weaker :=
  fun s => ⟨himp _ (h s).1, (h s).2⟩

theorem Takes.pair (order : PairOrder) {m : Lowering α} {f : α → Lowering β}
    (h : Takes a c m result) (hf : ∀ x, result x → Takes a c' (f x) result') :
    Takes a (.pair order c c') (m >>= f) result' := by
  intro s
  obtain ⟨hx, hadds⟩ := h s
  obtain ⟨hy, hadds'⟩ := hf _ hx (m s).2
  exact ⟨hy, hadds.pair order hadds'⟩

theorem Takes.ending {m : Lowering α} {f : α → Lowering β} (h : Takes a c m result)
    (hf : ∀ x, result x → Takes a .nothing (f x) result') : Takes a c (m >>= f) result' := by
  intro s
  obtain ⟨hx, hadds⟩ := h s
  obtain ⟨hy, hadds'⟩ := hf _ hx (m s).2
  exact ⟨hy, hadds.then_nothing hadds'⟩

/-- What adds nothing adds nothing wherever it stands. -/
theorem Takes.elsewhere {a' : Around} {m : Lowering α} (h : Takes a .nothing m result) :
    Takes a' .nothing m result := by
  intro s
  obtain ⟨hx, hadds⟩ := h s
  refine ⟨hx, hadds.blocks, hadds.scopes, ?_⟩
  intro _ _ _
  exact hadds.facts ⟨[], a.scope, a.block, [], [], []⟩ rfl rfl

/-- Two pieces that belong together, and what follows both. -/
theorem Takes.pairThen {γ : Type} {c'' : Course Item} {result'' : γ → Prop}
    (order order' : PairOrder) {m : Lowering α} {f : α → Lowering β} {g : α → β → Lowering γ}
    (h : Takes a c m result) (hf : ∀ x, result x → Takes a c' (f x) result')
    (hg : ∀ x y, result x → result' y → Takes a c'' (g x y) result'') :
    Takes a (.pair order (.pair order' c c') c'') (m >>= fun x => f x >>= g x) result'' := by
  intro s
  obtain ⟨hx, hadds⟩ := h s
  obtain ⟨hy, hadds'⟩ := hf _ hx (m s).2
  obtain ⟨hz, hadds''⟩ := hg _ _ hx hy (f (m s).1 (m s).2).2
  exact ⟨hz, (hadds.pair order' hadds').pair order hadds''⟩

theorem Takes.again {m : Lowering α} (h : Takes a c m result) : Takes a (.again c) m result :=
  fun s => ⟨(h s).1, (h s).2.again⟩

theorem Takes.skip {m : Lowering α} (h : Takes a c m result) :
    Takes a (.optional false c) m result := fun s => ⟨(h s).1, (h s).2.skip⟩

/-- A body in a block of its own. -/
theorem takes_block {m : Nat → Lowering α} (h : ∀ n, Takes (a.inBlock n) c (m n) result) :
    Takes a (.optional true c) (Lowering.newBlock >>= m) result := by
  intro s
  obtain ⟨hx, hadds⟩ := h (s.blocks + 1) { s with blocks := s.blocks + 1 }
  exact ⟨hx, hadds.block⟩

/-- A body in a block of its own, and what follows it. -/
theorem takes_blockThen {m : Nat → Lowering α} {f : α → Lowering β}
    (h : ∀ n, Takes (a.inBlock n) c (m n) result) (hf : ∀ x, Takes a c' (f x) result') :
    Takes a (.pair .forward (.optional true c) c') (Lowering.newBlock >>= fun n => m n >>= f)
      result' := fun s => (takes_block h).pair .forward (fun x _ => hf x) s

/-- A body in a scope of its own. -/
theorem takes_scope {scope : ScopeId → Scope} {name : String} {m : ScopeId → Lowering α}
    (h : ∀ id, Takes (a.within id name) c (m id) result) :
    Takes a (.scope c) (Lowering.nextScope >>= fun id =>
      Lowering.recordScope (scope id) >>= fun _ => m id) result := by
  intro s
  obtain ⟨hx, hadds⟩ := h s.scopes.length
    { s with scopes := s.scopes ++ [scope s.scopes.length] }
  exact ⟨hx, hadds.scope⟩

/-- Events are no facts. -/
theorem takes_logged (e : Event) {m : Lowering α} (h : Takes a c m result) :
    Takes a c (Lowering.log e >>= fun _ => m) result := by
  intro s
  obtain ⟨hx, hadds⟩ := h (Lowering.log e s).2
  exact ⟨hx, hadds.blocks, hadds.scopes, hadds.facts⟩

theorem takes_bind (ahead : Bool) (name : String) (value : Expr) (pos : Nat) (place : Place) :
    Takes a (.item (.bind ahead name value pos place)) (Lowering.bind a name value pos place)
      fun _ => True := by
  intro s
  refine ⟨trivial, rfl, rfl, ?_⟩
  rintro ⟨address, scope, block, around, skips, sides⟩ rfl rfl
  exact ⟨(List.append_nil _).symm, rfl⟩

theorem takes_recordCall (span : Span) (func : Node) (args : List (ArgumentOf Node)) :
    Takes a (.item (callItem a.path a.symbols span func args))
      (Lowering.recordCall a
        { id := 0
          callee := (func.expr a.path a.symbols).dotted.map a.symbols.canonical
          func := func.expr a.path a.symbols, args := Node.arguments a.path a.symbols args
          scope := a.scope, block := a.block, pos := span.pos, place := a.place span
          text := span.text }) fun _ => True := by
  intro s
  refine ⟨trivial, rfl, rfl, ?_⟩
  rintro ⟨address, scope, block, around, skips, sides⟩ rfl rfl
  exact ⟨rfl, (List.append_nil _).symm⟩

/-! ## Targets -/

theorem takes_bindLowered (ahead : Bool) (target value : Expr) (pos : Nat) :
    Takes a (taking ahead target value pos) (Lowering.bindLowered a target value pos)
      fun _ => True := by
  unfold taking Lowering.bindLowered
  cases target with
  | name id o => exact takes_bind _ _ _ _ _
  | member object attr o =>
    cases (Expr.member object attr o).dotted with
    | some path => exact takes_bind _ _ _ _ _
    | none => exact takes_pure _ trivial
  | subscript base index o =>
    dsimp only
    cases base.dotted with
    | some path => exact takes_bind _ _ _ _ _
    | none => exact takes_pure _ trivial
  | literal value o => exact takes_pure _ trivial
  | call func callee args o => exact takes_pure _ trivial
  | compound operands o => exact takes_pure _ trivial
  | unknown o => exact takes_pure _ trivial

/-- What a goal is reached with is what was read, if the goal is to read. -/
theorem takes_finish (ahead : Bool) (goal : Goal) (e : Expr) :
    Takes a (goal.finish ahead e) (goal.reach a e) fun x => goal = .value → x = e := by
  cases goal with
  | value => exact takes_pure e fun _ => rfl
  | target given pairwise pos =>
    exact (takes_bindLowered ahead e given pos).ending fun _ _ => takes_pure e fun _ => rfl

theorem takes_settle (ahead : Bool) (goal : Goal) (span : Span) (e : Expr) :
    Takes a (goal.settle ahead span e) (goal.reach a e) fun x => goal = .value → x = e := by
  cases goal with
  | value => exact fun s => ⟨fun _ => rfl, adds_read span s⟩
  | target given pairwise pos => exact takes_finish ahead (.target given pairwise pos) e

/-- What is no name, path or item takes no value. -/
theorem takes_reach (goal : Goal) (e : Expr)
    (h : ∀ given pos, taking false e given pos = .nothing) :
    Takes a .nothing (goal.reach a e) fun x => goal = .value → x = e := by
  have hfinish : goal.finish false e = .nothing := by
    cases goal with
    | value => rfl
    | target given pairwise pos => exact h given pos
  have htakes := takes_finish (a := a) false goal e
  rwa [hfinish] at htakes

end

/-! ## Nodes -/

/-- The lowering of a node takes the course of the node, and a value that is read is the one that
the node stands for. -/
def TakesNode (n : Node) : Prop :=
  ∀ a ahead goal, Takes a (n.course a.path a.symbols ahead goal) (lowerNode a goal n)
    fun e => goal = .value → e = n.expr a.path a.symbols

section

variable {a : Around} {ns : List Node}

theorem TakesNode.value {n : Node} (h : TakesNode n) (a : Around) :
    Takes a (n.course a.path a.symbols false .value) (lowerNode a .value n)
      (· = n.expr a.path a.symbols) := (h a false .value).imp fun _ he => he rfl

/-- One node more, with a course of its own and one for the rest. -/
theorem takes_nodes_cons (order : PairOrder) {n : Node} {c c' : Course Item}
    (h : Takes a c (lowerNode a .value n) (· = n.expr a.path a.symbols))
    (hrest : Takes a c' (lowerNodes a ns) (· = Node.exprs a.path a.symbols ns)) :
    Takes a (.pair order c c') (lowerNodes a (n :: ns))
      (· = Node.exprs a.path a.symbols (n :: ns)) := by
  rw [lowerNodes, Node.exprs]
  refine h.pair order ?_
  rintro e rfl
  refine hrest.ending ?_
  rintro es rfl
  exact takes_pure _ rfl

theorem takes_nodes (h : ∀ n ∈ ns, TakesNode n) :
    Takes a (.all .forward (Node.courses a.path a.symbols ns)) (lowerNodes a ns)
      (· = Node.exprs a.path a.symbols ns) := by
  induction ns with
  | nil => exact takes_pure [] rfl
  | cons n rest ih =>
    have hrest := ih fun m hm => h m (List.mem_cons_of_mem _ hm)
    exact takes_nodes_cons .forward ((h n (by simp)).value a) hrest

theorem takes_cutShort (sure : Nat) (h : ∀ n ∈ ns, TakesNode n) :
    Takes a (.cutShort sure (Node.courses a.path a.symbols ns)) (lowerNodes a ns)
      (· = Node.exprs a.path a.symbols ns) := by
  induction ns generalizing sure with
  | nil =>
    rw [Node.courses, Course.cutShort]
    exact takes_pure [] rfl
  | cons n rest ih =>
    cases sure with
    | zero => exact (takes_nodes h).skip
    | succ sure =>
      have hrest := ih sure fun m hm => h m (List.mem_cons_of_mem _ hm)
      exact takes_nodes_cons .forward ((h n (by simp)).value a) hrest

theorem takes_conditional (h : ∀ n ∈ ns, TakesNode n) :
    Takes a (.conditional (Node.courses a.path a.symbols ns)) (lowerNodes a ns)
      (· = Node.exprs a.path a.symbols ns) := by
  match ns with
  | [value, condition, other] =>
    have hvalue := ((h value (by simp)).value a).skip
    have hcondition := (h condition (by simp)).value a
    have hother : Takes a (.optional false (other.course a.path a.symbols false .value))
        (lowerNodes a [other]) (· = Node.exprs a.path a.symbols [other]) := by
      rw [lowerNodes, Node.exprs]
      refine ((h other (by simp)).value a).skip.ending ?_
      rintro e rfl
      exact takes_pure _ rfl
    exact takes_nodes_cons .backward hvalue (takes_nodes_cons .forward hcondition hother)
  | [] | [_] | [_, _] | _ :: _ :: _ :: _ :: _ => exact takes_nodes h

theorem takes_group (form : GroupForm) (h : ∀ n ∈ ns, TakesNode n) :
    Takes a (.ofGroup form (Node.courses a.path a.symbols ns)) (lowerNodes a ns)
      (· = Node.exprs a.path a.symbols ns) := by
  cases form with
  | sequence => exact takes_nodes h
  | shortCircuit => exact takes_cutShort 1 h
  | conditional => exact takes_conditional h
  | other => exact takes_nodes h

theorem takes_first (missing : Expr) (h : ∀ n ∈ ns, TakesNode n) :
    Takes a (Node.courseOfFirst a.path a.symbols ns) (lowerFirst a missing ns)
      (· = Node.exprOfFirst a.path a.symbols missing ns) := by
  cases ns with
  | nil => exact takes_pure missing rfl
  | cons n rest => exact (h n (by simp)).value a

theorem takes_arguments {args : List (ArgumentOf Node)} (h : ∀ arg ∈ args, TakesNode arg.value) :
    Takes a (.arguments (Node.coursesOfArguments a.path a.symbols args)) (lowerArguments a args)
      (· = Node.arguments a.path a.symbols args) := by
  induction args with
  | nil => exact takes_pure [] rfl
  | cons arg rest ih =>
    obtain ⟨keyword, splat, value⟩ := arg
    have hvalue := (h ⟨keyword, splat, value⟩ (by simp)).value a
    have hrest := ih fun m hm => h m (List.mem_cons_of_mem _ hm)
    rw [lowerArguments, Node.arguments]
    refine hvalue.pair _ ?_
    rintro e rfl
    refine hrest.ending ?_
    rintro es rfl
    exact takes_pure _ rfl

/-- The clauses of a comprehension, and then the rest of it. -/
theorem takes_clauses {clauses : List (ClauseOf Node)} {last : Course Item} {m : Lowering Expr}
    {result : Expr → Prop} (pos : Nat) (h : ∀ c ∈ clauses, c.Holds TakesNode)
    (hlast : Takes a last m result) :
    Takes a (Node.courseOfClauses a.path a.symbols pos last clauses)
      (lowerClauses a pos clauses >>= fun _ => m) result := by
  induction clauses with
  | nil => exact hlast
  | cons clause rest ih =>
    have hrest := ih fun c hc => h c (List.mem_cons_of_mem _ hc)
    have hclause := h clause (by simp)
    cases clause with
    | loop target sources =>
      rw [lowerClauses, Node.courseOfClauses, bind_assoc]
      refine (takes_first _ hclause.2).pair .forward ?_
      rintro source rfl
      rw [bind_assoc]
      exact ((hclause.1 a true _).pair .forward fun _ _ => hrest).skip
    | guard condition =>
      rw [lowerClauses, Node.courseOfClauses, bind_assoc]
      exact ((hclause.value a).pair .forward fun _ _ => hrest)

theorem takes_bindAll (ahead : Bool) (value : Expr) (pos : Nat) (h : ∀ n ∈ ns, TakesNode n) :
    Takes a (.all (orderOf ahead) (Node.coursesOfTargets a.path a.symbols ahead pos
      (List.replicate ns.length value) ns)) (bindAll a value pos ns) fun _ => True := by
  induction ns with
  | nil => exact takes_pure () trivial
  | cons n rest ih =>
    have hrest := ih fun m hm => h m (List.mem_cons_of_mem _ hm)
    rw [bindAll]
    exact (h n (by simp) a ahead (.target value false pos)).pair _ fun _ _ => hrest

theorem takes_bindPairs (ahead : Bool) (values : List Expr) (pos : Nat)
    (h : ∀ n ∈ ns, TakesNode n) :
    Takes a (.all (orderOf ahead) (Node.coursesOfTargets a.path a.symbols ahead pos values ns))
      (bindPairs a pos values ns) fun _ => True := by
  induction ns generalizing values with
  | nil =>
    rw [bindPairs, Node.coursesOfTargets]
    exact takes_pure () trivial
  | cons n rest ih =>
    cases values with
    | nil => exact takes_pure () trivial
    | cons value values =>
      have hrest := ih values fun m hm => h m (List.mem_cons_of_mem _ hm)
      rw [bindPairs]
      exact (h n (by simp) a ahead (.target value false pos)).pair _ fun _ _ => hrest

/-- The targets of a sequence, taken apart or not, and what follows them. -/
theorem takes_targets {f : Unit → Lowering Expr} {result : Expr → Prop} (ahead : Bool)
    (value : Expr) (pairwise : Bool) (pos : Nat) (h : ∀ n ∈ ns, TakesNode n)
    (hf : ∀ x, Takes a .nothing (f x) result) :
    Takes a (.all (orderOf ahead) (Node.coursesOfTargets a.path a.symbols ahead pos
        (valuesFor value pairwise ns.length) ns))
      (match value with
        | .compound operands _ =>
          if pairwise && operands.length == ns.length then bindPairs a pos operands ns >>= f
          else bindAll a value pos ns >>= f
        | _ => bindAll a value pos ns >>= f) result := by
  have hall := (takes_bindAll (a := a) ahead value pos h).ending fun x _ => hf x
  unfold valuesFor
  cases value with
  | compound operands o =>
    dsimp only
    split
    · exact (takes_bindPairs ahead operands pos h).ending fun x _ => hf x
    · exact hall
  | name id o => exact hall
  | literal value o => exact hall
  | member object attr o => exact hall
  | subscript base index o => exact hall
  | call func callee args o => exact hall
  | unknown o => exact hall

theorem takes_call {s : Span} {func : Node} {args : List (ArgumentOf Node)} (hf : TakesNode func)
    (ha : ∀ arg ∈ args, TakesNode arg.value) : TakesNode (.call s func args) := by
  intro a ahead goal
  rw [lowerNode, Node.course, Node.expr]
  refine (hf.value a).pair .forward ?_
  rintro e rfl
  refine (takes_arguments ha).pair .forward ?_
  rintro es rfl
  dsimp only
  have hreach : Takes a .nothing (goal.reach a (.call (func.expr a.path a.symbols)
      ((func.expr a.path a.symbols).dotted.map a.symbols.canonical)
      (Node.arguments a.path a.symbols args) (a.origin s))) _ := takes_reach goal _ fun _ _ => rfl
  have hrecord := (takes_recordCall (a := a) s func args).ending fun _ _ => hreach
  split
  · exact takes_logged _ hrecord
  · exact hrecord

/-- Every node is lowered along its course. -/
theorem takes_node (n : Node) : TakesNode n := by
  induction n using Node.ind with
  | name s =>
    intro a ahead goal
    rw [lowerNode, Node.course, Node.expr]
    exact takes_settle ahead goal s _
  | constant s =>
    intro a ahead goal
    rw [lowerNode, Node.course, Node.expr]
    exact takes_reach goal _ fun _ _ => rfl
  | string s values formats ihv ihf =>
    intro a ahead goal
    rw [lowerNode, Node.course, Node.expr]
    refine (takes_nodes ihv).ending ?_
    rintro es rfl
    refine takes_reach goal _ fun _ _ => ?_
    split <;> rfl
  | strings s parts ih =>
    intro a ahead goal
    rw [lowerNode, Node.course, Node.expr]
    refine (takes_nodes ih).ending ?_
    rintro es rfl
    refine takes_reach goal _ fun _ _ => ?_
    unfold joinStrings
    split <;> rfl
  | member s object attr ih =>
    intro a ahead goal
    rw [lowerNode, Node.course, Node.expr]
    refine (ih.value a).pair _ ?_
    rintro e rfl
    exact takes_settle ahead goal s _
  | subscript s value indices ihv ihi =>
    intro a ahead goal
    rw [lowerNode, Node.course, Node.expr]
    refine (ihv.value a).pairThen _ .forward (fun _ _ => takes_first _ ihi) ?_
    rintro e i rfl rfl
    exact takes_finish ahead goal _
  | call s func args ihf iha => exact takes_call ihf iha
  | paren s lead inner ih =>
    intro a ahead goal
    rw [lowerNode.eq_def, Node.course.eq_def, Node.expr]
    cases goal with
    | value => exact ih a ahead .value
    | target given pairwise pos =>
      cases lead with
      | some comment => exact takes_pure _ (by simp)
      | none => exact ih a ahead (.target given pairwise pos)
  | starred s lead inner ih =>
    intro a ahead goal
    rw [lowerNode.eq_def, Node.course.eq_def, Node.expr]
    cases goal with
    | value =>
      refine (ih a ahead .value).ending ?_
      intro e he
      obtain rfl := he rfl
      exact takes_pure _ fun _ => rfl
    | target given pairwise pos =>
      cases lead with
      | some comment => exact takes_pure _ (by simp)
      | none => exact (ih a ahead (.target given pairwise pos)).imp fun _ _ h => by simp at h
  | hidden comment inner ih =>
    intro a ahead goal
    rw [lowerNode, Node.course, Node.expr]
    exact takes_reach goal _ fun _ _ => rfl
  | walrus s target value ih =>
    intro a ahead goal
    rw [lowerNode, Node.course, Node.expr]
    have hbind : ∀ e, e = value.expr a.path a.symbols → Takes a
        (.item (.bind false target.text (value.expr a.path a.symbols) s.stop (a.place target)))
        (Lowering.bind a target.text e s.stop (a.place target)) fun _ => True := by
      rintro e rfl
      exact takes_bind false target.text _ s.stop _
    refine (ih.value a).pairThen _ .forward hbind ?_
    rintro e _ rfl _
    exact takes_finish ahead goal _
  | aliased s value targetSpan target ihv iht =>
    intro a ahead goal
    rw [lowerNode, Node.course, Node.expr]
    refine (ihv.value a).pair .forward ?_
    rintro e rfl
    refine (iht.value a).ending ?_
    rintro e rfl
    exact takes_reach goal _ fun _ _ => rfl
  | lambda s params defaults body ihd ihb =>
    intro a ahead goal
    rw [lowerNode, Node.course, Node.expr]
    refine (takes_nodes ihd).pair .forward fun _ _ => ?_
    refine takes_scope fun id => (ihb.value _).ending fun _ _ => ?_
    exact (takes_reach goal _ fun _ _ => rfl).elsewhere
  | comprehension s body clauses ihb ihc =>
    intro a ahead goal
    rw [lowerNode, Node.course, Node.expr]
    refine takes_block fun n => takes_clauses s.pos ihc ((ihb.value _).skip.ending ?_)
    rintro e rfl
    exact (takes_reach goal _ fun _ _ => rfl).elsewhere
  | test s parts ih =>
    intro a ahead goal
    rw [lowerNode, Node.course, Node.expr]
    refine (takes_cutShort 2 ih).ending fun _ _ => ?_
    exact takes_reach goal _ fun _ _ => rfl
  | group s form parts ih =>
    intro a ahead goal
    rw [lowerNode.eq_def, Node.course.eq_def, Node.expr]
    have hgroup : Takes a (.ofGroup form (Node.courses a.path a.symbols parts))
        (lowerNodes a parts >>= fun es => goal.reach a (.compound es (a.origin s)))
        fun e => goal = .value → e = .compound (Node.exprs a.path a.symbols parts)
          (originIn a.path s) := by
      refine (takes_group form ih).ending ?_
      rintro es rfl
      exact takes_reach goal _ fun _ _ => rfl
    cases goal with
    | value => cases form <;> exact hgroup
    | target given pairwise pos =>
      cases form with
      | sequence =>
        exact takes_targets ahead given pairwise pos ih fun _ => takes_pure _ (by simp)
      | shortCircuit => exact hgroup
      | conditional => exact hgroup
      | other => exact hgroup

/-! ## Statements -/

theorem takes_bindTarget (target : Node) (value : Expr) (pairwise : Bool) (pos : Nat) :
    Takes a (target.course a.path a.symbols false (.target value pairwise pos))
      (bindTarget a target value pairwise pos) fun _ => True :=
  (takes_node target a false _).ending fun _ _ => takes_pure () trivial

theorem takes_bindTargets (targets : List Node) (value : Expr) (pairwise : Bool) (pos : Nat) :
    Takes a (courseOfTargets a.path a.symbols value pairwise pos targets)
      (bindTargets a value pairwise pos targets) fun _ => True := by
  unfold courseOfTargets bindTargets
  cases targets.reverse with
  | nil => exact takes_pure () trivial
  | cons last others =>
    refine (takes_bindTarget last value pairwise pos).pair .backward fun _ _ => ?_
    induction others with
    | nil => exact takes_pure () trivial
    | cons target rest ih =>
      simp only [List.forIn_cons, bind_assoc, pure_bind]
      exact (takes_bindTarget target value false pos).pair .backward fun _ _ => ih

theorem takes_head (head : Head) :
    Takes a (head.course a.path a.symbols) (lowerHead a head) fun _ => True := by
  cases head with
  | plain => exact takes_pure () trivial
  | guard value => exact takes_pure () trivial
  | condition value =>
    exact ((takes_node value).value a).ending fun _ _ => takes_pure () trivial
  | handler kind target others =>
    cases kind with
    | none =>
      have hnone : Takes a .nothing (pure ()) fun _ => True := takes_pure () trivial
      cases target with
      | none => exact hnone.pair .forward fun _ _ => hnone
      | some target =>
        intro s
        exact hnone.pair .forward (fun _ _ => takes_bindTarget target _ false target.span.stop) s
    | some kind =>
      have hkind := (takes_node kind).value a
      cases target with
      | none => exact hkind.pair .forward fun _ _ => takes_pure () trivial
      | some target =>
        exact hkind.pair .forward fun _ _ => takes_bindTarget target _ false target.span.stop

theorem takes_items (items : List Node) :
    Takes a (.all .forward (items.map (courseOfItem a.path a.symbols))) (lowerItems a items)
      fun _ => True := by
  induction items with
  | nil => exact takes_pure () trivial
  | cons item rest ih =>
    rw [lowerItems.eq_def, List.map_cons]
    dsimp only
    split
    · rename_i s value targetSpan target
      have htarget : ∀ e, e = value.expr a.path a.symbols →
          Takes a (target.course a.path a.symbols false
            (.target (value.expr a.path a.symbols) false s.stop))
          (bindTarget a target e false s.stop) fun _ => True := by
        rintro e rfl
        exact takes_bindTarget target _ false s.stop
      exact ((takes_node value).value a).pairThen .forward .forward htarget fun _ _ _ _ => ih
    · rename_i hitem
      have hcourse : courseOfItem a.path a.symbols item =
          item.course a.path a.symbols false .value := by
        unfold courseOfItem
        split
        · exact (hitem _ _ _ _ rfl).elim
        · rfl
      rw [Course.all, hcourse]
      exact ((takes_node item).value a).pair .forward fun _ _ => ih

end

/-- The lowering of a statement takes the course of the statement, however a function in it is
reached. -/
def TakesStmt (t : Stmt) : Prop :=
  ∀ a route, Takes a (t.course a.path a.symbols) (lowerStmt a route t) fun _ => True

section

variable {a : Around}

theorem takes_stmts {ts : List Stmt} (h : ∀ t ∈ ts, TakesStmt t) :
    Takes a (Stmt.courseOfAll a.path a.symbols ts) (lowerStmts a ts) fun _ => True := by
  induction ts with
  | nil => exact takes_pure () trivial
  | cons t rest ih =>
    have hrest := ih fun t ht => h t (List.mem_cons_of_mem _ ht)
    exact (h t (by simp) a none).pair .forward fun _ _ => hrest

theorem takes_branches {branches : List (BranchOf Stmt)}
    (h : ∀ b ∈ branches, ∀ t ∈ b.body, TakesStmt t) :
    Takes a (Stmt.courseOfBranches a.path a.symbols branches) (lowerBranches a branches)
      fun _ => True := by
  induction branches with
  | nil => exact takes_pure () trivial
  | cons b rest ih =>
    obtain ⟨head, body⟩ := b
    have hrest := ih fun b hb => h b (List.mem_cons_of_mem _ hb)
    have hbody : ∀ n, Takes (a.inBlock n) _ (lowerHead (a.inBlock n) head >>= fun _ =>
        lowerStmts (a.inBlock n) body) fun _ => True := fun n =>
      (takes_head head).pair .forward fun _ _ => takes_stmts (h ⟨head, body⟩ (by simp))
    exact takes_blockThen hbody fun _ => hrest

/-- The body of a function or class. -/
theorem takes_body {ts : List Stmt} (scope : ScopeId → Scope) (name : String)
    (h : ∀ t ∈ ts, TakesStmt t) :
    Takes a (.scope (Stmt.courseOfAll a.path a.symbols ts))
      (Lowering.nextScope >>= fun id => Lowering.recordScope (scope id) >>= fun _ =>
        lowerStmts (a.within id name) ts) fun _ => True :=
  takes_scope fun _ => takes_stmts h

/-- Every statement is lowered along its course. -/
theorem takes_stmt (t : Stmt) : TakesStmt t := by
  induction t using Stmt.ind with
  | values parts =>
    intro a route
    exact (takes_nodes fun n _ => takes_node n).ending fun _ _ => takes_pure () trivial
  | assign stop targets value =>
    intro a route
    cases value with
    | none => exact takes_pure () trivial
    | some value =>
      rw [lowerStmt, Stmt.course]
      refine ((takes_node value).value a).pair .either ?_
      rintro e rfl
      exact takes_bindTargets targets _ _ _
  | augmented s target value =>
    intro a route
    rw [lowerStmt, Stmt.course]
    refine ((takes_node target).value a).pair .forward ?_
    rintro e rfl
    refine ((takes_node value).value a).pair .forward ?_
    rintro e rfl
    exact takes_bindLowered false _ _ _
  | imports clauses => exact fun a route => takes_pure () trivial
  | choice condition body branches ihb ihr =>
    intro a route
    rw [lowerStmt, Stmt.course]
    exact ((takes_node condition).value a).pair .forward fun _ _ =>
      takes_blockThen (fun _ => takes_stmts ihb) fun _ => takes_branches ihr
  | whileLoop condition body branches ihb ihr =>
    intro a route
    rw [lowerStmt, Stmt.course]
    have hbody : Takes a (.optional true (Stmt.courseOfAll a.path a.symbols body))
        (Lowering.newBlock >>= fun n => lowerStmts (a.inBlock n) body) fun _ => True :=
      takes_block fun _ => takes_stmts ihb
    have hloop := ((takes_node condition).value a).pair .forward fun _ _ => hbody
    intro s
    exact hloop.again.pair .forward (fun _ _ => takes_branches ihr) s
  | forLoop target source body branches ihb ihr =>
    intro a route
    rw [lowerStmt, Stmt.course]
    refine ((takes_node source).value a).pair .forward ?_
    rintro e rfl
    have hbody : ∀ n, Takes (a.inBlock n) _ (bindTarget (a.inBlock n) target
        (source.expr a.path a.symbols) false source.span.stop >>= fun _ =>
          lowerStmts (a.inBlock n) body) fun _ => True := fun n =>
      (takes_bindTarget target _ _ _).pair .forward fun _ _ => takes_stmts ihb
    exact takes_blockThen hbody fun _ => takes_branches ihr
  | attempt body branches final ihb ihr ihf =>
    intro a route
    rw [lowerStmt, Stmt.course]
    exact takes_blockThen (fun _ => takes_stmts ihb) fun _ =>
      (takes_branches ihr).pair .forward fun _ _ => takes_stmts ihf
  | withItems items body ihb =>
    intro a route
    rw [lowerStmt, Stmt.course]
    exact (takes_items items).pair .forward fun _ _ => takes_stmts ihb
  | cases subjects branches ihr =>
    intro a route
    rw [lowerStmt, Stmt.course]
    exact (takes_first _ fun n _ => takes_node n).pair .forward fun _ _ => takes_branches ihr
  | functionDef s name params defaults body ihb =>
    intro a route
    rw [lowerStmt, Stmt.course]
    refine (takes_nodes fun n _ => takes_node n).pair .forward fun _ _ => ?_
    have hscope := takes_body (a := a)
      (fun id => { id, name := a.qualify name, params, route, parent := some a.scope,
                   place := a.place s }) name ihb
    intro s'
    exact takes_logged (.functionEntered (a.qualify name) s'.scopes.length route.isSome) hscope s'
  | classDef s name bases body ihb =>
    intro a route
    rw [lowerStmt, Stmt.course]
    exact (takes_arguments fun arg _ => takes_node arg.value).pair .forward fun _ _ =>
      takes_body _ name ihb
  | decorated decorators definition ih =>
    intro a route
    rw [lowerStmt, Stmt.course]
    exact (takes_nodes fun n _ => takes_node n).pair .forward fun _ _ => ih a _

end

/-! ## Programs -/

/-- The calls and bindings of a program are those of its course, in order. -/
theorem lowerProgram_facts (path : String) (symbols : Symbols) (p : Program) :
    (lowerProgram path symbols p).calls =
        (p.located path symbols).leaves.filterMap (Mark.call? path) ∧
      (lowerProgram path symbols p).bindings =
        (p.located path symbols).leaves.filterMap (Mark.binding? path) := by
  rw [lowerProgram_eq]
  obtain ⟨_, hadds⟩ := takes_stmts (a := .ofModule path symbols) (fun t _ => takes_stmt t)
    (Lowered.ofModule path p)
  exact hadds.facts .ofModule rfl rfl

end XPathTaint.Python
