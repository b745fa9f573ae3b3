import Mathlib.Tactic.Common
import XPathTaint.Proofs.BodyRuns
import XPathTaint.Proofs.LoweringSteps

-- What the lowering does with plain expressions and bodies, and that it only ever adds facts:
-- bindings made around a piece of a program stay in its scope and inside its blocks, and
-- those made in other scopes carry the numbers of those.

namespace XPathTaint.Python

/-! ## Plain expressions -/

theorem nodesOfAll_eq (ns : List Node) : Node.nodesOfAll ns = ns.flatMap Node.nodes := by
  induction ns with
  | nil => rfl
  | cons n rest ih => rw [Node.nodesOfAll, ih, List.flatMap_cons]

theorem nodesOfArguments_eq (args : List (ArgumentOf Node)) :
    Node.nodesOfArguments args = (args.map (·.value)).flatMap Node.nodes := by
  induction args with
  | nil => rfl
  | cons arg rest ih => rw [Node.nodesOfArguments, ih, List.map_cons, List.flatMap_cons]

theorem nodesOfClauses_eq (clauses : List (ClauseOf Node)) :
    Node.nodesOfClauses clauses = (clauses.flatMap (·.parts)).flatMap Node.nodes := by
  induction clauses with
  | nil => rfl
  | cons clause rest ih =>
    rw [List.flatMap_cons, List.flatMap_append]
    cases clause with
    | loop target sources => simp [Node.nodesOfClauses, ih, nodesOfAll_eq, ClauseOf.parts]
    | guard condition => simp [Node.nodesOfClauses, ih, ClauseOf.parts]

/-- The nodes in a node are the node and those in the nodes right below it. -/
theorem nodes_eq (n : Node) : n.nodes = n :: n.parts.flatMap Node.nodes := by
  cases n <;> simp [Node.nodes, Node.parts, nodesOfAll_eq, nodesOfArguments_eq, nodesOfClauses_eq]

theorem mem_nodes_of_part {n m k : Node} (hm : m ∈ n.parts) (hk : k ∈ m.nodes) : k ∈ n.nodes := by
  rw [nodes_eq]
  exact List.mem_cons_of_mem _ (List.mem_flatMap.mpr ⟨m, hm, hk⟩)

theorem self_mem_nodes (n : Node) : n ∈ n.nodes := by
  rw [nodes_eq]
  exact List.mem_cons_self

theorem mem_nodes_trans {n m k : Node} (hm : m ∈ n.nodes) (hk : k ∈ m.nodes) : k ∈ n.nodes := by
  induction n using Node.partsInd with
  | step n ih =>
    rw [nodes_eq] at hm
    rcases List.mem_cons.mp hm with rfl | hm
    · exact hk
    · obtain ⟨part, hpart, hm⟩ := List.mem_flatMap.mp hm
      exact mem_nodes_of_part hpart (ih part hpart hm)

/-- What holds of a node when it holds of all nodes inside of it holds of all nodes. -/
@[elab_as_elim]
theorem Node.insideInd {motive : Node → Prop}
    (step : ∀ n : Node, (∀ m ∈ n.parts, ∀ k ∈ m.nodes, motive k) → motive n) (n : Node) :
    motive n := by
  have hall : ∀ k ∈ n.nodes, motive k := by
    induction n using Node.partsInd with
    | step n ih =>
      intro k hk
      rw [nodes_eq] at hk
      rcases List.mem_cons.mp hk with rfl | hk
      · exact step k ih
      · obtain ⟨m, hm, hk⟩ := List.mem_flatMap.mp hk
        exact ih m hm k hk
  exact hall n (self_mem_nodes n)

theorem Node.IsPlain.part {n m : Node} (h : n.IsPlain) (hm : m ∈ n.parts) : m.IsPlain :=
  fun _ hk => h _ (mem_nodes_of_part hm hk)

/-- A call in an expression stands among its nodes. -/
theorem mem_nodes_of_calls (n : Node) {st : Standing} {c : CallNode} (h : c ∈ n.calls st) :
    ∀ k ∈ (Node.call c.span c.func c.args).nodes, k ∈ n.nodes := by
  induction n using Node.partsInd generalizing st with
  | step n ih =>
    rcases exists_of_calls n h with ⟨hself, _⟩ | ⟨m, hm, st', _, h⟩
    · rw [hself]
      exact fun _ hk => hk
    · exact fun k hk => mem_nodes_of_part hm (ih m hm h k hk)

/-- The call site of a call that is read for its value. -/
def CallNode.site (a : Around) (c : CallNode) : CallSite :=
  FileFacts.numberCall a.path
    { id := 0
      callee := (c.func.expr a.path a.symbols).dotted.map a.symbols.canonical
      func := c.func.expr a.path a.symbols
      args := Node.arguments a.path a.symbols c.args
      scope := a.scope, block := a.block, pos := c.span.pos, place := a.place c.span
      text := c.span.text }

/-- Between two states nothing was recorded but the calls that are read. -/
structure OnlyCalls (a : Around) (cs : List CallNode) (s s' : Lowered) : Prop where
  scopes : s'.scopes = s.scopes
  bindings : s'.bindings = s.bindings
  blocks : s'.blocks = s.blocks
  calls : s'.calls = s.calls ++ (cs.filter (·.isRead)).map (·.site a)

/-- Whatever was found before, `m` gives `x` and records nothing but calls. -/
def Yields {α : Type} (a : Around) (cs : List CallNode) (m : Lowering α) (x : α) : Prop :=
  ∀ s, (m s).1 = x ∧ OnlyCalls a cs s (m s).2

section

variable {a : Around} {o : Owner} {cs cs' : List CallNode} {α β : Type}

theorem OnlyCalls.trans {s₁ s₂ s₃ : Lowered} (h : OnlyCalls a cs s₁ s₂)
    (h' : OnlyCalls a cs' s₂ s₃) : OnlyCalls a (cs ++ cs') s₁ s₃ := by
  refine ⟨h'.scopes.trans h.scopes, h'.bindings.trans h.bindings, h'.blocks.trans h.blocks, ?_⟩
  rw [h'.calls, h.calls, List.filter_append, List.map_append, List.append_assoc]

theorem yields_pure (x : α) (h : NoneRead cs) : Yields a cs (pure x) x := by
  intro s
  refine ⟨rfl, rfl, rfl, rfl, ?_⟩
  have hcs : cs.filter (·.isRead) = [] := List.filter_eq_nil_iff.mpr fun c hc => by simp [h c hc]
  rw [hcs]
  exact (List.append_nil _).symm

theorem Yields.andThen {m : Lowering α} {f : α → Lowering β} {x : α} {y : β} (hm : Yields a cs m x)
    (hf : Yields a cs' (f x) y) : Yields a (cs ++ cs') (m >>= f) y := by
  intro s
  obtain ⟨hx, hs⟩ := hm s
  rw [run_bind, hx]
  obtain ⟨hy, hs'⟩ := hf (m s).2
  exact ⟨hy, hs.trans hs'⟩

theorem Yields.andEnd {m : Lowering α} {f : α → Lowering β} {x : α} {y : β} (hm : Yields a cs m x)
    (hf : Yields a [] (f x) y) : Yields a cs (m >>= f) y := by
  have h := hm.andThen hf
  rwa [List.append_nil] at h

theorem yields_nodes {ns : List Node}
    (h : ∀ n ∈ ns, Yields a (n.calls o.value) (lowerNode a .value n) (n.expr a.path a.symbols)) :
    Yields a (Node.callsOfAll o.value ns) (lowerNodes a ns) (Node.exprs a.path a.symbols ns) := by
  induction ns with
  | nil => exact yields_pure [] noneRead_nil
  | cons n rest ih =>
    rw [lowerNodes, Node.callsOfAll, Node.exprs]
    refine (h n (by simp)).andThen ((ih ?_).andEnd (yields_pure _ noneRead_nil))
    exact fun m hm => h m (List.mem_cons_of_mem _ hm)

theorem yields_first {ns : List Node} (missing : Expr)
    (h : ∀ n ∈ ns, Yields a (n.calls o.value) (lowerNode a .value n) (n.expr a.path a.symbols)) :
    Yields a (Node.callsOfFirst o.value ns) (lowerFirst a missing ns)
      (Node.exprOfFirst a.path a.symbols missing ns) := by
  cases ns with
  | nil => exact yields_pure missing noneRead_nil
  | cons n rest =>
    have hrest : Yields a (Node.callsOfAll o.value.ignored rest)
        (pure (n.expr a.path a.symbols)) (n.expr a.path a.symbols) :=
      yields_pure _ (noneRead_ignored rfl)
    rw [lowerFirst, Node.callsOfFirst, Node.exprOfFirst, ← bind_pure (lowerNode a .value n)]
    exact (h n (by simp)).andThen hrest

theorem yields_arguments {args : List (ArgumentOf Node)}
    (h : ∀ arg ∈ args, Yields a (arg.value.calls o.value) (lowerNode a .value arg.value)
      (arg.value.expr a.path a.symbols)) :
    Yields a (Node.callsOfArguments o.value args) (lowerArguments a args)
      (Node.arguments a.path a.symbols args) := by
  induction args with
  | nil => exact yields_pure [] noneRead_nil
  | cons arg rest ih =>
    obtain ⟨keyword, splat, value⟩ := arg
    rw [lowerArguments, Node.callsOfArguments, Node.arguments]
    refine (h ⟨keyword, splat, value⟩ (by simp)).andThen
      ((ih ?_).andEnd (yields_pure _ noneRead_nil))
    exact fun m hm => h m (List.mem_cons_of_mem _ hm)

theorem yields_log (e : Event) : Yields a [] (Lowering.log e) () :=
  fun _ => ⟨rfl, rfl, rfl, rfl, (List.append_nil _).symm⟩

theorem yields_recordCall (s : Span) (func : Node) (args : List (ArgumentOf Node)) :
    Yields a [⟨s, func, args, o, true⟩]
      (Lowering.recordCall a
        { id := 0
          callee := (func.expr a.path a.symbols).dotted.map a.symbols.canonical
          func := func.expr a.path a.symbols, args := Node.arguments a.path a.symbols args
          scope := a.scope, block := a.block, pos := s.pos, place := a.place s, text := s.text })
      () :=
  fun _ => ⟨rfl, rfl, rfl, rfl, rfl⟩

/-- The lowering of a plain expression gives what it stands for and records its calls alone. -/
theorem yields_node (n : Node) (hn : n.IsPlain) :
    Yields a (n.calls o.value) (lowerNode a .value n) (n.expr a.path a.symbols) := by
  induction n using Node.ind with
  | name s =>
    rw [lowerNode, Node.expr]
    exact yields_pure _ noneRead_nil
  | constant s =>
    rw [lowerNode, Node.expr]
    exact yields_pure _ noneRead_nil
  | string s values formats ihv ihf =>
    rw [lowerNode, Node.expr, Node.calls]
    exact (yields_nodes fun m hm => ihv m hm (hn.part (List.mem_append_left _ hm))).andThen
      (yields_pure _ (noneRead_ignored rfl))
  | strings s parts ih =>
    rw [lowerNode, Node.expr, Node.calls]
    exact (yields_nodes fun m hm => ih m hm (hn.part hm)).andEnd (yields_pure _ noneRead_nil)
  | member s object attr ih =>
    rw [lowerNode, Node.expr, Node.calls]
    exact (ih (hn.part List.mem_cons_self)).andEnd (yields_pure _ noneRead_nil)
  | subscript s value indices ihv ihi =>
    have hindices : ∀ m ∈ indices, Yields a (m.calls o.value) (lowerNode a .value m)
        (m.expr a.path a.symbols) :=
      fun m hm => ihi m hm (hn.part (List.mem_cons_of_mem _ hm))
    rw [lowerNode, Node.expr, Node.calls]
    exact (ihv (hn.part List.mem_cons_self)).andThen
      ((yields_first _ hindices).andEnd (yields_pure _ noneRead_nil))
  | call s func args ihf iha =>
    have hargs : ∀ arg ∈ args, Yields a (arg.value.calls o.value) (lowerNode a .value arg.value)
        (arg.value.expr a.path a.symbols) := fun arg harg =>
      iha arg harg (hn.part (List.mem_cons_of_mem _ (List.mem_map_of_mem harg)))
    rw [lowerNode, Node.expr, Node.calls]
    refine (ihf (hn.part List.mem_cons_self)).andThen ((yields_arguments hargs).andThen ?_)
    dsimp only
    split
    · exact (yields_log _).andThen ((yields_recordCall s func args).andEnd
        (yields_pure _ noneRead_nil))
    · exact (yields_recordCall s func args).andEnd (yields_pure _ noneRead_nil)
  | paren s lead inner ih =>
    rw [lowerNode.eq_def, Node.expr, Node.calls]
    exact ih (hn.part List.mem_cons_self)
  | starred s lead inner ih =>
    rw [lowerNode.eq_def, Node.expr, Node.calls]
    exact (ih (hn.part List.mem_cons_self)).andEnd (yields_pure _ noneRead_nil)
  | hidden comment inner ih =>
    rw [lowerNode, Node.expr, Node.calls]
    exact yields_pure _ (noneRead_calls inner rfl)
  | walrus s target value ih => exact absurd (hn _ (self_mem_nodes _)) (by simp [Node.isBinder])
  | aliased s value targetSpan target ihv iht =>
    have htarget := iht (hn.part (List.mem_cons_of_mem _ List.mem_cons_self))
    rw [lowerNode, Node.expr, Node.calls]
    exact (ihv (hn.part List.mem_cons_self)).andThen (htarget.andEnd (yields_pure _ noneRead_nil))
  | lambda s params defaults body ihd ihb =>
    exact absurd (hn _ (self_mem_nodes _)) (by simp [Node.isBinder])
  | comprehension s body clauses ihb ihc =>
    exact absurd (hn _ (self_mem_nodes _)) (by simp [Node.isBinder])
  | test s parts ih =>
    rw [lowerNode, Node.expr, Node.calls]
    exact (yields_nodes fun m hm => ih m hm (hn.part hm)).andEnd (yields_pure _ noneRead_nil)
  | group s form parts ih =>
    have hparts : o.value.part form = o.value := by cases form <;> rfl
    rw [lowerNode.eq_def, Node.expr, Node.calls, hparts]
    exact (yields_nodes fun m hm => ih m hm (hn.part hm)).andEnd (yields_pure _ noneRead_nil)

end

/-! ## Growth -/

/-- The scope and the blocks around are those of the facts found so far. -/
structure Around.Known (a : Around) (s : Lowered) : Prop where
  scope : a.scope < s.scopes.length
  block : ∀ k ∈ a.block, k ≤ s.blocks

/-- A binding made around a piece of a program, or in a scope that the piece opened. -/
structure MadeIn (a : Around) (s s' : Lowered) (b : Binding) : Prop where
  scope : b.scope = a.scope ∧ a.block <+: b.block ∨ s.scopes.length ≤ b.scope
  known : b.scope < s'.scopes.length
  block : ∀ k ∈ b.block, k ≤ s'.blocks

/-- Nothing that was found is lost, and what is new stands where it was made. -/
structure Grown (a : Around) (s s' : Lowered) : Prop where
  scopes : s.scopes <+: s'.scopes
  calls : s.calls <+: s'.calls
  blocks : s.blocks ≤ s'.blocks
  bindings : ∃ new, s'.bindings = s.bindings ++ new ∧ ∀ b ∈ new, MadeIn a s s' b

section

variable {a : Around} {s s' s₁ s₂ s₃ : Lowered}

theorem Around.Known.grow (h : a.Known s) (hscopes : s.scopes <+: s'.scopes)
    (hblocks : s.blocks ≤ s'.blocks) : a.Known s' :=
  ⟨Nat.lt_of_lt_of_le h.scope hscopes.length_le, fun k hk => Nat.le_trans (h.block k hk) hblocks⟩

theorem Grown.known (h : Grown a s s') (ha : a.Known s) : a.Known s' := ha.grow h.scopes h.blocks

theorem Grown.of_bindings_eq (hscopes : s'.scopes = s.scopes) (hcalls : s.calls <+: s'.calls)
    (hblocks : s'.blocks = s.blocks) (hbindings : s'.bindings = s.bindings) : Grown a s s' := by
  refine ⟨hscopes ▸ List.prefix_refl _, hcalls, Nat.le_of_eq hblocks.symm, [], ?_, by simp⟩
  rw [hbindings, List.append_nil]

theorem Grown.trans (h : Grown a s₁ s₂) (h' : Grown a s₂ s₃) : Grown a s₁ s₃ := by
  obtain ⟨new, hb, hnew⟩ := h.bindings
  obtain ⟨new', hb', hnew'⟩ := h'.bindings
  refine ⟨h.scopes.trans h'.scopes, h.calls.trans h'.calls, Nat.le_trans h.blocks h'.blocks,
    new ++ new', by rw [hb', hb, List.append_assoc], ?_⟩
  intro b hbm
  rcases List.mem_append.mp hbm with hbm | hbm
  · obtain ⟨hscope, hknown, hblock⟩ := hnew b hbm
    exact ⟨hscope, Nat.lt_of_lt_of_le hknown h'.scopes.length_le,
      fun k hk => Nat.le_trans (hblock k hk) h'.blocks⟩
  · obtain ⟨hscope, hknown, hblock⟩ := hnew' b hbm
    exact ⟨hscope.imp id (Nat.le_trans h.scopes.length_le), hknown, hblock⟩

/-- A body in a block of its own stays inside the blocks around. -/
theorem Grown.of_inBlock {n : Nat} (h : Grown (a.inBlock n) s₁ s') (hs : s₁.scopes = s.scopes)
    (hc : s₁.calls = s.calls) (hb : s₁.bindings = s.bindings) (hn : s.blocks ≤ s₁.blocks) :
    Grown a s s' := by
  obtain ⟨new, hnew, hmade⟩ := h.bindings
  refine ⟨hs ▸ h.scopes, hc ▸ h.calls, Nat.le_trans hn h.blocks, new, hb ▸ hnew, ?_⟩
  intro b hbm
  obtain ⟨hscope, hknown, hblock⟩ := hmade b hbm
  refine ⟨?_, hknown, hblock⟩
  rw [← hs]
  exact hscope.imp (fun h => ⟨h.1, (List.prefix_append _ _).trans h.2⟩) id

/-- A body in a scope of its own leaves the scope around alone. -/
theorem Grown.of_within {scope : Scope} {name : String}
    (h : Grown (a.within s.scopes.length name) { s with scopes := s.scopes ++ [scope] } s') :
    Grown a s s' := by
  obtain ⟨new, hnew, hmade⟩ := h.bindings
  refine ⟨(List.prefix_append _ _).trans h.scopes, h.calls, h.blocks, new, hnew, ?_⟩
  intro b hbm
  obtain ⟨hscope, hknown, hblock⟩ := hmade b hbm
  refine ⟨Or.inr ?_, hknown, hblock⟩
  rcases hscope with hscope | hscope
  · exact Nat.le_of_eq hscope.1.symm
  · rw [List.length_append] at hscope
    exact Nat.le_trans (Nat.le_add_right _ _) hscope

theorem grown_stepInvariant : StepInvariant fun _ a _ s s' => a.Known s → Grown a s s' where
  skip := fun _ _ => .of_bindings_eq rfl (List.prefix_refl _) rfl rfl
  trans := fun h h' ha => (h ha).trans (h' ((h ha).known ha))
  log := fun _ _ => .of_bindings_eq rfl (List.prefix_refl _) rfl rfl
  bind := by
    intro o a s name value pos place ha
    refine ⟨List.prefix_refl _, List.prefix_refl _, Nat.le_refl _, _, rfl, ?_⟩
    intro b hb
    obtain rfl := List.mem_singleton.mp hb
    unfold FileFacts.numberBinding
    rw [if_pos rfl]
    exact ⟨Or.inl ⟨rfl, List.prefix_refl _⟩, ha.scope, ha.block⟩
  call := fun _ _ _ _ _ _ _ _ _ _ => .of_bindings_eq rfl (List.prefix_append _ _) rfl rfl
  branch := by
    intro o a cs s s' h ha
    refine Grown.of_inBlock (h ⟨ha.scope, ?_⟩) rfl rfl rfl (Nat.le_succ s.blocks)
    intro k hk
    rcases List.mem_append.mp hk with hk | hk
    · exact Nat.le_trans (ha.block k hk) (Nat.le_succ _)
    · exact Nat.le_of_eq (List.mem_singleton.mp hk)
  scope := by
    intro o a cs s s' scope name span _ _ _ _ h ha
    refine Grown.of_within (h ⟨?_, ?_⟩)
    · simp [Around.within]
    · simp [Around.within]

theorem grown_lowerStmts (o : Owner) (ts : List Stmt) (ha : a.Known s) :
    Grown a s (lowerStmts a ts s).2 :=
  grown_stepInvariant.lowerStmts (o := o) (fun t _ => grown_stepInvariant.lowerStmt t) s ha

theorem grown_lowerStmt (o : Owner) (route : Option Route) (t : Stmt) (ha : a.Known s) :
    Grown a s (lowerStmt a route t s).2 :=
  grown_stepInvariant.lowerStmt t o a route s ha

theorem grown_lowerBranches (o : Owner) (branches : List (BranchOf Stmt)) (ha : a.Known s) :
    Grown a s (lowerBranches a branches s).2 :=
  grown_stepInvariant.lowerBranches (o := o)
    (fun _ _ t _ => grown_stepInvariant.lowerStmt t) s ha

end

/-! ## Plain bodies -/

/-- The bindings of a scope, in the order in which they were made. -/
def Lowered.madeIn (s : Lowered) (scope : ScopeId) : List Binding :=
  s.bindings.filter (·.scope == scope)

/-- The bindings made between two states stand in order, from `lo` to `hi`. -/
def Placed (scope : ScopeId) (lo hi : Nat) (s s' : Lowered) : Prop :=
  lo ≤ hi ∧ ∃ more, s'.madeIn scope = s.madeIn scope ++ more ∧ more.Pairwise (·.pos < ·.pos) ∧
    ∀ b ∈ more, lo < b.pos ∧ b.pos ≤ hi

section

variable {a : Around} {o : Owner} {s s' s₁ s₂ s₃ : Lowered} {scope : ScopeId} {lo mid hi : Nat}

theorem Placed.of_bindings_eq (hle : lo ≤ hi) (hb : s'.bindings = s.bindings) :
    Placed scope lo hi s s' := by
  refine ⟨hle, [], ?_, List.Pairwise.nil, by simp⟩
  rw [Lowered.madeIn, hb, List.append_nil]
  rfl

theorem Placed.trans (h : Placed scope lo mid s₁ s₂) (h' : Placed scope mid hi s₂ s₃) :
    Placed scope lo hi s₁ s₃ := by
  obtain ⟨hle, more, hmade, hord, hmore⟩ := h
  obtain ⟨hle', more', hmade', hord', hmore'⟩ := h'
  refine ⟨Nat.le_trans hle hle', more ++ more', ?_, ?_, ?_⟩
  · rw [hmade', hmade, List.append_assoc]
  · rw [List.pairwise_append]
    refine ⟨hord, hord', fun b hb c hc => ?_⟩
    exact Nat.lt_of_le_of_lt (hmore b hb).2 (hmore' c hc).1
  · intro b hb
    rcases List.mem_append.mp hb with hb | hb
    · exact ⟨(hmore b hb).1, Nat.le_trans (hmore b hb).2 hle'⟩
    · exact ⟨Nat.lt_of_le_of_lt hle (hmore' b hb).1, (hmore' b hb).2⟩

/-- The values of a statement bind nothing. -/
theorem lowerStmt_values {parts : List Node} (route : Option Route)
    (hparts : ∀ n ∈ parts, n.IsPlain) :
    OnlyCalls a (Node.callsOfAll o.value parts) s (lowerStmt a route (.values parts) s).2 := by
  rw [lowerStmt]
  exact (yields_nodes fun n hn => yields_node n (hparts n hn)).andEnd
    (yields_pure _ noneRead_nil) s |>.2

/-- An assignment to a name binds it to the value, behind the statement. -/
def assignedBinding (a : Around) (stop : Nat) (name : Span) (value : Node) : Binding :=
  FileFacts.numberBinding a.path
    { id := 0, name := name.text, value := value.expr a.path a.symbols, scope := a.scope
      block := a.block, pos := stop, place := a.place name }

theorem lowerStmt_assign {stop : Nat} {name : Span} {value : Node} (route : Option Route)
    (hvalue : value.IsPlain) :
    ∃ s₁, OnlyCalls a (value.calls o.value) s s₁ ∧
      (lowerStmt a route (.assign stop [.name name] (some value)) s).2 =
        { s₁ with bindings := s₁.bindings ++ [assignedBinding a stop name value] } := by
  obtain ⟨hexpr, honly⟩ := yields_node (o := o) value hvalue s
  refine ⟨(lowerNode a .value value s).2, honly, ?_⟩
  rw [lowerStmt, run_bind, hexpr]
  rfl

/-- The facts once a block number is given away. -/
def Lowered.numbered (s : Lowered) : Lowered := { s with blocks := s.blocks + 1 }

/-- What surrounds a body that gets the next block number. -/
def Around.branch (a : Around) (s : Lowered) : Around := a.inBlock (s.blocks + 1)

theorem Around.Known.branch (ha : a.Known s) : (a.branch s).Known s.numbered := by
  refine ⟨ha.scope, fun k hk => ?_⟩
  rcases List.mem_append.mp hk with hk | hk
  · exact Nat.le_succ_of_le (ha.block k hk)
  · exact Nat.le_of_eq (List.mem_singleton.mp hk)

theorem lowerStmt_choice (route : Option Route) (condition : Node) (body : List Stmt)
    (branches : List (BranchOf Stmt)) (hs : (lowerNode a .value condition s).2 = s₁)
    (hb : (lowerStmts (a.branch s₁) body s₁.numbered).2 = s₂) :
    (lowerStmt a route (.choice condition body branches) s).2 =
      (lowerBranches a branches s₂).2 := by
  rw [lowerStmt, run_bind, hs, ← hb]
  rfl

theorem lowerBranches_cons (head : Head) (body : List Stmt) (rest : List (BranchOf Stmt))
    (hs : (lowerHead (a.branch s) head s.numbered).2 = s₁)
    (hb : (lowerStmts (a.branch s) body s₁).2 = s₂) :
    (lowerBranches a (⟨head, body⟩ :: rest) s).2 = (lowerBranches a rest s₂).2 := by
  rw [lowerBranches, ← hb, ← hs]
  rfl

/-- A plain head binds nothing. -/
theorem lowerHead_plain {head : Head} (hhead : head.IsPlain) :
    OnlyCalls a (head.calls o) s (lowerHead a head s).2 := by
  cases head with
  | plain => exact (yields_pure () noneRead_nil s).2
  | condition value =>
    exact ((yields_node value hhead).andEnd (yields_pure _ noneRead_nil) s).2
  | handler kind target others => exact hhead.elim
  | guard value => exact hhead.elim

/-- A plain statement binds between its ends. -/
def StmtPlaced (t : Stmt) : Prop :=
  ∀ a s route lo hi, t.IsPlain → t.LaidOut lo hi → Placed a.scope lo hi s (lowerStmt a route t s).2

theorem placed_stmts {ts : List Stmt} (h : ∀ t ∈ ts, StmtPlaced t) (hplain : Stmt.ArePlain ts)
    (hlaid : Stmt.AreLaidOut lo hi ts) : Placed a.scope lo hi s (lowerStmts a ts s).2 := by
  induction ts generalizing s lo with
  | nil => exact .of_bindings_eq hlaid rfl
  | cons t rest ih =>
    obtain ⟨mid, ht, hrest⟩ := hlaid
    rw [lowerStmts]
    exact (h t (by simp) a s none lo mid hplain.1 ht).trans
      (ih (fun t ht => h t (List.mem_cons_of_mem _ ht)) hplain.2 hrest)

theorem placed_branches {branches : List (BranchOf Stmt)}
    (h : ∀ b ∈ branches, ∀ t ∈ b.body, StmtPlaced t) (hplain : Stmt.ArePlainBranches branches)
    (hlaid : Stmt.AreLaidOutBranches lo hi branches) :
    Placed a.scope lo hi s (lowerBranches a branches s).2 := by
  induction branches generalizing s lo with
  | nil => exact .of_bindings_eq hlaid rfl
  | cons b rest ih =>
    obtain ⟨head, body⟩ := b
    obtain ⟨hhead, hbody, hrest⟩ := hplain
    obtain ⟨start, mid, hle, _, hlbody, hlrest⟩ := hlaid
    have hhead := lowerHead_plain (a := a.branch s) (o := ⟨[], default⟩) (s := s.numbered) hhead
    have hstart : Placed a.scope lo start s (lowerHead (a.branch s) head s.numbered).2 :=
      .of_bindings_eq hle hhead.bindings
    have hmid := placed_stmts (a := a.branch s) (s := (lowerHead (a.branch s) head s.numbered).2)
      (h ⟨head, body⟩ (by simp)) hbody hlbody
    rw [lowerBranches_cons head body rest rfl rfl]
    exact (hstart.trans hmid).trans
      (ih (fun b hb => h b (List.mem_cons_of_mem _ hb)) hrest hlrest)

theorem pos_assignedBinding (stop : Nat) (name : Span) (value : Node) :
    (assignedBinding a stop name value).pos = stop := by
  unfold assignedBinding FileFacts.numberBinding
  split <;> rfl

theorem plain_assign {stop : Nat} {targets : List Node} {value : Option Node}
    (h : (Stmt.assign stop targets value).IsPlain) :
    ∃ name v, targets = [.name name] ∧ value = some v ∧ v.IsPlain := by
  unfold Stmt.IsPlain at h
  split at h
  · rename_i heq
    cases heq
  · rename_i heq
    cases heq
    exact ⟨_, _, rfl, rfl, h⟩
  · rename_i heq
    cases heq
  · exact h.elim

theorem madeIn_assign {stop : Nat} {name : Span} {value : Node} (route : Option Route)
    (hvalue : value.IsPlain) :
    (lowerStmt a route (.assign stop [.name name] (some value)) s).2.madeIn a.scope =
      s.madeIn a.scope ++ [assignedBinding a stop name value] := by
  obtain ⟨s₁, honly, hs⟩ := lowerStmt_assign (o := ⟨[], default⟩) (s := s) route hvalue
  have hscope : (assignedBinding a stop name value).scope = a.scope := by
    unfold assignedBinding FileFacts.numberBinding
    split <;> rfl
  rw [hs, Lowered.madeIn, List.filter_append, honly.bindings, Lowered.madeIn]
  simp [hscope]

theorem placed_stmt (t : Stmt) : StmtPlaced t := by
  induction t using Stmt.ind with
  | values parts =>
    intro a s route lo hi hplain hlaid
    exact .of_bindings_eq hlaid.1 (lowerStmt_values (o := ⟨[], default⟩) route hplain).bindings
  | assign stop targets value =>
    intro a s route lo hi hplain hlaid
    obtain ⟨name, v, rfl, rfl, hv⟩ := plain_assign hplain
    obtain ⟨hlo, hhi, _⟩ := hlaid
    refine ⟨Nat.le_trans (Nat.le_of_lt hlo) hhi, _, madeIn_assign route hv,
      List.pairwise_singleton _ _, ?_⟩
    intro b hb
    obtain rfl := List.mem_singleton.mp hb
    rw [pos_assignedBinding]
    exact ⟨hlo, hhi⟩
  | choice condition body branches ihb ihr =>
    intro a s route lo hi hplain hlaid
    obtain ⟨hcondition, hbody, hbranches⟩ := hplain
    obtain ⟨start, mid, hle, _, hlbody, hlbranches⟩ := hlaid
    have hread := (yields_node (a := a) (o := ⟨[], default⟩) condition hcondition s).2
    generalize hs₁ : (lowerNode a .value condition s).2 = s₁ at hread
    have hstart : Placed a.scope lo start s s₁ := .of_bindings_eq hle hread.bindings
    have hmid := placed_stmts (a := a.branch s₁) (s := s₁.numbered) ihb hbody hlbody
    rw [lowerStmt_choice route condition body branches hs₁ rfl]
    exact (hstart.trans hmid).trans (placed_branches ihr hbranches hlbranches)
  | augmented s target value => exact fun a s route lo hi hplain hlaid => hplain.elim
  | imports clauses => exact fun a s route lo hi hplain hlaid => hplain.elim
  | whileLoop condition body branches ihb ihr =>
    exact fun a s route lo hi hplain hlaid => hplain.elim
  | forLoop target source body branches ihb ihr =>
    exact fun a s route lo hi hplain hlaid => hplain.elim
  | attempt body branches final ihb ihr ihf =>
    exact fun a s route lo hi hplain hlaid => hplain.elim
  | withItems items body ihb => exact fun a s route lo hi hplain hlaid => hplain.elim
  | cases subjects branches ihr => exact fun a s route lo hi hplain hlaid => hplain.elim
  | functionDef s name params defaults body ihb =>
    exact fun a s route lo hi hplain hlaid => hplain.elim
  | classDef s name bases body ihb => exact fun a s route lo hi hplain hlaid => hplain.elim
  | decorated decorators definition ih => exact fun a s route lo hi hplain hlaid => hplain.elim

end

end XPathTaint.Python
