import XPathTaint.Proofs.PlainLowering

-- Where the body of each function is lowered: in a scope that no earlier fact is in and that
-- no later one enters, from outside of all blocks.

namespace XPathTaint.Python

/-! ## Entries -/

/-- The body of a routine is lowered in `a` from `s` on, and among the facts `final` those of
its scope are what that gives. -/
structure Enters (r : Routine) (a : Around) (s final : Lowered) : Prop where
  block : a.block = []
  known : a.Known s
  fresh : s.madeIn a.scope = []
  scope : ∃ f, final.scopes[a.scope]? = some f ∧ f.name = r.owner.name ∧
    f.place = placeIn a.path r.owner.start ∧ f.params = r.params ∧ f.route = r.route
  calls : (lowerStmts a r.body s).2.calls <+: final.calls
  made : final.madeIn a.scope = (lowerStmts a r.body s).2.madeIn a.scope

/-- Between two states the body of a routine is lowered in a scope of its own. -/
def Contains (path : String) (symbols : Symbols) (r : Routine) (s s' : Lowered) : Prop :=
  ∃ a s₁, a.path = path ∧ a.symbols = symbols ∧ s.scopes.length ≤ a.scope ∧
    a.scope < s'.scopes.length ∧ Enters r a s₁ s'

/-- All bindings are in scopes that are recorded. -/
def Complete (s : Lowered) : Prop := ∀ b ∈ s.bindings, b.scope < s.scopes.length

section

variable {path : String} {symbols : Symbols} {r : Routine} {o : Owner} {a : Around}
  {s s' s₁ s₂ s₃ : Lowered}

theorem Complete.grow (h : Complete s) (hg : Grown a s s') : Complete s' := by
  obtain ⟨new, hb, hnew⟩ := hg.bindings
  intro b hbm
  rw [hb] at hbm
  rcases List.mem_append.mp hbm with hbm | hbm
  · exact Nat.lt_of_lt_of_le (h b hbm) hg.scopes.length_le
  · exact (hnew b hbm).known

theorem Complete.madeIn_eq_nil (h : Complete s) {scope : ScopeId} (hs : s.scopes.length ≤ scope) :
    s.madeIn scope = [] := by
  refine List.filter_eq_nil_iff.mpr fun b hb => ?_
  rw [beq_iff_eq]
  exact Nat.ne_of_lt (Nat.lt_of_lt_of_le (h b hb) hs)

/-- What comes after a routine, in a scope around it, leaves it alone. -/
theorem Contains.later (h : Contains path symbols r s s₁) (ha : a.Known s) (hg : Grown a s₁ s₂) :
    Contains path symbols r s s₂ := by
  obtain ⟨a', s', hpath, hsymbols, hlo, hhi, he⟩ := h
  refine ⟨a', s', hpath, hsymbols, hlo, Nat.lt_of_lt_of_le hhi hg.scopes.length_le, ?_⟩
  obtain ⟨f, hf, hrest⟩ := he.scope
  refine ⟨he.block, he.known, he.fresh, ⟨f, ?_, hrest⟩, he.calls.trans hg.calls, ?_⟩
  · obtain ⟨more, hmore⟩ := hg.scopes
    rw [← hmore, List.getElem?_append_left hhi, hf]
  · obtain ⟨new, hb, hnew⟩ := hg.bindings
    have hnone : new.filter (·.scope == a'.scope) = [] := by
      refine List.filter_eq_nil_iff.mpr fun b hbm => ?_
      rw [beq_iff_eq]
      rcases (hnew b hbm).scope with h | h
      · rw [h.1]
        exact Nat.ne_of_lt (Nat.lt_of_lt_of_le ha.scope hlo)
      · exact Nat.ne_of_gt (Nat.lt_of_lt_of_le hhi h)
    rw [← he.made, Lowered.madeIn, hb, List.filter_append, hnone, List.append_nil]
    rfl

theorem Contains.earlier (h : Contains path symbols r s₁ s₂)
    (hs : s.scopes.length ≤ s₁.scopes.length) : Contains path symbols r s s₂ := by
  obtain ⟨a', s', hpath, hsymbols, hlo, hrest⟩ := h
  exact ⟨a', s', hpath, hsymbols, Nat.le_trans hs hlo, hrest⟩

/-! ## Steps -/

/-- A run of `m` around `a` loses nothing. -/
def Grows {α : Type} (a : Around) (m : Lowering α) : Prop := ∀ s, a.Known s → Grown a s (m s).2

/-- A run of `m` around `a` lowers the body of the routine. -/
def Holding {α : Type} (path : String) (symbols : Symbols) (r : Routine) (a : Around)
    (m : Lowering α) : Prop :=
  ∀ s, a.Known s → Complete s → Contains path symbols r s (m s).2

variable {α β : Type}

theorem grows_pure (x : α) : Grows a (pure x : Lowering α) :=
  fun s _ => .of_bindings_eq rfl (List.prefix_refl s.calls) rfl rfl

theorem Grows.andThen {m : Lowering α} {f : α → Lowering β} (hm : Grows a m)
    (hf : ∀ x, Grows a (f x)) : Grows a (m >>= f) :=
  fun s ha => (hm s ha).trans (hf _ _ ((hm s ha).known ha))

theorem Grows.inBranch {m : Nat → Lowering α} (hm : ∀ n, Grows (a.inBlock n) (m n)) :
    Grows a (Lowering.newBlock >>= m) := fun s ha =>
  (hm (s.blocks + 1) s.numbered ha.branch).of_inBlock rfl rfl rfl (Nat.le_succ s.blocks)

theorem Holding.before {m : Lowering α} {f : α → Lowering β} (hm : Holding path symbols r a m)
    (hf : ∀ x, Grows a (f x)) (hg : Grows a m) : Holding path symbols r a (m >>= f) := by
  intro s ha hs
  exact (hm s ha hs).later ha (hf _ _ ((hg s ha).known ha))

theorem Holding.after {m : Lowering α} {f : α → Lowering β} (hm : Grows a m)
    (hf : ∀ x, Holding path symbols r a (f x)) : Holding path symbols r a (m >>= f) := by
  intro s ha hs
  have hgrown := hm s ha
  exact (hf _ _ (hgrown.known ha) (hs.grow hgrown)).earlier hgrown.scopes.length_le

theorem Holding.inBranch {m : Nat → Lowering α}
    (hm : ∀ n, Holding path symbols r (a.inBlock n) (m n)) :
    Holding path symbols r a (Lowering.newBlock >>= m) := fun s ha hs =>
  hm (s.blocks + 1) s.numbered ha.branch hs

theorem grows_node (n : Node) (goal : Goal) : Grows a (lowerNode a goal n) :=
  grown_stepInvariant.lowerNode n ⟨[], default⟩ a goal

theorem grows_nodes (ns : List Node) : Grows a (lowerNodes a ns) :=
  grown_stepInvariant.lowerNodes (o := ⟨[], default⟩) fun n _ => grown_stepInvariant.lowerNode n

theorem grows_stmts (ts : List Stmt) : Grows a (lowerStmts a ts) :=
  grown_stepInvariant.lowerStmts (o := ⟨[], default⟩) fun t _ => grown_stepInvariant.lowerStmt t

theorem grows_branches (branches : List (BranchOf Stmt)) : Grows a (lowerBranches a branches) :=
  grown_stepInvariant.lowerBranches (o := ⟨[], default⟩)
    fun _ _ t _ => grown_stepInvariant.lowerStmt t

/-! ## Statements -/

/-- The body of each function in a statement is lowered with the statement. -/
def StmtHolds (path : String) (symbols : Symbols) (t : Stmt) : Prop :=
  ∀ o a route r, a.path = path → a.symbols = symbols → o.names = a.qualifiers →
    r ∈ t.routines symbols o route → Holding path symbols r a (lowerStmt a route t)

theorem holding_stmts {ts : List Stmt} (h : ∀ t ∈ ts, StmtHolds path symbols t)
    (hpath : a.path = path) (hsymbols : a.symbols = symbols) (ho : o.names = a.qualifiers)
    (hr : r ∈ Stmt.routinesOfAll symbols o ts) : Holding path symbols r a (lowerStmts a ts) := by
  induction ts with
  | nil => simp [Stmt.routinesOfAll] at hr
  | cons t rest ih =>
    have hfirst : Grows a (lowerStmt a none t) :=
      grown_stepInvariant.lowerStmt t ⟨[], default⟩ a none
    rw [lowerStmts]
    rw [Stmt.routinesOfAll] at hr
    rcases List.mem_append.mp hr with hr | hr
    · have ht := h t (by simp) o a none r hpath hsymbols ho hr
      exact ht.before (fun _ => grows_stmts rest) hfirst
    · exact .after hfirst fun _ => ih (fun t ht => h t (List.mem_cons_of_mem _ ht)) hr

/-- One branch, in a block of its own. -/
def lowerBranch (a : Around) (head : Head) (body : List Stmt) : Lowering Unit := do
  let inner := a.inBlock (← Lowering.newBlock)
  lowerHead inner head
  lowerStmts inner body

theorem lowerBranches_eq (head : Head) (body : List Stmt) (rest : List (BranchOf Stmt)) :
    lowerBranches a (⟨head, body⟩ :: rest) =
      lowerBranch a head body >>= fun _ => lowerBranches a rest := by
  rw [lowerBranches]
  rfl

theorem grows_branch (head : Head) (body : List Stmt) : Grows a (lowerBranch a head body) := by
  refine .inBranch fun n => .andThen ?_ fun _ => grows_stmts body
  exact grown_stepInvariant.lowerHead (o := ⟨[], default⟩) head

theorem holding_branches {branches : List (BranchOf Stmt)}
    (h : ∀ b ∈ branches, ∀ t ∈ b.body, StmtHolds path symbols t)
    (hpath : a.path = path) (hsymbols : a.symbols = symbols) (ho : o.names = a.qualifiers)
    (hr : r ∈ Stmt.routinesOfBranches symbols o branches) :
    Holding path symbols r a (lowerBranches a branches) := by
  induction branches with
  | nil => simp [Stmt.routinesOfBranches] at hr
  | cons b rest ih =>
    obtain ⟨head, body⟩ := b
    rw [lowerBranches_eq]
    rw [Stmt.routinesOfBranches] at hr
    rcases List.mem_append.mp hr with hr | hr
    · refine Holding.before (.inBranch fun n => ?_) (fun _ => grows_branches rest)
        (grows_branch head body)
      have hhead : Grows (a.inBlock n) (lowerHead (a.inBlock n) head) :=
        grown_stepInvariant.lowerHead (o := ⟨[], default⟩) head
      exact .after hhead fun _ => holding_stmts (h ⟨head, body⟩ (by simp)) hpath hsymbols ho hr
    · exact .after (grows_branch head body) fun _ =>
        ih (fun b hb => h b (List.mem_cons_of_mem _ hb)) hr

/-- A body under a condition or in a loop, and the branches behind it. -/
theorem holding_choice {body : List Stmt} {branches : List (BranchOf Stmt)}
    (hbody : ∀ t ∈ body, StmtHolds path symbols t)
    (hbranches : ∀ b ∈ branches, ∀ t ∈ b.body, StmtHolds path symbols t)
    (hpath : a.path = path) (hsymbols : a.symbols = symbols) (ho : o.names = a.qualifiers)
    (hr : r ∈ Stmt.routinesOfAll symbols o body ++ Stmt.routinesOfBranches symbols o branches)
    {enter : Nat → Lowering Unit} (henter : ∀ n, Grows (a.inBlock n) (enter n)) :
    Holding path symbols r a ((Lowering.newBlock >>= fun n =>
      enter n >>= fun _ => lowerStmts (a.inBlock n) body) >>= fun _ => lowerBranches a branches) := by
  have hgrows : Grows a (Lowering.newBlock >>= fun n =>
      enter n >>= fun _ => lowerStmts (a.inBlock n) body) :=
    .inBranch fun n => .andThen (henter n) fun _ => grows_stmts body
  rcases List.mem_append.mp hr with hr | hr
  · refine Holding.before (.inBranch fun n => ?_) (fun _ => grows_branches branches) hgrows
    exact .after (henter n) fun _ => holding_stmts hbody hpath hsymbols ho hr
  · exact .after hgrows fun _ => holding_branches hbranches hpath hsymbols ho hr

/-- The facts once a scope is recorded. -/
def Lowered.opened (s : Lowered) (scope : Scope) : Lowered :=
  { s with scopes := s.scopes ++ [scope] }

theorem known_within (scope : Scope) (name : String) :
    (a.within s.scopes.length name).Known (s.opened scope) := by
  refine ⟨?_, by simp [Around.within]⟩
  simp [Around.within, Lowered.opened]

theorem complete_opened (h : Complete s) (scope : Scope) : Complete (s.opened scope) := by
  intro b hb
  rw [Lowered.opened, List.length_append]
  exact Nat.lt_of_lt_of_le (h b hb) (Nat.le_add_right _ _)

/-- The body of a function is lowered in the scope recorded for it. -/
theorem contains_self {scope : Scope} {name : String} {span : Span} {body : List Stmt}
    (hpath : a.path = path) (hsymbols : a.symbols = symbols) (ho : o.names = a.qualifiers)
    (hs : Complete s) (hname : scope.name = a.qualify name) (hplace : scope.place = a.place span) :
    Contains path symbols ⟨o.inside name span, scope.params, scope.route, body⟩ s
      (lowerStmts (a.within s.scopes.length name) body (s.opened scope)).2 := by
  have hknown := known_within (a := a) (s := s) scope name
  have hgrown := grows_stmts body (s.opened scope) hknown
  refine ⟨a.within s.scopes.length name, s.opened scope, hpath, hsymbols, Nat.le_refl _,
    (hgrown.known hknown).scope, rfl, hknown, ?_, ⟨scope, ?_, ?_, ?_, rfl, rfl⟩,
    List.prefix_refl _, rfl⟩
  · exact hs.madeIn_eq_nil (Nat.le_refl _)
  · obtain ⟨more, hmore⟩ := hgrown.scopes
    rw [← hmore, List.getElem?_append_left hknown.scope]
    exact List.getElem?_concat_length
  · rw [hname, Around.qualify, Owner.name, Owner.inside, ho]
    simp
  · exact hplace

/-- The bodies of the functions in a definition are lowered with its own. -/
theorem contains_inside {scope : Scope} {name : String} {span : Span} {body : List Stmt}
    (hbody : ∀ t ∈ body, StmtHolds path symbols t) (hpath : a.path = path)
    (hsymbols : a.symbols = symbols) (ho : o.names = a.qualifiers) (hs : Complete s)
    (hr : r ∈ Stmt.routinesOfAll symbols (o.inside name span) body) :
    Contains path symbols r s
      (lowerStmts (a.within s.scopes.length name) body (s.opened scope)).2 := by
  have ho' : (o.inside name span).names = (a.within s.scopes.length name).qualifiers := by
    rw [Owner.inside, Around.within, ho]
  have h := holding_stmts (a := a.within s.scopes.length name) hbody hpath hsymbols ho' hr
    (s.opened scope) (known_within scope name) (complete_opened hs scope)
  refine h.earlier ?_
  rw [Lowered.opened, List.length_append]
  exact Nat.le_add_right _ _

theorem holding_stmt (t : Stmt) : StmtHolds path symbols t := by
  induction t using Stmt.ind with
  | values parts => exact fun o a route r _ _ _ hr => by simp [Stmt.routines] at hr
  | assign stop targets value => exact fun o a route r _ _ _ hr => by simp [Stmt.routines] at hr
  | augmented s target value => exact fun o a route r _ _ _ hr => by simp [Stmt.routines] at hr
  | imports clauses => exact fun o a route r _ _ _ hr => by simp [Stmt.routines] at hr
  | choice condition body branches ihb ihr =>
    intro o a route r hpath hsymbols ho hr
    rw [Stmt.routines] at hr
    rw [lowerStmt]
    exact .after (grows_node condition _) fun _ =>
      holding_choice ihb ihr hpath hsymbols ho hr fun _ => grows_pure ()
  | whileLoop condition body branches ihb ihr =>
    intro o a route r hpath hsymbols ho hr
    rw [Stmt.routines] at hr
    rw [lowerStmt]
    exact .after (grows_node condition _) fun _ =>
      holding_choice ihb ihr hpath hsymbols ho hr fun _ => grows_pure ()
  | forLoop target source body branches ihb ihr =>
    intro o a route r hpath hsymbols ho hr
    rw [Stmt.routines] at hr
    rw [lowerStmt]
    exact .after (grows_node source _) fun _ =>
      holding_choice ihb ihr hpath hsymbols ho hr fun n =>
        grown_stepInvariant.bindTarget (o := ⟨[], default⟩) target _ _ _
  | attempt body branches final ihb ihr ihf =>
    intro o a route r hpath hsymbols ho hr
    rw [Stmt.routines, ← List.append_assoc] at hr
    rw [lowerStmt]
    have hgrows : Grows a ((Lowering.newBlock >>= fun n => lowerStmts (a.inBlock n) body) >>=
        fun _ => lowerBranches a branches) :=
      .andThen (.inBranch fun n => grows_stmts body) fun _ => grows_branches branches
    rcases List.mem_append.mp hr with hr | hr
    · have hbody := holding_choice ihb ihr hpath hsymbols ho hr fun n => grows_pure ()
      exact hbody.before (fun _ => grows_stmts final) hgrows
    · have hfinal := Holding.after hgrows fun _ => holding_stmts ihf hpath hsymbols ho hr
      exact hfinal
  | withItems items body ihb =>
    intro o a route r hpath hsymbols ho hr
    rw [Stmt.routines] at hr
    rw [lowerStmt]
    have hitems : Grows a (lowerItems a items) :=
      grown_stepInvariant.lowerItems (o := ⟨[], default⟩) items
    exact .after hitems fun _ => holding_stmts ihb hpath hsymbols ho hr
  | cases subjects branches ihr =>
    intro o a route r hpath hsymbols ho hr
    rw [Stmt.routines] at hr
    rw [lowerStmt]
    have hfirst : Grows a (lowerFirst a (.unknown default) subjects) :=
      grown_stepInvariant.lowerFirst (o := ⟨[], default⟩)
        (fun n _ => grown_stepInvariant.lowerNode n) _
    exact .after hfirst fun _ => holding_branches ihr hpath hsymbols ho hr
  | functionDef span name params defaults body ihb =>
    intro o a route r hpath hsymbols ho hr
    rw [lowerStmt]
    refine .after (grows_nodes defaults) fun _ s ha hs => ?_
    let logged := (Lowering.log (.functionEntered (a.qualify name) s.scopes.length route.isSome) s).2
    let scope : Scope :=
      { id := s.scopes.length, name := a.qualify name, params, route, parent := some a.scope,
        place := a.place span }
    rw [Stmt.routines] at hr
    rcases List.mem_cons.mp hr with rfl | hr
    · exact contains_self (s := logged) hpath hsymbols ho hs (show scope.name = _ from rfl) rfl
    · exact contains_inside (s := logged) ihb hpath hsymbols ho hs hr
  | classDef span name bases body ihb =>
    intro o a route r hpath hsymbols ho hr
    rw [Stmt.routines] at hr
    rw [lowerStmt]
    have hbases : Grows a (lowerArguments a bases) :=
      grown_stepInvariant.lowerArguments (o := ⟨[], default⟩)
        fun arg _ => grown_stepInvariant.lowerNode arg.value
    refine .after hbases fun _ s ha hs => ?_
    exact contains_inside ihb hpath hsymbols ho hs hr
  | decorated decorators definition ih =>
    intro o a route r hpath hsymbols ho hr
    rw [Stmt.routines] at hr
    rw [lowerStmt]
    refine .after (grows_nodes decorators) fun _ => ?_
    rw [hsymbols]
    exact ih o a _ r hpath hsymbols ho hr

/-! ## Programs -/

theorem known_module (path : String) (symbols : Symbols) (p : Program) :
    (Around.ofModule path symbols).Known (Lowered.ofModule path p) :=
  ⟨Nat.zero_lt_one, by simp [Around.ofModule]⟩

theorem complete_module (path : String) (p : Program) : Complete (Lowered.ofModule path p) := by
  intro b hb
  simp [Lowered.ofModule, Lowered.empty] at hb

/-- The body of each routine of a program is lowered in a scope of its own. -/
theorem enters_routine (path : String) (p : Program) (hr : r ∈ p.routines symbols) :
    ∃ a s, a.path = path ∧ a.symbols = symbols ∧ Enters r a s (lowerProgram path symbols p) := by
  rw [lowerProgram_eq]
  have hknown := known_module path symbols p
  rcases List.mem_cons.mp hr with rfl | hr
  · obtain ⟨more, hmore⟩ := (grows_stmts p.body _ hknown).scopes
    have hscope : ((Lowered.ofModule path p).scopes ++ more)[moduleScope]? = _ :=
      List.getElem?_append_left hknown.scope
    rw [hmore] at hscope
    exact ⟨Around.ofModule path symbols, Lowered.ofModule path p, rfl, rfl, rfl, hknown, rfl,
      ⟨_, hscope, rfl, rfl, rfl, rfl⟩, List.prefix_refl _, rfl⟩
  · have hstmts : ∀ t ∈ p.body, StmtHolds path symbols t := fun t _ => holding_stmt t
    obtain ⟨a, s, hpath, hsymbols, _, _, h⟩ :=
      holding_stmts hstmts rfl rfl rfl hr _ hknown (complete_module path p)
    exact ⟨a, s, hpath, hsymbols, h⟩

end

end XPathTaint.Python
