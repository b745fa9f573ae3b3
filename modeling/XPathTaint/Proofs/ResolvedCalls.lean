import XPathTaint.Proofs.CourseLowering
import XPathTaint.Taint.Source

-- Calls know what their function stands for. In all that a program is lowered to, call sites and
-- bindings, each call that occurs in an expression has the canonical path of its function as its
-- callee, by the symbols that the program was lowered with.

namespace XPathTaint

/-! ## Parts of expressions -/

/-- `part` occurs in an expression. -/
inductive Expr.PartOf (part : Expr) : Expr → Prop
  | self : PartOf part part
  | object {object : Expr} {attr : String} {o : Origin} :
      PartOf part object → PartOf part (.member object attr o)
  | container {value index : Expr} {o : Origin} :
      PartOf part value → PartOf part (.subscript value index o)
  | index {value index : Expr} {o : Origin} :
      PartOf part index → PartOf part (.subscript value index o)
  | func {func : Expr} {callee : Option String} {args : List Argument} {o : Origin} :
      PartOf part func → PartOf part (.call func callee args o)
  | argument {func : Expr} {callee : Option String} {args : List Argument} {o : Origin}
      {a : Argument} : a ∈ args → PartOf part a.value → PartOf part (.call func callee args o)
  | operand {e : Expr} {operands : List Expr} {o : Origin} : e ∈ operands → PartOf part e →
      PartOf part (.compound operands o)

/-- All calls in an expression have the canonical paths of their functions as callees. -/
def Expr.IsResolved (symbols : Symbols) (e : Expr) : Prop :=
  ∀ func callee args o, (Expr.call func callee args o).PartOf e →
    callee = canonicalOf symbols func

namespace Expr

section

variable {symbols : Symbols} {o : Origin}

@[simp] theorem isResolved_name {id : String} : (name id o).IsResolved symbols := by
  rintro _ _ _ _ ⟨⟩

@[simp] theorem isResolved_literal {value : String} : (literal value o).IsResolved symbols := by
  rintro _ _ _ _ ⟨⟩

@[simp] theorem isResolved_unknown : (unknown o).IsResolved symbols := by
  rintro _ _ _ _ ⟨⟩

theorem isResolved_member {object : Expr} {attr : String} (h : object.IsResolved symbols) :
    (member object attr o).IsResolved symbols := by
  rintro func callee args o' ⟨⟩
  exact h _ _ _ _ ‹_›

theorem isResolved_subscript {value index : Expr} (hvalue : value.IsResolved symbols)
    (hindex : index.IsResolved symbols) : (subscript value index o).IsResolved symbols := by
  intro func callee args o' h
  cases h with
  | container h => exact hvalue _ _ _ _ h
  | index h => exact hindex _ _ _ _ h

theorem isResolved_call {func : Expr} {args : List Argument} (hfunc : func.IsResolved symbols)
    (hargs : ∀ a ∈ args, a.value.IsResolved symbols) :
    (call func (canonicalOf symbols func) args o).IsResolved symbols := by
  intro func' callee' args' o' h
  cases h with
  | self => rfl
  | func h => exact hfunc _ _ _ _ h
  | argument ha h => exact hargs _ ha _ _ _ _ h

theorem isResolved_compound {operands : List Expr} :
    (compound operands o).IsResolved symbols ↔ ∀ e ∈ operands, e.IsResolved symbols := by
  constructor
  · exact fun h e he func callee args o' hpart => h _ _ _ _ (.operand he hpart)
  · intro h func callee args o' hpart
    cases hpart with
    | operand he hpart => exact h _ he _ _ _ _ hpart

theorem IsResolved.part {part e : Expr} (h : e.IsResolved symbols) (hpart : part.PartOf e) :
    part.IsResolved symbols := by
  induction hpart with
  | self => exact h
  | object _ ih => exact ih fun _ _ _ _ hp => h _ _ _ _ hp.object
  | container _ ih => exact ih fun _ _ _ _ hp => h _ _ _ _ hp.container
  | index _ ih => exact ih fun _ _ _ _ hp => h _ _ _ _ hp.index
  | func _ ih => exact ih fun _ _ _ _ hp => h _ _ _ _ hp.func
  | argument ha _ ih => exact ih fun _ _ _ _ hp => h _ _ _ _ (.argument ha hp)
  | operand he _ ih => exact ih fun _ _ _ _ hp => h _ _ _ _ (.operand he hp)

end

end Expr

namespace Python

/-! ## Nodes -/

section

variable {path : String} {symbols : Symbols} {ns : List Node}

theorem isResolved_exprs (h : ∀ n ∈ ns, (n.expr path symbols).IsResolved symbols) :
    ∀ e ∈ Node.exprs path symbols ns, e.IsResolved symbols := by
  rwa [exprs_eq_map, List.forall_mem_map]

theorem isResolved_arguments {args : List (ArgumentOf Node)}
    (h : ∀ arg ∈ args, (arg.value.expr path symbols).IsResolved symbols) :
    ∀ a ∈ Node.arguments path symbols args, a.value.IsResolved symbols := by
  rwa [arguments_eq_map, List.forall_mem_map]

theorem isResolved_expr (path : String) (symbols : Symbols) (n : Node) :
    (n.expr path symbols).IsResolved symbols := by
  induction n using Node.ind with
  | name s => exact Expr.isResolved_name
  | constant s => exact Expr.isResolved_literal
  | string s values formats ihv ihf =>
    rw [Node.expr]
    split
    · exact Expr.isResolved_literal
    · exact Expr.isResolved_compound.mpr (isResolved_exprs ihv)
  | strings s parts ih =>
    rw [Node.expr, joinStrings]
    split
    · exact Expr.isResolved_literal
    · exact Expr.isResolved_compound.mpr (isResolved_exprs ih)
  | member s object attr ih => exact Expr.isResolved_member ih
  | subscript s value indices ihv ihi =>
    refine Expr.isResolved_subscript ihv ?_
    cases indices with
    | nil => exact Expr.isResolved_unknown
    | cons index rest => exact ihi index List.mem_cons_self
  | call s func args ihf iha => exact Expr.isResolved_call ihf (isResolved_arguments iha)
  | paren s lead inner ih => exact ih
  | starred s lead inner ih =>
    rw [Node.expr, Expr.isResolved_compound]
    simpa using ih
  | hidden comment inner ih =>
    rw [Node.expr, Expr.isResolved_compound]
    simp
  | walrus s target value ih => exact ih
  | aliased s value targetSpan target ihv iht =>
    rw [Node.expr, Expr.isResolved_compound]
    simpa [Expr.isResolved_compound] using ⟨ihv, iht⟩
  | lambda s params defaults body ihd ihb => exact Expr.isResolved_unknown
  | comprehension s body clauses ihb ihc =>
    rw [Node.expr, Expr.isResolved_compound]
    simpa using ihb
  | test s parts ih => exact Expr.isResolved_unknown
  | group s form parts ih => exact Expr.isResolved_compound.mpr (isResolved_exprs ih)

end

/-! ## Courses -/

/-- The calls in what an item holds are resolved, the item itself too if it is one. -/
def Item.IsResolved (symbols : Symbols) : Item → Prop
  | .read _ => True
  | .call _ func callee args => ∀ o, (Expr.call func callee args o).IsResolved symbols
  | .bind _ _ value _ _ => value.IsResolved symbols

def Course.IsResolved (symbols : Symbols) (c : Course Item) : Prop :=
  ∀ i ∈ c.leaves, i.IsResolved symbols

def Goal.IsResolved (symbols : Symbols) : Goal → Prop
  | .value => True
  | .target given _ _ => given.IsResolved symbols

section

variable {symbols : Symbols}

namespace Course

variable {one other part : Course Item} {parts : List (Course Item)}

@[simp] theorem isResolved_nothing : IsResolved symbols .nothing := by simp [IsResolved, leaves]

@[simp] theorem isResolved_item {i : Item} :
    IsResolved symbols (.item i) ↔ i.IsResolved symbols := by simp [IsResolved, leaves]

@[simp] theorem isResolved_pair {order : PairOrder} :
    IsResolved symbols (.pair order one other) ↔
      one.IsResolved symbols ∧ other.IsResolved symbols := by
  simp [IsResolved, leaves, or_imp, forall_and]

@[simp] theorem isResolved_again : IsResolved symbols (.again part) ↔ part.IsResolved symbols :=
  Iff.rfl

@[simp] theorem isResolved_optional {isBlock : Bool} :
    IsResolved symbols (.optional isBlock part) ↔ part.IsResolved symbols := Iff.rfl

@[simp] theorem isResolved_scope : IsResolved symbols (.scope part) ↔ part.IsResolved symbols :=
  Iff.rfl

@[simp] theorem isResolved_all {order : PairOrder} :
    IsResolved symbols (.all order parts) ↔ ∀ part ∈ parts, part.IsResolved symbols := by
  induction parts with
  | nil => simp [all]
  | cons part rest ih => simp [all, ih]

@[simp] theorem isResolved_cutShort {sure : Nat} :
    IsResolved symbols (cutShort sure parts) ↔ ∀ part ∈ parts, part.IsResolved symbols := by
  induction parts generalizing sure with
  | nil => simp [cutShort]
  | cons part rest ih => cases sure <;> simp [cutShort, ih]

@[simp] theorem isResolved_conditional :
    IsResolved symbols (conditional parts) ↔ ∀ part ∈ parts, part.IsResolved symbols := by
  unfold conditional
  split
  · simp
  · exact isResolved_all

@[simp] theorem isResolved_ofGroup {form : GroupForm} :
    IsResolved symbols (ofGroup form parts) ↔ ∀ part ∈ parts, part.IsResolved symbols := by
  cases form with
  | sequence => exact isResolved_all
  | shortCircuit => exact isResolved_cutShort
  | conditional => exact isResolved_conditional
  | other => exact isResolved_all

@[simp] theorem isResolved_arguments {args : List (Bool × Course Item)} :
    IsResolved symbols (arguments args) ↔ ∀ arg ∈ args, arg.2.IsResolved symbols := by
  induction args with
  | nil => simp [arguments]
  | cons arg rest ih => simp [arguments, ih]

end Course

theorem isResolved_taking {ahead : Bool} {target value : Expr} {pos : Nat}
    (htarget : target.IsResolved symbols) (hvalue : value.IsResolved symbols) :
    (taking ahead target value pos).IsResolved symbols := by
  unfold taking
  split
  · simpa [Item.IsResolved] using hvalue
  · split
    · simpa [Item.IsResolved] using hvalue
    · simp
  · split
    · have hbase := htarget.part (.container .self)
      simpa [Item.IsResolved, Expr.isResolved_compound] using ⟨hbase, hvalue⟩
    · simp
  · simp

variable {ahead : Bool} {goal : Goal} {e : Expr}

theorem isResolved_finish (he : e.IsResolved symbols) (hgoal : goal.IsResolved symbols) :
    (goal.finish ahead e).IsResolved symbols := by
  cases goal with
  | value => simp [Goal.finish]
  | target given pairwise pos => exact isResolved_taking he hgoal

theorem isResolved_settle {s : Span} (he : e.IsResolved symbols) (hgoal : goal.IsResolved symbols) :
    (goal.settle ahead s e).IsResolved symbols := by
  cases goal with
  | value => simp [Goal.settle, Item.IsResolved]
  | target given pairwise pos => exact isResolved_taking he hgoal

theorem isResolved_valuesFor {value : Expr} {pairwise : Bool} {count : Nat}
    (h : value.IsResolved symbols) :
    ∀ v ∈ valuesFor value pairwise count, v.IsResolved symbols := by
  intro v hv
  unfold valuesFor at hv
  split at hv
  · split at hv
    · exact Expr.isResolved_compound.mp h v hv
    · rwa [List.eq_of_mem_replicate hv]
  · rwa [List.eq_of_mem_replicate hv]

end

/-- However a node is read for values that are resolved, so is its course. -/
def Node.CourseIsResolved (path : String) (symbols : Symbols) (n : Node) : Prop :=
  ∀ ahead goal, goal.IsResolved symbols → (n.course path symbols ahead goal).IsResolved symbols

section

variable {path : String} {symbols : Symbols} {ns : List Node}

theorem Node.CourseIsResolved.value {n : Node} (h : n.CourseIsResolved path symbols) :
    (n.course path symbols false .value).IsResolved symbols := h false .value trivial

theorem isResolved_courses (h : ∀ n ∈ ns, n.CourseIsResolved path symbols) :
    ∀ part ∈ Node.courses path symbols ns, part.IsResolved symbols := by
  rw [courses_eq_map, List.forall_mem_map]
  exact fun n hn => (h n hn).value

theorem isResolved_first (h : ∀ n ∈ ns, n.CourseIsResolved path symbols) :
    (Node.courseOfFirst path symbols ns).IsResolved symbols := by
  cases ns with
  | nil => simp [Node.courseOfFirst]
  | cons n rest => exact (h n List.mem_cons_self).value

theorem isResolved_coursesOfArguments {args : List (ArgumentOf Node)}
    (h : ∀ arg ∈ args, arg.value.CourseIsResolved path symbols) :
    ∀ arg ∈ Node.coursesOfArguments path symbols args, arg.2.IsResolved symbols := by
  rw [coursesOfArguments_eq_map, List.forall_mem_map]
  exact fun arg harg => (h arg harg).value

theorem isResolved_clauses {clauses : List (ClauseOf Node)} {pos : Nat} {last : Course Item}
    (h : ∀ c ∈ clauses, c.Holds (Node.CourseIsResolved path symbols))
    (hlast : last.IsResolved symbols) :
    (Node.courseOfClauses path symbols pos last clauses).IsResolved symbols := by
  induction clauses with
  | nil => exact hlast
  | cons clause rest ih =>
    have hrest := ih fun c hc => h c (List.mem_cons_of_mem clause hc)
    have hclause := h clause List.mem_cons_self
    cases clause with
    | loop target sources =>
      have hsource : (Node.exprOfFirst path symbols (.unknown default) sources).IsResolved
          symbols := by
        cases sources with
        | nil => exact Expr.isResolved_unknown
        | cons source _ => exact isResolved_expr path symbols source
      have htarget := hclause.1 true
        (.target (Node.exprOfFirst path symbols (.unknown default) sources) false pos) hsource
      simpa [Node.courseOfClauses] using ⟨isResolved_first hclause.2, htarget, hrest⟩
    | guard condition => simpa [Node.courseOfClauses] using ⟨hclause.value, hrest⟩

theorem isResolved_coursesOfTargets {values : List Expr} {ahead : Bool} {pos : Nat}
    (h : ∀ n ∈ ns, n.CourseIsResolved path symbols) (hvalues : ∀ v ∈ values, v.IsResolved symbols) :
    ∀ part ∈ Node.coursesOfTargets path symbols ahead pos values ns, part.IsResolved symbols := by
  rw [coursesOfTargets_eq_map, List.forall_mem_map]
  rintro ⟨value, n⟩ hmem
  obtain ⟨hvalue, hn⟩ := List.of_mem_zip hmem
  exact h n hn ahead _ (hvalues value hvalue)

/-- Behind a bracket or star, where a comment takes the place of a target. -/
theorem isResolved_behind {inner : Node} (h : inner.CourseIsResolved path symbols) {ahead : Bool}
    {goal : Goal} (hgoal : goal.IsResolved symbols) (lead : Option Span) :
    (match goal, lead with
      | .target _ _ _, some _ => Course.nothing
      | goal, _ => inner.course path symbols ahead goal).IsResolved symbols := by
  split
  · exact Course.isResolved_nothing
  · exact h ahead _ hgoal

theorem courseIsResolved_node (n : Node) : n.CourseIsResolved path symbols := by
  induction n using Node.ind with
  | name s => exact fun ahead goal hgoal => isResolved_settle Expr.isResolved_name hgoal
  | constant s => exact fun ahead goal hgoal => Course.isResolved_nothing
  | string s values formats ihv ihf =>
    exact fun ahead goal hgoal => Course.isResolved_all.mpr (isResolved_courses ihv)
  | strings s parts ih =>
    exact fun ahead goal hgoal => Course.isResolved_all.mpr (isResolved_courses ih)
  | member s object attr ih =>
    intro ahead goal hgoal
    exact Course.isResolved_pair.mpr
      ⟨ih.value, isResolved_settle (isResolved_expr path symbols (.member s object attr)) hgoal⟩
  | subscript s value indices ihv ihi =>
    intro ahead goal hgoal
    have hfinish : (goal.finish ahead
        ((Node.subscript s value indices).expr path symbols)).IsResolved symbols :=
      isResolved_finish (isResolved_expr path symbols (.subscript s value indices)) hgoal
    simpa [Node.course] using ⟨⟨ihv.value, isResolved_first ihi⟩, hfinish⟩
  | call s func args ihf iha =>
    intro ahead goal hgoal
    have hitem : (callItem path symbols s func args).IsResolved symbols := fun o =>
      Expr.isResolved_call (isResolved_expr path symbols func)
        (isResolved_arguments fun arg _ => isResolved_expr path symbols arg.value)
    have hargs := Course.isResolved_arguments.mpr (isResolved_coursesOfArguments iha)
    rw [Node.course, Course.isResolved_pair, Course.isResolved_pair]
    exact ⟨ihf.value, hargs, Course.isResolved_item.mpr hitem⟩
  | paren s lead inner ih =>
    intro ahead goal hgoal
    rw [Node.course.eq_def]
    exact isResolved_behind ih hgoal lead
  | starred s lead inner ih =>
    intro ahead goal hgoal
    rw [Node.course.eq_def]
    exact isResolved_behind ih hgoal lead
  | hidden comment inner ih => exact fun ahead goal hgoal => Course.isResolved_nothing
  | walrus s target value ih =>
    intro ahead goal hgoal
    have hvalue := isResolved_expr path symbols value
    simpa [Node.course, Item.IsResolved] using
      ⟨⟨ih.value, hvalue⟩, isResolved_finish hvalue hgoal⟩
  | aliased s value targetSpan target ihv iht =>
    exact fun ahead goal hgoal => Course.isResolved_pair.mpr ⟨ihv.value, iht.value⟩
  | lambda s params defaults body ihd ihb =>
    intro ahead goal hgoal
    simpa [Node.course] using ⟨isResolved_courses ihd, ihb.value⟩
  | comprehension s body clauses ihb ihc =>
    intro ahead goal hgoal
    have hbody :
        Course.IsResolved symbols (.optional false (body.course path symbols false .value)) :=
      ihb.value
    simpa [Node.course] using isResolved_clauses ihc hbody
  | test s parts ih =>
    exact fun ahead goal hgoal => Course.isResolved_cutShort.mpr (isResolved_courses ih)
  | group s form parts ih =>
    intro ahead goal hgoal
    rw [Node.course.eq_def]
    dsimp only
    split
    · exact Course.isResolved_all.mpr
        (isResolved_coursesOfTargets ih (isResolved_valuesFor hgoal))
    · exact Course.isResolved_ofGroup.mpr (isResolved_courses ih)

end

/-! ## Statements -/

section

variable {path : String} {symbols : Symbols}

theorem isResolved_value (n : Node) : (n.course path symbols false .value).IsResolved symbols :=
  (courseIsResolved_node n).value

theorem isResolved_bound (n : Node) {given : Expr} (h : given.IsResolved symbols) (pairwise : Bool)
    (pos : Nat) : (n.course path symbols false (.target given pairwise pos)).IsResolved symbols :=
  courseIsResolved_node n false (.target given pairwise pos) h

theorem isResolved_values (ns : List Node) :
    ∀ part ∈ Node.courses path symbols ns, part.IsResolved symbols :=
  isResolved_courses fun n _ => courseIsResolved_node n

theorem isResolved_courseOfTargets {value : Expr} (h : value.IsResolved symbols) (pairwise : Bool)
    (pos : Nat) (targets : List Node) :
    (courseOfTargets path symbols value pairwise pos targets).IsResolved symbols := by
  unfold courseOfTargets
  split
  · exact Course.isResolved_nothing
  · rw [Course.isResolved_all, List.forall_mem_cons, List.forall_mem_map]
    exact ⟨isResolved_bound _ h _ _, fun n _ => isResolved_bound n h _ _⟩

theorem isResolved_courseOfItem (n : Node) : (courseOfItem path symbols n).IsResolved symbols := by
  cases n with
  | aliased s value targetSpan target =>
    exact Course.isResolved_pair.mpr
      ⟨isResolved_value value, isResolved_bound target (isResolved_expr path symbols value) _ _⟩
  | _ => exact isResolved_value _

theorem isResolved_head (head : Head) : (head.course path symbols).IsResolved symbols := by
  cases head with
  | plain => exact Course.isResolved_nothing
  | condition value => exact isResolved_value value
  | guard value => exact Course.isResolved_nothing
  | handler kind target others =>
    have hkind : (Node.courseOfFirst path symbols kind.toList).IsResolved symbols :=
      isResolved_first fun n _ => courseIsResolved_node n
    cases target with
    | none => exact Course.isResolved_pair.mpr ⟨hkind, Course.isResolved_nothing⟩
    | some target =>
      exact Course.isResolved_pair.mpr ⟨hkind, isResolved_bound target Expr.isResolved_unknown _ _⟩

theorem isResolved_stmts {ts : List Stmt}
    (h : ∀ t ∈ ts, (t.course path symbols).IsResolved symbols) :
    (Stmt.courseOfAll path symbols ts).IsResolved symbols := by
  induction ts with
  | nil => exact Course.isResolved_nothing
  | cons t rest ih =>
    rw [Stmt.courseOfAll, Course.isResolved_pair]
    exact ⟨h t List.mem_cons_self, ih fun t' ht => h t' (List.mem_cons_of_mem t ht)⟩

theorem isResolved_branches {branches : List (BranchOf Stmt)}
    (h : ∀ b ∈ branches, ∀ t ∈ b.body, (t.course path symbols).IsResolved symbols) :
    (Stmt.courseOfBranches path symbols branches).IsResolved symbols := by
  induction branches with
  | nil => exact Course.isResolved_nothing
  | cons b rest ih =>
    obtain ⟨head, body⟩ := b
    rw [Stmt.courseOfBranches, Course.isResolved_pair, Course.isResolved_optional,
      Course.isResolved_pair]
    exact ⟨⟨isResolved_head head, isResolved_stmts (h ⟨head, body⟩ List.mem_cons_self)⟩,
      ih fun b hb => h b (List.mem_cons_of_mem _ hb)⟩

theorem isResolved_stmt (t : Stmt) : (t.course path symbols).IsResolved symbols := by
  induction t using Stmt.ind with
  | values parts => exact Course.isResolved_all.mpr (isResolved_values parts)
  | assign stop targets value =>
    cases value with
    | none => exact Course.isResolved_nothing
    | some value =>
      exact Course.isResolved_pair.mpr ⟨isResolved_value value,
        isResolved_courseOfTargets (isResolved_expr path symbols value) _ _ _⟩
  | augmented s target value =>
    have htarget := isResolved_expr path symbols target
    have hboth : (Expr.compound [target.expr path symbols, value.expr path symbols]
        (originIn path s)).IsResolved symbols := by
      simpa [Expr.isResolved_compound] using ⟨htarget, isResolved_expr path symbols value⟩
    simpa [Stmt.course] using ⟨isResolved_value target, isResolved_value value,
      isResolved_taking htarget hboth⟩
  | imports clauses => exact Course.isResolved_nothing
  | choice condition body branches ihb ihr =>
    simpa [Stmt.course] using
      ⟨isResolved_value condition, isResolved_stmts ihb, isResolved_branches ihr⟩
  | whileLoop condition body branches ihb ihr =>
    simpa [Stmt.course] using
      ⟨⟨isResolved_value condition, isResolved_stmts ihb⟩, isResolved_branches ihr⟩
  | forLoop target source body branches ihb ihr =>
    have hsource := isResolved_expr path symbols source
    simpa [Stmt.course] using ⟨isResolved_value source,
      ⟨isResolved_bound target hsource false source.span.stop, isResolved_stmts ihb⟩,
      isResolved_branches ihr⟩
  | attempt body branches final ihb ihr ihf =>
    simpa [Stmt.course] using
      ⟨isResolved_stmts ihb, isResolved_branches ihr, isResolved_stmts ihf⟩
  | withItems items body ihb =>
    simpa [Stmt.course] using ⟨fun n _ => isResolved_courseOfItem n, isResolved_stmts ihb⟩
  | cases subjects branches ihr =>
    exact Course.isResolved_pair.mpr
      ⟨isResolved_first fun n _ => courseIsResolved_node n, isResolved_branches ihr⟩
  | functionDef s name params defaults body ihb =>
    simpa [Stmt.course] using ⟨isResolved_values defaults, isResolved_stmts ihb⟩
  | classDef s name bases body ihb =>
    refine Course.isResolved_pair.mpr ⟨?_, Course.isResolved_scope.mpr (isResolved_stmts ihb)⟩
    exact Course.isResolved_arguments.mpr
      (isResolved_coursesOfArguments fun arg _ => courseIsResolved_node arg.value)
  | decorated decorators definition ih =>
    simpa [Stmt.course] using ⟨isResolved_values decorators, ih⟩

end

/-! ## Programs -/

end Python

/-- A call site as the expression that it was made from. -/
def CallSite.expr (c : CallSite) : Expr := .call c.func c.callee c.args ⟨c.text, c.pos, c.place⟩

namespace Python

/-- An expression occurs in what a program was lowered to. -/
def Lowered.Mentions (l : Lowered) (e : Expr) : Prop :=
  (∃ c ∈ l.calls, e.PartOf c.expr) ∨ ∃ b ∈ l.bindings, e.PartOf b.value

theorem isResolved_of_call? {path : String} {symbols : Symbols} {m : Mark} {c : CallSite}
    (h : m.call? path = some c) (hm : m.item.IsResolved symbols) : c.expr.IsResolved symbols := by
  unfold Mark.call? at h
  split at h
  · rename_i s func callee args hitem
    rw [hitem] at hm
    obtain rfl := Option.some.inj h
    unfold FileFacts.numberCall
    split <;> exact hm _
  · cases h

theorem isResolved_of_binding? {path : String} {symbols : Symbols} {m : Mark} {b : Binding}
    (h : m.binding? path = some b) (hm : m.item.IsResolved symbols) :
    b.value.IsResolved symbols := by
  unfold Mark.binding? at h
  split at h
  · rename_i ahead name value pos place hitem
    rw [hitem] at hm
    obtain rfl := Option.some.inj h
    unfold FileFacts.numberBinding
    split <;> exact hm
  · cases h

/-- Whatever occurs in a lowered program has its callees resolved. -/
theorem isResolved_of_mentions {path : String} {symbols : Symbols} {p : Program} {e : Expr}
    (h : (lowerProgram path symbols p).Mentions e) : e.IsResolved symbols := by
  obtain ⟨hcalls, hbindings⟩ := lowerProgram_facts path symbols p
  have hresolved : ∀ m ∈ (p.located path symbols).leaves, m.item.IsResolved symbols := by
    intro m hm
    have hcourse : (p.course path symbols).IsResolved symbols :=
      isResolved_stmts fun t _ => isResolved_stmt t
    refine hcourse m.item ?_
    rw [← Course.leaves_locate (p.course path symbols) .ofModule 0 1]
    exact List.mem_map_of_mem hm
  rcases h with ⟨c, hc, hpart⟩ | ⟨b, hb, hpart⟩
  · rw [hcalls] at hc
    obtain ⟨m, hm, hcall⟩ := List.mem_filterMap.mp hc
    exact (isResolved_of_call? hcall (hresolved m hm)).part hpart
  · rw [hbindings] at hb
    obtain ⟨m, hm, hbinding⟩ := List.mem_filterMap.mp hb
    exact (isResolved_of_binding? hbinding (hresolved m hm)).part hpart

end Python

end XPathTaint
