import Mathlib.Tactic.Common
import XPathTaint.Proofs.PlainLowering

-- Where syntax trees stand in a text: the parts of a node or statement one behind the other,
-- none of them empty. The expression that a node stands for has all its parts in the same place.

namespace XPathTaint

/-! ## Expressions -/

mutual

/-- An expression and all expressions in it. -/
def Expr.nested : Expr → List Expr
  | .name id o => [.name id o]
  | .literal value o => [.literal value o]
  | .member object attr o => .member object attr o :: object.nested
  | .subscript value index o => .subscript value index o :: (value.nested ++ index.nested)
  | .call func callee args o =>
    .call func callee args o :: (func.nested ++ Expr.nestedOfArguments args)
  | .compound operands o => .compound operands o :: Expr.nestedOfAll operands
  | .unknown o => [.unknown o]

def Expr.nestedOfArguments : List (ArgumentOf Expr) → List Expr
  | [] => []
  | ⟨_, _, value⟩ :: rest => value.nested ++ Expr.nestedOfArguments rest

def Expr.nestedOfAll : List Expr → List Expr
  | [] => []
  | operand :: rest => operand.nested ++ Expr.nestedOfAll rest

end

/-- An expression and all in it start before a byte. -/
def Expr.StandsBefore (pos : Nat) (e : Expr) : Prop := ∀ r ∈ e.nested, r.pos < pos

namespace Expr

variable {pos pos' : Nat} {o : Origin}

theorem nestedOfArguments_eq (args : List (ArgumentOf Expr)) :
    nestedOfArguments args = args.flatMap (·.value.nested) := by
  induction args with
  | nil => rfl
  | cons arg rest ih => rw [nestedOfArguments, ih, List.flatMap_cons]

theorem nestedOfAll_eq (operands : List Expr) :
    nestedOfAll operands = operands.flatMap nested := by
  induction operands with
  | nil => rfl
  | cons operand rest ih => rw [nestedOfAll, ih, List.flatMap_cons]

theorem StandsBefore.mono {e : Expr} (h : e.StandsBefore pos) (hle : pos ≤ pos') :
    e.StandsBefore pos' := by
  intro r hr
  have hlt := h r hr
  omega

@[simp] theorem standsBefore_name {id : String} :
    (name id o).StandsBefore pos ↔ o.pos < pos :=
  List.forall_mem_singleton

@[simp] theorem standsBefore_literal {value : String} :
    (literal value o).StandsBefore pos ↔ o.pos < pos :=
  List.forall_mem_singleton

@[simp] theorem standsBefore_unknown : (unknown o).StandsBefore pos ↔ o.pos < pos :=
  List.forall_mem_singleton

@[simp] theorem standsBefore_member {object : Expr} {attr : String} :
    (member object attr o).StandsBefore pos ↔ o.pos < pos ∧ object.StandsBefore pos :=
  List.forall_mem_cons

@[simp] theorem standsBefore_subscript {value index : Expr} :
    (subscript value index o).StandsBefore pos ↔
      o.pos < pos ∧ value.StandsBefore pos ∧ index.StandsBefore pos :=
  List.forall_mem_cons.trans (and_congr_right' List.forall_mem_append)

@[simp] theorem standsBefore_call {func : Expr} {callee : Option String}
    {args : List (ArgumentOf Expr)} : (call func callee args o).StandsBefore pos ↔
      o.pos < pos ∧ func.StandsBefore pos ∧ ∀ arg ∈ args, arg.value.StandsBefore pos := by
  rw [StandsBefore, nested, nestedOfArguments_eq, List.forall_mem_cons, List.forall_mem_append,
    List.forall_mem_flatMap]
  exact Iff.rfl

@[simp] theorem standsBefore_compound {operands : List Expr} :
    (compound operands o).StandsBefore pos ↔
      o.pos < pos ∧ ∀ operand ∈ operands, operand.StandsBefore pos := by
  rw [StandsBefore, nested, nestedOfAll_eq, List.forall_mem_cons, List.forall_mem_flatMap]
  exact Iff.rfl

end Expr

namespace Python

/-! ## Nodes -/

/-- The parts of a node in the order of the text, without those that are not read. -/
def Node.inText : Node → List Node
  | .string _ values _ => values
  | .hidden _ _ => []
  | n => n.parts

/-- Nodes one behind the other, from one byte to another. -/
def Node.AreInOrder (lo hi : Nat) : List Node → Prop
  | [] => lo ≤ hi
  | n :: rest => lo ≤ n.span.pos ∧ n.span.pos < n.span.stop ∧ Node.AreInOrder n.span.stop hi rest

/-- Where the target of `value as target` stands. -/
def Node.targetSpan? : Node → Option Span
  | .aliased _ _ s _ => some s
  | _ => none

/-- The parts of a node stand in it one behind the other. -/
structure Node.IsInOrder (n : Node) : Prop where
  parts : Node.AreInOrder n.span.pos n.span.stop n.inText
  target : ∀ s ∈ n.targetSpan?, s.pos < n.span.stop

/-- A node stands in a range of bytes, and all nodes in it have their parts in order. -/
structure Node.StandsIn (lo hi : Nat) (n : Node) : Prop where
  start : lo ≤ n.span.pos
  filled : n.span.pos < n.span.stop
  stop : n.span.stop ≤ hi
  nodes : ∀ m ∈ n.nodes, m.IsInOrder

instance Node.decidableAreInOrder (hi : Nat) :
    (lo : Nat) → (ns : List Node) → Decidable (Node.AreInOrder lo hi ns)
  | lo, [] => inferInstanceAs (Decidable (lo ≤ hi))
  | lo, n :: rest =>
    have := decidableAreInOrder hi n.span.stop rest
    inferInstanceAs (Decidable (lo ≤ n.span.pos ∧ n.span.pos < n.span.stop ∧
      Node.AreInOrder n.span.stop hi rest))

instance (n : Node) : Decidable n.IsInOrder :=
  decidable_of_iff (Node.AreInOrder n.span.pos n.span.stop n.inText ∧
    ∀ s ∈ n.targetSpan?, s.pos < n.span.stop) ⟨fun h => ⟨h.1, h.2⟩, fun h => ⟨h.1, h.2⟩⟩

instance (lo hi : Nat) (n : Node) : Decidable (n.StandsIn lo hi) :=
  decidable_of_iff (lo ≤ n.span.pos ∧ n.span.pos < n.span.stop ∧ n.span.stop ≤ hi ∧
    ∀ m ∈ n.nodes, m.IsInOrder)
    ⟨fun h => ⟨h.1, h.2.1, h.2.2.1, h.2.2.2⟩, fun h => ⟨h.1, h.2, h.3, h.4⟩⟩

/-- Nodes that stand in a range one behind the other. -/
def Node.StandInOrder (lo hi : Nat) : List Node → Prop
  | [] => lo ≤ hi
  | n :: rest => ∃ mid, n.StandsIn lo mid ∧ Node.StandInOrder mid hi rest

namespace Node

variable {n : Node} {ns ns' : List Node} {lo hi lo' hi' : Nat}

theorem StandsIn.widen (h : n.StandsIn lo hi) (hlo : lo' ≤ lo) (hhi : hi ≤ hi') :
    n.StandsIn lo' hi' :=
  ⟨Nat.le_trans hlo h.start, h.filled, Nat.le_trans h.stop hhi, h.nodes⟩

/-- The range may be just the node. -/
theorem StandsIn.self (h : n.StandsIn lo hi) : n.StandsIn n.span.pos n.span.stop :=
  ⟨Nat.le_refl _, h.filled, Nat.le_refl _, h.nodes⟩

theorem StandInOrder.le (h : StandInOrder lo hi ns) : lo ≤ hi := by
  induction ns generalizing lo with
  | nil => exact h
  | cons n rest ih =>
    obtain ⟨mid, hn, hrest⟩ := h
    have hmid := ih hrest
    have hstart := hn.start
    have hfilled := hn.filled
    have hstop := hn.stop
    omega

theorem StandInOrder.widen (h : StandInOrder lo hi ns) (hlo : lo' ≤ lo) (hhi : hi ≤ hi') :
    StandInOrder lo' hi' ns := by
  induction ns generalizing lo lo' with
  | nil => exact Nat.le_trans (Nat.le_trans hlo h) hhi
  | cons n rest ih =>
    obtain ⟨mid, hn, hrest⟩ := h
    exact ⟨mid, hn.widen hlo (Nat.le_refl _), ih hrest (Nat.le_refl _)⟩

theorem StandInOrder.mem (h : StandInOrder lo hi ns) (hn : n ∈ ns) : n.StandsIn lo hi := by
  induction ns generalizing lo with
  | nil => cases hn
  | cons m rest ih =>
    obtain ⟨mid, hm, hrest⟩ := h
    rcases List.mem_cons.mp hn with rfl | hn
    · exact hm.widen (Nat.le_refl _) hrest.le
    · have hstart := hm.start
      have hfilled := hm.filled
      have hstop := hm.stop
      exact (ih hrest hn).widen (by omega) (Nat.le_refl _)

theorem standInOrder_append : StandInOrder lo hi (ns ++ ns') ↔
    ∃ mid, StandInOrder lo mid ns ∧ StandInOrder mid hi ns' := by
  induction ns generalizing lo with
  | nil =>
    constructor
    · exact fun h => ⟨lo, Nat.le_refl lo, h⟩
    · rintro ⟨mid, hmid, h⟩
      exact h.widen hmid (Nat.le_refl _)
  | cons n rest ih =>
    constructor
    · rintro ⟨stop, hn, hrest⟩
      obtain ⟨mid, hrest, hns'⟩ := ih.mp hrest
      exact ⟨mid, ⟨stop, hn, hrest⟩, hns'⟩
    · rintro ⟨mid, ⟨stop, hn, hrest⟩, hns'⟩
      exact ⟨stop, hn, ih.mpr ⟨mid, hrest, hns'⟩⟩

theorem standInOrder_of_areInOrder (h : AreInOrder lo hi ns)
    (hnodes : ∀ n ∈ ns, ∀ m ∈ n.nodes, m.IsInOrder) : StandInOrder lo hi ns := by
  induction ns generalizing lo with
  | nil => exact h
  | cons n rest ih =>
    obtain ⟨hstart, hfilled, hrest⟩ := h
    refine ⟨n.span.stop, ⟨hstart, hfilled, Nat.le_refl _, hnodes n (by simp)⟩, ?_⟩
    exact ih hrest fun m hm => hnodes m (List.mem_cons_of_mem _ hm)

theorem parts_of_inText {m : Node} (h : m ∈ n.inText) : m ∈ n.parts := by
  unfold inText at h
  split at h
  · exact List.mem_append_left _ h
  · cases h
  · exact h

/-- The parts of a node stand in it one behind the other. -/
theorem StandsIn.inText (h : n.StandsIn lo hi) :
    StandInOrder n.span.pos n.span.stop n.inText := by
  apply standInOrder_of_areInOrder
  · exact (h.nodes n (self_mem_nodes n)).parts
  · intro m hm k hk
    exact h.nodes k (mem_nodes_of_part (parts_of_inText hm) hk)

theorem StandsIn.pos_lt (h : n.StandsIn lo hi) : n.span.pos < hi :=
  Nat.lt_of_lt_of_le h.filled h.stop

theorem StandsIn.le (h : n.StandsIn lo hi) : lo ≤ hi := by
  have hstart := h.start
  have hlt := h.pos_lt
  omega

theorem StandsIn.part {m : Node} (h : n.StandsIn lo hi) (hm : m ∈ n.inText) : m.StandsIn lo hi :=
  (h.inText.mem hm).widen h.start h.stop

end Node

/-! ## The expression of a node -/

section

variable {path : String} {symbols : Symbols} {lo hi : Nat} {ns : List Node}

/-- Wherever a node stands, the expression that it stands for does so too. -/
def Node.ExprStands (path : String) (symbols : Symbols) (n : Node) : Prop :=
  ∀ lo hi, n.StandsIn lo hi → (n.expr path symbols).StandsBefore hi

theorem standsBefore_exprs (h : ∀ n ∈ ns, n.ExprStands path symbols)
    (hns : ∀ n ∈ ns, n.StandsIn lo hi) :
    ∀ e ∈ Node.exprs path symbols ns, e.StandsBefore hi := by
  rw [exprs_eq_map, List.forall_mem_map]
  exact fun n hn => h n hn lo hi (hns n hn)

theorem standsBefore_arguments {args : List (ArgumentOf Node)}
    (h : ∀ arg ∈ args, arg.value.ExprStands path symbols)
    (hargs : ∀ arg ∈ args, arg.value.StandsIn lo hi) :
    ∀ arg ∈ Node.arguments path symbols args, arg.value.StandsBefore hi := by
  rw [arguments_eq_map, List.forall_mem_map]
  exact fun arg harg => h arg harg lo hi (hargs arg harg)

theorem standsBefore_joinStrings {o : Origin} {parts : List Expr} (ho : o.pos < hi)
    (hparts : ∀ e ∈ parts, e.StandsBefore hi) : (joinStrings o parts).StandsBefore hi := by
  unfold joinStrings
  split
  · simpa using ho
  · simpa using ⟨ho, hparts⟩

/-- The expression of a node starts with it or in it, and so do all expressions in that. -/
theorem standsBefore_expr (path : String) (symbols : Symbols) (n : Node) :
    n.ExprStands path symbols := by
  induction n using Node.ind with
  | name s => exact fun lo hi h => Expr.standsBefore_name.mpr h.pos_lt
  | constant s => exact fun lo hi h => Expr.standsBefore_literal.mpr h.pos_lt
  | string s values formats ihv ihf =>
    intro lo hi h
    rw [Node.expr]
    split
    · exact Expr.standsBefore_literal.mpr h.pos_lt
    · exact Expr.standsBefore_compound.mpr
        ⟨h.pos_lt, standsBefore_exprs ihv fun m hm => h.part hm⟩
  | strings s parts ih =>
    intro lo hi h
    rw [Node.expr]
    exact standsBefore_joinStrings h.pos_lt (standsBefore_exprs ih fun m hm => h.part hm)
  | member s object attr ih =>
    intro lo hi h
    rw [Node.expr, Expr.standsBefore_member]
    exact ⟨h.pos_lt, ih lo hi (h.part List.mem_cons_self)⟩
  | subscript s value indices ihv ihi =>
    intro lo hi h
    rw [Node.expr, Expr.standsBefore_subscript]
    refine ⟨h.pos_lt, ihv lo hi (h.part List.mem_cons_self), ?_⟩
    cases indices with
    | nil => exact Expr.standsBefore_unknown.mpr h.pos_lt
    | cons index rest =>
      exact ihi index (by simp) lo hi (h.part (List.mem_cons_of_mem _ List.mem_cons_self))
  | call s func args ihf iha =>
    intro lo hi h
    rw [Node.expr, Expr.standsBefore_call]
    refine ⟨h.pos_lt, ihf lo hi (h.part List.mem_cons_self), ?_⟩
    apply standsBefore_arguments iha
    intro arg harg
    exact h.part (List.mem_cons_of_mem _ (List.mem_map_of_mem harg))
  | paren s lead inner ih => exact fun lo hi h => ih lo hi (h.part List.mem_cons_self)
  | starred s lead inner ih =>
    intro lo hi h
    have hinner := ih lo hi (h.part List.mem_cons_self)
    rw [Node.expr, Expr.standsBefore_compound]
    exact ⟨h.pos_lt, by simpa using hinner⟩
  | hidden comment inner ih =>
    intro lo hi h
    rw [Node.expr, Expr.standsBefore_compound]
    exact ⟨h.pos_lt, by simp⟩
  | walrus s target value ih => exact fun lo hi h => ih lo hi (h.part List.mem_cons_self)
  | aliased s value targetSpan target ihv iht =>
    intro lo hi h
    have hvalue := ihv lo hi (h.part List.mem_cons_self)
    have htarget := iht lo hi (h.part (List.mem_cons_of_mem _ List.mem_cons_self))
    have hspan := (h.nodes _ (self_mem_nodes _)).target targetSpan rfl
    have hpos : targetSpan.pos < hi := Nat.lt_of_lt_of_le hspan h.stop
    rw [Node.expr, Expr.standsBefore_compound]
    exact ⟨h.pos_lt, by simpa using ⟨hvalue, ⟨hpos, htarget⟩⟩⟩
  | lambda s params defaults body ihd ihb =>
    exact fun lo hi h => Expr.standsBefore_unknown.mpr h.pos_lt
  | comprehension s body clauses ihb ihc =>
    intro lo hi h
    have hbody := ihb lo hi (h.part List.mem_cons_self)
    rw [Node.expr, Expr.standsBefore_compound]
    exact ⟨h.pos_lt, by simpa using hbody⟩
  | test s parts ih => exact fun lo hi h => Expr.standsBefore_unknown.mpr h.pos_lt
  | group s form parts ih =>
    intro lo hi h
    rw [Node.expr, Expr.standsBefore_compound]
    exact ⟨h.pos_lt, standsBefore_exprs ih fun m hm => h.part hm⟩

end

/-! ## Statements -/

def Head.StandsIn (lo hi : Nat) : Head → Prop
  | .plain => lo ≤ hi
  | .condition value => value.StandsIn lo hi
  | .guard value => value.StandsIn lo hi
  | .handler kind target others =>
    Node.StandInOrder lo hi (kind.toList ++ (target.toList ++ others))

mutual

/-- A statement stands in a range of bytes, its parts one behind the other. -/
def Stmt.StandsIn (lo hi : Nat) : Stmt → Prop
  | .values parts => Node.StandInOrder lo hi parts
  | .assign _ targets none => Node.StandInOrder lo hi targets
  | .assign stop targets (some value) =>
    ∃ mid, Node.StandInOrder lo mid targets ∧ value.StandsIn mid stop ∧ stop ≤ hi
  | .augmented s target value =>
    lo ≤ s.pos ∧ Node.StandInOrder s.pos s.stop [target, value] ∧ s.stop ≤ hi
  | .imports _ => lo ≤ hi
  | .choice condition body branches =>
    ∃ start mid, condition.StandsIn lo start ∧ Stmt.StandInOrder start mid body ∧
      Stmt.BranchesStandInOrder mid hi branches
  | .whileLoop condition body branches =>
    ∃ start mid, condition.StandsIn lo start ∧ Stmt.StandInOrder start mid body ∧
      Stmt.BranchesStandInOrder mid hi branches
  | .forLoop target source body branches =>
    ∃ start mid, Node.StandInOrder lo start [target, source] ∧ Stmt.StandInOrder start mid body ∧
      Stmt.BranchesStandInOrder mid hi branches
  | .attempt body branches final =>
    ∃ start mid, Stmt.StandInOrder lo start body ∧ Stmt.BranchesStandInOrder start mid branches ∧
      Stmt.StandInOrder mid hi final
  | .withItems items body =>
    ∃ mid, Node.StandInOrder lo mid items ∧ Stmt.StandInOrder mid hi body
  | .cases subjects branches =>
    ∃ mid, Node.StandInOrder lo mid subjects ∧ Stmt.BranchesStandInOrder mid hi branches
  | .functionDef _ _ _ defaults body =>
    ∃ mid, Node.StandInOrder lo mid defaults ∧ Stmt.StandInOrder mid hi body
  | .classDef _ _ bases body =>
    ∃ mid, Node.StandInOrder lo mid (bases.map (·.value)) ∧ Stmt.StandInOrder mid hi body
  | .decorated decorators definition =>
    ∃ mid, Node.StandInOrder lo mid decorators ∧ definition.StandsIn mid hi

def Stmt.StandInOrder (lo hi : Nat) : List Stmt → Prop
  | [] => lo ≤ hi
  | stmt :: rest => ∃ mid, stmt.StandsIn lo mid ∧ Stmt.StandInOrder mid hi rest

def Stmt.BranchesStandInOrder (lo hi : Nat) : List (BranchOf Stmt) → Prop
  | [] => lo ≤ hi
  | ⟨head, body⟩ :: rest =>
    ∃ start mid, head.StandsIn lo start ∧ Stmt.StandInOrder start mid body ∧
      Stmt.BranchesStandInOrder mid hi rest

end

/-- A program as it is read from a text. -/
def Program.IsLaidOut (p : Program) : Prop := ∃ stop, Stmt.StandInOrder 0 stop p.body

end Python

end XPathTaint
