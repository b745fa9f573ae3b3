import XPathTaint.Proofs.ProgramCourse

-- All statements of a program, also those in the bodies of others, and where the courses of its
-- pieces are in the course of the whole.

namespace XPathTaint.Python

/-! ## Statements -/

/-- The statements right below a statement. -/
def Stmt.parts : Stmt → List Stmt
  | .values _ => []
  | .assign _ _ _ => []
  | .augmented _ _ _ => []
  | .imports _ => []
  | .choice _ body branches => body ++ branches.flatMap (·.body)
  | .whileLoop _ body branches => body ++ branches.flatMap (·.body)
  | .forLoop _ _ body branches => body ++ branches.flatMap (·.body)
  | .attempt body branches final => body ++ (branches.flatMap (·.body) ++ final)
  | .withItems _ body => body
  | .cases _ branches => branches.flatMap (·.body)
  | .functionDef _ _ _ _ body => body
  | .classDef _ _ _ body => body
  | .decorated _ definition => [definition]

mutual

/-- A statement and all statements in it. -/
def Stmt.nested : Stmt → List Stmt
  | .values parts => [.values parts]
  | .assign stop targets value => [.assign stop targets value]
  | .augmented s target value => [.augmented s target value]
  | .imports clauses => [.imports clauses]
  | .choice condition body branches =>
    .choice condition body branches ::
      (Stmt.nestedOfAll body ++ Stmt.nestedOfBranches branches)
  | .whileLoop condition body branches =>
    .whileLoop condition body branches ::
      (Stmt.nestedOfAll body ++ Stmt.nestedOfBranches branches)
  | .forLoop target source body branches =>
    .forLoop target source body branches ::
      (Stmt.nestedOfAll body ++ Stmt.nestedOfBranches branches)
  | .attempt body branches final =>
    .attempt body branches final ::
      (Stmt.nestedOfAll body ++ (Stmt.nestedOfBranches branches ++ Stmt.nestedOfAll final))
  | .withItems items body => .withItems items body :: Stmt.nestedOfAll body
  | .cases subjects branches => .cases subjects branches :: Stmt.nestedOfBranches branches
  | .functionDef s name params defaults body =>
    .functionDef s name params defaults body :: Stmt.nestedOfAll body
  | .classDef s name bases body => .classDef s name bases body :: Stmt.nestedOfAll body
  | .decorated decorators definition => .decorated decorators definition :: definition.nested

def Stmt.nestedOfAll : List Stmt → List Stmt
  | [] => []
  | stmt :: rest => stmt.nested ++ Stmt.nestedOfAll rest

def Stmt.nestedOfBranches : List (BranchOf Stmt) → List Stmt
  | [] => []
  | ⟨_, body⟩ :: rest => Stmt.nestedOfAll body ++ Stmt.nestedOfBranches rest

end

/-- All statements of a program. -/
def Program.statements (p : Program) : List Stmt := Stmt.nestedOfAll p.body

theorem nestedOfAll_eq (ts : List Stmt) : Stmt.nestedOfAll ts = ts.flatMap Stmt.nested := by
  induction ts with
  | nil => rfl
  | cons t rest ih => rw [Stmt.nestedOfAll, ih, List.flatMap_cons]

theorem nestedOfBranches_eq (branches : List (BranchOf Stmt)) :
    Stmt.nestedOfBranches branches = (branches.flatMap (·.body)).flatMap Stmt.nested := by
  induction branches with
  | nil => rfl
  | cons b rest ih =>
    rw [Stmt.nestedOfBranches, ih, nestedOfAll_eq, List.flatMap_cons, List.flatMap_append]

/-- The statements in a statement are itself and those in the statements right below it. -/
theorem nested_eq (t : Stmt) : t.nested = t :: t.parts.flatMap Stmt.nested := by
  cases t <;> simp [Stmt.nested, Stmt.parts, nestedOfAll_eq, nestedOfBranches_eq]

/-- What holds of a statement when it holds of the statements right below it holds of all. -/
@[elab_as_elim]
theorem Stmt.partsInd {motive : Stmt → Prop}
    (step : ∀ t : Stmt, (∀ part ∈ t.parts, motive part) → motive t) (t : Stmt) : motive t := by
  induction t using Stmt.ind with
  | values parts => exact step _ (by simp [Stmt.parts])
  | assign stop targets value => exact step _ (by simp [Stmt.parts])
  | augmented s target value => exact step _ (by simp [Stmt.parts])
  | imports clauses => exact step _ (by simp [Stmt.parts])
  | choice condition body branches ihb ihr =>
    exact step _ (by simpa [Stmt.parts, or_imp, forall_and] using
      ⟨ihb, fun t b hb ht => ihr b hb t ht⟩)
  | whileLoop condition body branches ihb ihr =>
    exact step _ (by simpa [Stmt.parts, or_imp, forall_and] using
      ⟨ihb, fun t b hb ht => ihr b hb t ht⟩)
  | forLoop target source body branches ihb ihr =>
    exact step _ (by simpa [Stmt.parts, or_imp, forall_and] using
      ⟨ihb, fun t b hb ht => ihr b hb t ht⟩)
  | attempt body branches final ihb ihr ihf =>
    exact step _ (by simpa [Stmt.parts, or_imp, forall_and] using
      ⟨ihb, fun t b hb ht => ihr b hb t ht, ihf⟩)
  | withItems items body ihb => exact step _ ihb
  | cases subjects branches ihr =>
    exact step _ (by simpa [Stmt.parts] using fun t b hb ht => ihr b hb t ht)
  | functionDef s name params defaults body ihb => exact step _ ihb
  | classDef s name bases body ihb => exact step _ ihb
  | decorated decorators definition ih => exact step _ (by simpa [Stmt.parts] using ih)

/-! ## Pieces of a course -/

namespace Course

variable {α : Type}

/-- A course is a piece of another one. -/
inductive PieceOf (piece : Course α) : Course α → Prop
  | self : PieceOf piece piece
  | one {order : PairOrder} {one other : Course α} (h : PieceOf piece one) :
    PieceOf piece (.pair order one other)
  | other {order : PairOrder} {one other : Course α} (h : PieceOf piece other) :
    PieceOf piece (.pair order one other)
  | again {part : Course α} (h : PieceOf piece part) : PieceOf piece (.again part)
  | optional {isBlock : Bool} {part : Course α} (h : PieceOf piece part) :
    PieceOf piece (.optional isBlock part)
  | scope {body : Course α} (h : PieceOf piece body) : PieceOf piece (.scope body)

theorem PieceOf.trans {inner middle outer : Course α} (h : inner.PieceOf middle)
    (h' : middle.PieceOf outer) : inner.PieceOf outer := by
  induction h' with
  | self => exact h
  | one _ ih => exact ih.one
  | other _ ih => exact ih.other
  | again _ ih => exact ih.again
  | optional _ ih => exact ih.optional
  | scope _ ih => exact ih.scope

/-- What a piece has stands in the whole one behind the other, all in the places of one piece. -/
theorem PieceOf.leaves_locate {piece c : Course Item} (h : piece.PieceOf c) (here : Here)
    (n k : Nat) : ∃ here' n' k',
      (piece.locate here' n' k').leaves <:+: (c.locate here n k).leaves := by
  induction h generalizing here n k with
  | self => exact ⟨here, n, k, List.infix_rfl⟩
  | one _ ih =>
    obtain ⟨here', n', k', h⟩ := ih (here.side _ false) n k
    exact ⟨here', n', k', h.trans (List.prefix_append _ _).isInfix⟩
  | other _ ih =>
    obtain ⟨here', n', k', h⟩ := ih (here.side _ true) _ _
    exact ⟨here', n', k', h.trans (List.suffix_append _ _).isInfix⟩
  | again _ ih => exact ih _ _ _
  | optional _ ih =>
    rename_i isBlock part _
    cases isBlock with
    | true => exact ih _ _ _
    | false => exact ih _ _ _
  | scope _ ih => exact ih _ _ _

end Course

/-! ## The courses of statements -/

section

variable {path : String} {symbols : Symbols} {t : Stmt}

theorem pieceOf_courseOfAll {ts : List Stmt} (h : t ∈ ts) :
    (t.course path symbols).PieceOf (Stmt.courseOfAll path symbols ts) := by
  induction ts with
  | nil => cases h
  | cons first rest ih =>
    rw [Stmt.courseOfAll]
    rcases List.mem_cons.mp h with rfl | h
    · exact .one .self
    · exact .other (ih h)

theorem pieceOf_courseOfBranches {branches : List (BranchOf Stmt)}
    (h : t ∈ branches.flatMap (·.body)) :
    (t.course path symbols).PieceOf (Stmt.courseOfBranches path symbols branches) := by
  induction branches with
  | nil => cases h
  | cons b rest ih =>
    rw [Stmt.courseOfBranches]
    rcases List.mem_append.mp h with h | h
    · exact .one (.optional (.other (pieceOf_courseOfAll h)))
    · exact .other (ih h)

theorem pieceOf_part {part : Stmt} (h : part ∈ t.parts) :
    (part.course path symbols).PieceOf (t.course path symbols) := by
  cases t with
  | values parts => cases h
  | assign stop targets value => cases h
  | augmented s target value => cases h
  | imports clauses => cases h
  | choice condition body branches =>
    rw [Stmt.course]
    rcases List.mem_append.mp h with h | h
    · exact .other (.one (.optional (pieceOf_courseOfAll h)))
    · exact .other (.other (pieceOf_courseOfBranches h))
  | whileLoop condition body branches =>
    rw [Stmt.course]
    rcases List.mem_append.mp h with h | h
    · exact .one (.again (.other (.optional (pieceOf_courseOfAll h))))
    · exact .other (pieceOf_courseOfBranches h)
  | forLoop target source body branches =>
    rw [Stmt.course]
    rcases List.mem_append.mp h with h | h
    · exact .other (.one (.optional (.other (pieceOf_courseOfAll h))))
    · exact .other (.other (pieceOf_courseOfBranches h))
  | attempt body branches final =>
    rw [Stmt.course]
    rcases List.mem_append.mp h with h | h
    · exact .one (.optional (pieceOf_courseOfAll h))
    · rcases List.mem_append.mp h with h | h
      · exact .other (.one (pieceOf_courseOfBranches h))
      · exact .other (.other (pieceOf_courseOfAll h))
  | withItems items body =>
    rw [Stmt.course]
    exact .other (pieceOf_courseOfAll h)
  | cases subjects branches =>
    rw [Stmt.course]
    exact .other (pieceOf_courseOfBranches h)
  | functionDef s name params defaults body =>
    rw [Stmt.course]
    exact .other (.scope (pieceOf_courseOfAll h))
  | classDef s name bases body =>
    rw [Stmt.course]
    exact .other (.scope (pieceOf_courseOfAll h))
  | decorated decorators definition =>
    obtain rfl := List.mem_singleton.mp h
    rw [Stmt.course]
    exact .other .self

theorem pieceOf_nested (t : Stmt) {inner : Stmt} (h : inner ∈ t.nested) :
    (inner.course path symbols).PieceOf (t.course path symbols) := by
  induction t using Stmt.partsInd with
  | step t ih =>
    rw [nested_eq] at h
    rcases List.mem_cons.mp h with rfl | h
    · exact .self
    · obtain ⟨part, hpart, h⟩ := List.mem_flatMap.mp h
      exact (ih part hpart h).trans (pieceOf_part hpart)

/-- The course of every statement of a program is a piece of the course of the program. -/
theorem pieceOf_program {p : Program} (h : t ∈ p.statements) :
    (t.course path symbols).PieceOf (p.course path symbols) := by
  rw [Program.statements, nestedOfAll_eq] at h
  obtain ⟨outer, houter, h⟩ := List.mem_flatMap.mp h
  exact (pieceOf_nested outer h).trans (pieceOf_courseOfAll houter)

end

end XPathTaint.Python
