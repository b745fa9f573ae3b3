import XPathTaint.Proofs.CourseRuns
import XPathTaint.Proofs.TextLayout

-- The course of a program that stands in a text is in the order of the text: each part has its uses
-- before its end and its bindings from its start on, and a binding, unless it is recorded ahead,
-- counts only from behind all that its value reads.

namespace XPathTaint.Python

/-! ## Courses in a range -/

/-- A binding counts from behind its value, unless it is recorded ahead. -/
def Item.ReadsEarlier : Item → Prop
  | .bind false _ value pos _ => value.StandsBefore pos
  | _ => True

/-- A course in the order of the text, from one byte to another. -/
structure Course.Spans (lo hi : Nat) (c : Course Item) : Prop where
  le : lo ≤ hi
  ordered : c.Ordered
  uses : ∀ i ∈ c.own, i.isUse → i.pos < hi
  bindings : ∀ i ∈ c.sure, i.isBinding → lo ≤ i.pos
  values : ∀ i ∈ c.leaves, i.ReadsEarlier

namespace Course

variable {one other c : Course Item} {lo mid hi lo' hi' : Nat}

theorem Spans.widen (h : c.Spans lo hi) (hlo : lo' ≤ lo) (hhi : hi ≤ hi') : c.Spans lo' hi' := by
  have hle := h.le
  refine ⟨by omega, h.ordered, ?_, ?_, h.values⟩
  · intro i hi huse
    have hlt := h.uses i hi huse
    omega
  · intro i hi hbinding
    have hge := h.bindings i hi hbinding
    omega

theorem spans_nothing (hle : lo ≤ hi) : Spans lo hi .nothing :=
  ⟨hle, trivial, by simp [own], by simp [sure], by simp [leaves]⟩

theorem spans_use {i : Item} (huse : i.isUse) (hle : lo ≤ hi) (hpos : i.pos < hi) :
    Spans lo hi (.item i) := by
  have hbinding : i.isBinding = false := by simpa [Item.isUse] using huse
  refine ⟨hle, trivial, by simpa [own] using fun _ => hpos, by simp [sure, hbinding], ?_⟩
  cases i with
  | read s => simp [leaves, Item.ReadsEarlier]
  | call s func callee args => simp [leaves, Item.ReadsEarlier]
  | bind ahead name value pos place => cases hbinding

theorem spans_bind {ahead : Bool} {name : String} {value : Expr} {pos : Nat} {place : Place}
    (hle : lo ≤ hi) (hpos : lo ≤ pos) (hvalue : ahead = false → value.StandsBefore pos) :
    Spans lo hi (.item (.bind ahead name value pos place)) := by
  refine ⟨hle, trivial, by simp [own, Item.isUse, Item.isBinding], ?_, ?_⟩
  · simpa [sure, Item.isBinding, Item.pos] using hpos
  · cases ahead with
    | true => simp [leaves, Item.ReadsEarlier]
    | false => simpa [leaves, Item.ReadsEarlier] using hvalue

/-- What both parts have in common, whatever their order. -/
theorem spans_pair {order : PairOrder} (hone : one.Spans lo hi) (hother : other.Spans lo hi)
    (hordered : (pair order one other).Ordered) : (pair order one other).Spans lo hi := by
  refine ⟨hone.le, hordered, ?_, ?_, ?_⟩
  · intro i hi
    rcases List.mem_append.mp hi with hi | hi
    · exact hone.uses i hi
    · exact hother.uses i hi
  · intro i hi
    rcases List.mem_append.mp hi with hi | hi
    · exact hone.bindings i hi
    · exact hother.bindings i hi
  · intro i hi
    rcases List.mem_append.mp hi with hi | hi
    · exact hone.values i hi
    · exact hother.values i hi

theorem Spans.usedBefore (hone : one.Spans lo mid) (hother : other.Spans mid hi) :
    one.UsedBefore other := by
  intro u hu huse b hb hbinding
  have hlt := hone.uses u hu huse
  have hge := hother.bindings b hb hbinding
  omega

theorem Spans.forward (hone : one.Spans lo mid) (hother : other.Spans mid hi) :
    (pair .forward one other).Spans lo hi :=
  spans_pair (hone.widen (Nat.le_refl _) hother.le) (hother.widen hone.le (Nat.le_refl _))
    ⟨hone.ordered, hother.ordered, hone.usedBefore hother⟩

/-- The part that is recorded first stands behind the other one. -/
theorem Spans.backward (hone : one.Spans mid hi) (hother : other.Spans lo mid) :
    (pair .backward one other).Spans lo hi :=
  spans_pair (hone.widen hother.le (Nat.le_refl _)) (hother.widen (Nat.le_refl _) hone.le)
    ⟨hone.ordered, hother.ordered, hother.usedBefore hone⟩

theorem Spans.either (hone : one.Spans lo hi) (hother : other.Spans lo hi) :
    (pair .either one other).Spans lo hi :=
  spans_pair hone hother ⟨hone.ordered, hother.ordered⟩

theorem Spans.again (h : c.Spans lo hi) : (Course.again c).Spans lo hi :=
  ⟨h.le, h.ordered, h.uses, h.bindings, h.values⟩

/-- Nothing in an optional part is sure to be bound, wherever it starts. -/
theorem Spans.optional (isBlock : Bool) (h : c.Spans lo hi) (hle : lo' ≤ hi) :
    (Course.optional isBlock c).Spans lo' hi :=
  ⟨hle, h.ordered, h.uses, by simp [sure], h.values⟩

theorem Spans.block (h : c.Spans lo hi) : (Course.optional true c).Spans lo hi :=
  h.optional true h.le

theorem Spans.scope (h : c.Spans lo' hi') (hle : lo ≤ hi) : (Course.scope c).Spans lo hi :=
  ⟨hle, h.ordered, by simp [own], by simp [sure], h.values⟩

end Course

/-! ## Targets -/

/-- A value that a target takes stands before the binding, and so does the target itself; a binding
that is recorded ahead only has to stand in the range. -/
def Goal.Fits (ahead : Bool) (lo hi : Nat) : Goal → Prop
  | .value => True
  | .target given _ pos => if ahead then lo ≤ pos else hi ≤ pos ∧ given.StandsBefore pos

theorem Goal.Fits.inner {goal : Goal} {lo hi lo' hi' : Nat} (h : goal.Fits false lo hi)
    (hle : hi' ≤ hi) : goal.Fits false lo' hi' := by
  cases goal with
  | value => trivial
  | target given pairwise pos => exact ⟨Nat.le_trans hle h.1, h.2⟩

section

variable {ahead : Bool} {goal : Goal} {e value : Expr} {lo mid hi pos : Nat} {c : Course Item}

open Course

theorem spans_taking (hle : lo ≤ hi) (hpos : lo ≤ pos)
    (hvalue : ahead = false → e.StandsBefore pos ∧ value.StandsBefore pos) :
    (taking ahead e value pos).Spans lo hi := by
  unfold taking
  cases e with
  | name id o => exact spans_bind hle hpos fun h => (hvalue h).2
  | member object attr o =>
    cases (Expr.member object attr o).dotted with
    | some path => exact spans_bind hle hpos fun h => (hvalue h).2
    | none => exact spans_nothing hle
  | subscript base index o =>
    dsimp only
    cases base.dotted with
    | some path =>
      refine spans_bind hle hpos fun h => ?_
      obtain ⟨hitem, hgiven⟩ := hvalue h
      obtain ⟨ho, hbase, _⟩ := Expr.standsBefore_subscript.mp hitem
      exact Expr.standsBefore_compound.mpr ⟨ho, by simpa using ⟨hbase, hgiven⟩⟩
    | none => exact spans_nothing hle
  | literal value o => exact spans_nothing hle
  | call func callee args o => exact spans_nothing hle
  | compound operands o => exact spans_nothing hle
  | unknown o => exact spans_nothing hle

theorem spans_name {s : Span} (hs : s.pos < hi) (hle : lo ≤ hi) (he : e.StandsBefore hi)
    (hgoal : goal.Fits ahead lo hi) : (goal.settle ahead s e).Spans lo hi := by
  cases goal with
  | value => exact spans_use rfl hle hs
  | target given pairwise pos =>
    cases ahead with
    | true => exact spans_taking hle hgoal (by simp)
    | false =>
      obtain ⟨hpos, hgiven⟩ := hgoal
      exact spans_taking hle (Nat.le_trans hle hpos) fun _ => ⟨he.mono hpos, hgiven⟩

/-- A target that was evaluated takes its value. -/
theorem spans_target {pairwise : Bool} (hc : c.Spans lo hi) (he : e.StandsBefore hi)
    (hgoal : (Goal.target value pairwise pos).Fits ahead lo hi) :
    (pair (orderOf ahead) c (taking ahead e value pos)).Spans lo hi := by
  cases ahead with
  | true =>
    exact hc.either (spans_taking hc.le hgoal (by simp))
  | false =>
    obtain ⟨hpos, hvalue⟩ := hgoal
    exact hc.forward (spans_taking (Nat.le_refl _) hpos fun _ => ⟨he.mono hpos, hvalue⟩)

theorem spans_finish (hc : c.Spans lo hi) (he : e.StandsBefore hi) (hgoal : goal.Fits ahead lo hi) :
    (pair (orderOf ahead) c (goal.finish ahead e)).Spans lo hi := by
  cases goal with
  | target given pairwise pos => exact spans_target hc he hgoal
  | value =>
    cases ahead with
    | true => exact hc.either (spans_nothing hc.le)
    | false => exact hc.forward (spans_nothing (Nat.le_refl _))

theorem spans_settle {s : Span} (hc : c.Spans lo hi) (he : e.StandsBefore hi) (hs : s.pos < hi)
    (hgoal : goal.Fits ahead lo hi) :
    (pair (orderOf ahead) c (goal.settle ahead s e)).Spans lo hi := by
  cases goal with
  | target given pairwise pos => exact spans_target hc he hgoal
  | value =>
    cases ahead with
    | true => exact hc.either (spans_use rfl hc.le hs)
    | false => exact hc.forward (spans_use rfl (Nat.le_refl _) hs)

end

/-! ## Nodes -/

/-- Wherever a node stands, its course is in the order of the text there. -/
def Node.Spans (path : String) (symbols : Symbols) (n : Node) : Prop :=
  ∀ ahead goal lo hi, n.StandsIn lo hi → goal.Fits ahead lo hi →
    (n.course path symbols ahead goal).Spans lo hi

section

variable {path : String} {symbols : Symbols} {ns : List Node} {lo mid hi : Nat}

open Course

theorem Node.Spans.value {n : Node} (h : n.Spans path symbols) (hn : n.StandsIn lo hi) :
    (n.course path symbols false .value).Spans lo hi := h false .value lo hi hn trivial

theorem spans_courses (h : ∀ n ∈ ns, n.Spans path symbols) (hns : Node.StandInOrder lo hi ns) :
    (Course.all .forward (Node.courses path symbols ns)).Spans lo hi := by
  induction ns generalizing lo with
  | nil => exact spans_nothing hns
  | cons n rest ih =>
    obtain ⟨mid, hn, hrest⟩ := hns
    exact ((h n (by simp)).value hn).forward
      (ih (fun m hm => h m (List.mem_cons_of_mem _ hm)) hrest)

theorem spans_cutShort (sure : Nat) (h : ∀ n ∈ ns, n.Spans path symbols)
    (hns : Node.StandInOrder lo hi ns) :
    (Course.cutShort sure (Node.courses path symbols ns)).Spans lo hi := by
  induction ns generalizing lo sure with
  | nil =>
    rw [Node.courses, Course.cutShort]
    exact spans_nothing hns
  | cons n rest ih =>
    cases sure with
    | zero => exact (spans_courses h hns).optional false hns.le
    | succ sure =>
      obtain ⟨mid, hn, hrest⟩ := hns
      exact ((h n (by simp)).value hn).forward
        (ih sure (fun m hm => h m (List.mem_cons_of_mem _ hm)) hrest)

theorem spans_conditional (h : ∀ n ∈ ns, n.Spans path symbols)
    (hns : Node.StandInOrder lo hi ns) :
    (Course.conditional (Node.courses path symbols ns)).Spans lo hi := by
  match ns with
  | [value, condition, other] =>
    obtain ⟨first, hvalue, second, hcondition, third, hother, hle⟩ := hns
    have hle' : third ≤ hi := hle
    have hvalue := (h value (by simp)).value hvalue
    have hcondition := (h condition (by simp)).value hcondition
    have hother := (h other (by simp)).value hother
    have htail := hcondition.forward (hother.optional false hother.le)
    have hstart := hvalue.le
    have hend := htail.le
    have hskip := (hvalue.widen (Nat.le_refl _) (by omega)).optional false (Nat.le_refl hi)
    exact hskip.backward (htail.widen hstart hle')
  | [] | [_] | [_, _] | _ :: _ :: _ :: _ :: _ => exact spans_courses h hns

theorem spans_group (form : GroupForm) (h : ∀ n ∈ ns, n.Spans path symbols)
    (hns : Node.StandInOrder lo hi ns) :
    (Course.ofGroup form (Node.courses path symbols ns)).Spans lo hi := by
  cases form with
  | sequence => exact spans_courses h hns
  | shortCircuit => exact spans_cutShort 1 h hns
  | conditional => exact spans_conditional h hns
  | other => exact spans_courses h hns

theorem spans_first (h : ∀ n ∈ ns, n.Spans path symbols) (hns : Node.StandInOrder lo hi ns) :
    (Node.courseOfFirst path symbols ns).Spans lo hi := by
  cases ns with
  | nil => exact spans_nothing hns
  | cons n rest => exact (h n (by simp)).value (hns.mem List.mem_cons_self)

theorem spans_arguments {args : List (ArgumentOf Node)}
    (h : ∀ arg ∈ args, arg.value.Spans path symbols)
    (hargs : Node.StandInOrder lo hi (args.map (·.value))) :
    (Course.arguments (Node.coursesOfArguments path symbols args)).Spans lo hi := by
  induction args generalizing lo with
  | nil => exact spans_nothing hargs
  | cons arg rest ih =>
    obtain ⟨keyword, splat, value⟩ := arg
    obtain ⟨mid, hvalue, hrest⟩ := hargs
    have hvalue := (h ⟨keyword, splat, value⟩ (by simp)).value hvalue
    have hrest := ih (fun arg harg => h arg (List.mem_cons_of_mem _ harg)) hrest
    rw [Node.coursesOfArguments, Course.arguments]
    split
    · exact (hvalue.widen (Nat.le_refl _) hrest.le).either (hrest.widen hvalue.le (Nat.le_refl _))
    · exact hvalue.forward hrest

/-- The clauses of a comprehension, with the body in a part that may be passed over: it is written
first but evaluated last. -/
theorem spans_clauses {clauses : List (ClauseOf Node)} {pos : Nat} {last : Course Item}
    (h : ∀ c ∈ clauses, c.Holds (Node.Spans path symbols)) (hpos : pos ≤ lo)
    (hclauses : Node.StandInOrder lo hi (clauses.flatMap (·.parts)))
    (hlast : ∀ lo, lo ≤ hi → last.Spans lo hi) :
    (Node.courseOfClauses path symbols pos last clauses).Spans lo hi := by
  induction clauses generalizing lo with
  | nil => exact hlast lo hclauses
  | cons clause rest ih =>
    have hclause := h clause (by simp)
    rw [List.flatMap_cons, Node.standInOrder_append] at hclauses
    obtain ⟨mid, hparts, hrest⟩ := hclauses
    have hle := hparts.le
    have hrest := ih (fun c hc => h c (List.mem_cons_of_mem _ hc)) (by omega) hrest
    cases clause with
    | loop target sources =>
      obtain ⟨start, htarget, hsources⟩ := hparts
      have hbehind := htarget.le
      have hstart := hsources.le
      have hsource := (spans_first hclause.2 hsources).widen hbehind (Nat.le_refl _)
      have htarget := hclause.1 true
        (.target (Node.exprOfFirst path symbols (.unknown default) sources) false pos) pos start
        (htarget.widen hpos (Nat.le_refl _)) (by simp [Goal.Fits])
      have hloop := htarget.forward (hrest.widen hstart (Nat.le_refl _))
      exact hsource.forward (hloop.optional false hrest.le)
    | guard condition =>
      obtain ⟨stop, hcondition, hstop⟩ := hparts
      have hcondition := (hclause.value hcondition).widen (Nat.le_refl _) hstop
      exact hcondition.forward hrest

/-- The targets of a sequence, which take their values in the order of the text. -/
theorem spans_targets {ahead : Bool} {values : List Expr} {pos : Nat}
    (h : ∀ n ∈ ns, n.Spans path symbols) (hns : Node.StandInOrder lo hi ns)
    (hgoal : ∀ value ∈ values, (Goal.target value false pos).Fits ahead lo hi) :
    (Course.all (orderOf ahead)
      (Node.coursesOfTargets path symbols ahead pos values ns)).Spans lo hi := by
  induction ns generalizing lo values with
  | nil =>
    rw [Node.coursesOfTargets]
    exact spans_nothing hns
  | cons n rest ih =>
    cases values with
    | nil => exact spans_nothing hns.le
    | cons value values =>
      have hfirst := hgoal value (by simp)
      have hothers := fun v hv => hgoal v (List.mem_cons_of_mem _ hv)
      have hnodes := fun m hm => h m (List.mem_cons_of_mem _ hm)
      obtain ⟨mid, hn, hrest⟩ := hns
      have hle := hn.le
      have hmid := hrest.le
      cases ahead with
      | true =>
        have htarget := h n (by simp) true (.target value false pos) lo hi
          (hn.widen (Nat.le_refl _) hmid) hfirst
        exact htarget.either (ih hnodes (hrest.widen hle (Nat.le_refl _)) hothers)
      | false =>
        have htarget := h n (by simp) false (.target value false pos) lo mid hn (hfirst.inner hmid)
        exact htarget.forward
          (ih hnodes hrest fun v hv => (hothers v hv).inner (Nat.le_refl _))

theorem fits_valuesFor {ahead pairwise : Bool} {value : Expr} {pos count : Nat}
    (hgoal : (Goal.target value pairwise pos).Fits ahead lo hi) :
    ∀ v ∈ valuesFor value pairwise count, (Goal.target v false pos).Fits ahead lo hi := by
  intro v hv
  have hsame : v = value → (Goal.target v false pos).Fits ahead lo hi := by
    rintro rfl
    exact hgoal
  unfold valuesFor at hv
  split at hv
  · rename_i operands o
    split at hv
    · cases ahead with
      | true => exact hgoal
      | false =>
        obtain ⟨hpos, hvalue⟩ := hgoal
        exact ⟨hpos, (Expr.standsBefore_compound.mp hvalue).2 v hv⟩
    · exact hsame (List.eq_of_mem_replicate hv)
  · exact hsame (List.eq_of_mem_replicate hv)

theorem spans_node (n : Node) : n.Spans path symbols := by
  induction n using Node.ind with
  | name s =>
    intro ahead goal lo hi h hgoal
    rw [Node.course]
    have he : (Expr.name s.text (originIn path s)).StandsBefore hi :=
      Expr.standsBefore_name.mpr h.pos_lt
    exact spans_name h.pos_lt h.le he hgoal
  | constant s =>
    intro ahead goal lo hi h hgoal
    exact spans_nothing h.le
  | string s values formats ihv ihf =>
    intro ahead goal lo hi h hgoal
    exact (spans_courses ihv h.inText).widen h.start h.stop
  | strings s parts ih =>
    intro ahead goal lo hi h hgoal
    exact (spans_courses ih h.inText).widen h.start h.stop
  | member s object attr ih =>
    intro ahead goal lo hi h hgoal
    rw [Node.course]
    have hobject := ih.value (h.part List.mem_cons_self)
    have hpath := standsBefore_expr path symbols (.member s object attr) lo hi h
    exact spans_settle hobject hpath h.pos_lt hgoal
  | subscript s value indices ihv ihi =>
    intro ahead goal lo hi h hgoal
    rw [Node.course]
    obtain ⟨mid, hvalue, hindices⟩ := h.inText
    have hparts := (ihv.value hvalue).forward (spans_first ihi hindices)
    exact spans_finish (hparts.widen h.start h.stop)
      (standsBefore_expr path symbols (.subscript s value indices) lo hi h) hgoal
  | call s func args ihf iha =>
    intro ahead goal lo hi h hgoal
    rw [Node.course]
    obtain ⟨mid, hfunc, hargs⟩ := h.inText
    have hargs := spans_arguments iha hargs
    have hitem : (Course.item (callItem path symbols s func args)).Spans s.stop s.stop :=
      spans_use rfl (Nat.le_refl _) h.filled
    exact ((ihf.value hfunc).forward (hargs.forward hitem)).widen h.start h.stop
  | paren s lead inner ih =>
    intro ahead goal lo hi h hgoal
    have hinner := h.part List.mem_cons_self
    rw [Node.course.eq_def]
    cases goal with
    | value => exact ih ahead .value lo hi hinner hgoal
    | target given pairwise pos =>
      cases lead with
      | some comment => exact spans_nothing h.le
      | none => exact ih ahead _ lo hi hinner hgoal
  | starred s lead inner ih =>
    intro ahead goal lo hi h hgoal
    have hinner := h.part List.mem_cons_self
    rw [Node.course.eq_def]
    cases goal with
    | value => exact ih ahead .value lo hi hinner hgoal
    | target given pairwise pos =>
      cases lead with
      | some comment => exact spans_nothing h.le
      | none => exact ih ahead _ lo hi hinner hgoal
  | hidden comment inner ih =>
    intro ahead goal lo hi h hgoal
    exact spans_nothing h.le
  | walrus s target value ih =>
    intro ahead goal lo hi h hgoal
    rw [Node.course]
    have hvalue := (h.self).part List.mem_cons_self
    have hbind : (Course.item (.bind false target.text (value.expr path symbols) s.stop
        (placeIn path target))).Spans s.stop s.stop :=
      spans_bind (Nat.le_refl _) (Nat.le_refl _) fun _ =>
        standsBefore_expr path symbols value _ _ hvalue
    have hparts := (ih.value hvalue).forward hbind
    exact spans_finish (hparts.widen h.start h.stop)
      (standsBefore_expr path symbols (.walrus s target value) lo hi h) hgoal
  | aliased s value targetSpan target ihv iht =>
    intro ahead goal lo hi h hgoal
    obtain ⟨mid, hvalue, htarget⟩ := h.inText
    have htarget := iht.value (htarget.mem List.mem_cons_self)
    exact ((ihv.value hvalue).forward htarget).widen h.start h.stop
  | lambda s params defaults body ihd ihb =>
    intro ahead goal lo hi h hgoal
    rw [Node.course]
    obtain ⟨mid, hdefaults, hbody⟩ := Node.standInOrder_append.mp h.inText
    have hscope := (ihb.value (hbody.mem List.mem_cons_self)).scope hbody.le
    exact ((spans_courses ihd hdefaults).forward hscope).widen h.start h.stop
  | comprehension s body clauses ihb ihc =>
    intro ahead goal lo hi h hgoal
    rw [Node.course]
    obtain ⟨mid, hbody, hclauses⟩ := h.inText
    have hmid := hbody.le
    have hbody := (ihb.value hbody).widen (Nat.le_refl _) hclauses.le
    have hall : (Node.courseOfClauses path symbols s.pos
        (.optional false (body.course path symbols false .value)) clauses).Spans mid s.stop :=
      spans_clauses ihc hmid hclauses fun _ hle => hbody.optional false hle
    exact (hall.widen (Nat.le_refl _) h.stop).optional true h.le
  | test s parts ih =>
    intro ahead goal lo hi h hgoal
    exact (spans_cutShort 2 ih h.inText).widen h.start h.stop
  | group s form parts ih =>
    intro ahead goal lo hi h hgoal
    rw [Node.course.eq_def]
    have hgroup := (spans_group form ih h.inText).widen h.start h.stop
    cases goal with
    | value => cases form <;> exact hgroup
    | target given pairwise pos =>
      cases form with
      | sequence => exact spans_targets ih (h.inText.widen h.start h.stop) (fits_valuesFor hgoal)
      | shortCircuit => exact hgroup
      | conditional => exact hgroup
      | other => exact hgroup

end

/-! ## Statements -/

section

variable (path : String) (symbols : Symbols) (pairwise : Bool) {value : Expr} {pos lo mid hi : Nat}
  {n : Node}

open Course

theorem spans_value (hn : n.StandsIn lo hi) : (n.course path symbols false .value).Spans lo hi :=
  (spans_node n).value hn

/-- A target that takes its value behind both. -/
theorem spans_bound (hn : n.StandsIn lo hi) (hpos : hi ≤ pos) (hvalue : value.StandsBefore pos) :
    (n.course path symbols false (.target value pairwise pos)).Spans lo hi :=
  spans_node n false (.target value pairwise pos) lo hi hn ⟨hpos, hvalue⟩

theorem spans_others {reversed : List Node} (hns : Node.StandInOrder lo hi reversed.reverse)
    (hpos : hi ≤ pos) (hvalue : value.StandsBefore pos) :
    (Course.all .backward
      (reversed.map (·.course path symbols false (.target value false pos)))).Spans lo hi := by
  induction reversed generalizing hi with
  | nil => exact spans_nothing hns
  | cons n rest ih =>
    rw [List.reverse_cons, Node.standInOrder_append] at hns
    obtain ⟨mid, hrest, hn⟩ := hns
    have hle := hn.le
    have hlast := spans_bound path symbols false (hn.mem List.mem_cons_self) hpos hvalue
    exact hlast.backward (ih hrest (by omega))

theorem spans_courseOfTargets {targets : List Node} (hns : Node.StandInOrder lo hi targets)
    (hpos : hi ≤ pos) (hvalue : value.StandsBefore pos) :
    (courseOfTargets path symbols value pairwise pos targets).Spans lo hi := by
  unfold courseOfTargets
  cases h : targets.reverse with
  | nil => exact spans_nothing hns.le
  | cons last others =>
    rw [← List.reverse_reverse targets, h, List.reverse_cons, Node.standInOrder_append] at hns
    obtain ⟨mid, hothers, hlast⟩ := hns
    have hle := hlast.le
    have hspans := spans_bound path symbols pairwise (hlast.mem List.mem_cons_self) hpos hvalue
    exact hspans.backward (spans_others path symbols hothers (by omega) hvalue)

theorem spans_item (hn : n.StandsIn lo hi) : (courseOfItem path symbols n).Spans lo hi := by
  unfold courseOfItem
  split
  · rename_i s value targetSpan target
    obtain ⟨mid, hvalue, htarget⟩ := hn.inText
    have hbefore := (standsBefore_expr path symbols value _ _ hvalue).mono htarget.le
    have htarget := htarget.mem List.mem_cons_self
    have hspans := spans_bound path symbols false htarget (Nat.le_refl _) hbefore
    exact ((spans_value path symbols hvalue).forward hspans).widen hn.start hn.stop
  · exact spans_value path symbols hn

theorem spans_items {items : List Node} (h : Node.StandInOrder lo hi items) :
    (Course.all .forward (items.map (courseOfItem path symbols))).Spans lo hi := by
  induction items generalizing lo with
  | nil => exact spans_nothing h
  | cons item rest ih =>
    obtain ⟨mid, hitem, hrest⟩ := h
    exact (spans_item path symbols hitem).forward (ih hrest)

theorem spans_head {head : Head} (h : head.StandsIn lo hi) :
    (head.course path symbols).Spans lo hi := by
  cases head with
  | plain => exact spans_nothing h
  | condition value => exact spans_value path symbols h
  | guard value => exact spans_nothing (Node.StandsIn.le h)
  | handler kind target others =>
    obtain ⟨mid, hkind, hrest⟩ := Node.standInOrder_append.mp h
    obtain ⟨stop, htarget, hothers⟩ := Node.standInOrder_append.mp hrest
    refine ((spans_first (fun n _ => spans_node n) hkind).forward ?_).widen (Nat.le_refl _)
      hothers.le
    cases target with
    | none => exact spans_nothing htarget
    | some target =>
      have htarget := htarget.mem List.mem_cons_self
      have hself := htarget.self
      have hunknown : (Expr.unknown (originIn path target.span)).StandsBefore target.span.stop :=
        Expr.standsBefore_unknown.mpr hself.filled
      exact (spans_bound path symbols false hself (Nat.le_refl _) hunknown).widen htarget.start
        htarget.stop

end

/-- Wherever a statement stands, its course is in the order of the text there. -/
def Stmt.Spans (path : String) (symbols : Symbols) (t : Stmt) : Prop :=
  ∀ lo hi, t.StandsIn lo hi → (t.course path symbols).Spans lo hi

section

variable {path : String} {symbols : Symbols} {lo hi : Nat}

open Course

theorem spans_stmts {ts : List Stmt} (h : ∀ t ∈ ts, t.Spans path symbols)
    (hts : Stmt.StandInOrder lo hi ts) : (Stmt.courseOfAll path symbols ts).Spans lo hi := by
  induction ts generalizing lo with
  | nil => exact spans_nothing hts
  | cons t rest ih =>
    obtain ⟨mid, ht, hrest⟩ := hts
    exact (h t (by simp) lo mid ht).forward (ih (fun t ht => h t (List.mem_cons_of_mem _ ht)) hrest)

theorem spans_branches {branches : List (BranchOf Stmt)}
    (h : ∀ b ∈ branches, ∀ t ∈ b.body, t.Spans path symbols)
    (hbranches : Stmt.BranchesStandInOrder lo hi branches) :
    (Stmt.courseOfBranches path symbols branches).Spans lo hi := by
  induction branches generalizing lo with
  | nil => exact spans_nothing hbranches
  | cons b rest ih =>
    obtain ⟨head, body⟩ := b
    obtain ⟨start, mid, hhead, hbody, hrest⟩ := hbranches
    have hbody := spans_stmts (h ⟨head, body⟩ (by simp)) hbody
    have hbranch := (spans_head path symbols hhead).forward hbody
    exact hbranch.block.forward
      (ih (fun b hb => h b (List.mem_cons_of_mem _ hb)) hrest)

theorem spans_stmt (t : Stmt) : t.Spans path symbols := by
  induction t using Stmt.ind with
  | values parts => exact fun lo hi h => spans_courses (fun n _ => spans_node n) h
  | assign stop targets value =>
    intro lo hi h
    cases value with
    | none => exact spans_nothing (Node.StandInOrder.le h)
    | some value =>
      obtain ⟨mid, htargets, hvalue, hstop⟩ := h
      have hlo := htargets.le
      have hmid := hvalue.le
      have htargets := spans_courseOfTargets path symbols value.isSequence htargets hmid
        (standsBefore_expr path symbols value _ _ hvalue)
      have hvalue := spans_value path symbols hvalue
      exact (hvalue.widen hlo hstop).either (htargets.widen (Nat.le_refl _) (by omega))
  | augmented s target value =>
    intro lo hi h
    obtain ⟨hstart, ⟨mid, htarget, hvalue⟩, hstop⟩ := h
    have hvalue := hvalue.mem List.mem_cons_self
    have hle := hvalue.le
    have hread := (standsBefore_expr path symbols target _ _ htarget).mono hle
    have hgiven := standsBefore_expr path symbols value _ _ hvalue
    have hfirst := htarget.start
    have hlt := htarget.pos_lt
    have hspan : s.pos < s.stop := by omega
    have hmerged : (Expr.compound [target.expr path symbols, value.expr path symbols]
        (originIn path s)).StandsBefore s.stop :=
      Expr.standsBefore_compound.mpr ⟨hspan, by simpa using ⟨hread, hgiven⟩⟩
    have hbound : (taking false (target.expr path symbols) (.compound
        [target.expr path symbols, value.expr path symbols] (originIn path s)) s.stop).Spans
          s.stop s.stop :=
      spans_taking (Nat.le_refl _) (Nat.le_refl _) fun _ => ⟨hread, hmerged⟩
    exact ((spans_value path symbols htarget).forward
      ((spans_value path symbols hvalue).forward hbound)).widen hstart hstop
  | imports clauses => exact fun lo hi h => spans_nothing h
  | choice condition body branches ihb ihr =>
    intro lo hi h
    obtain ⟨start, mid, hcondition, hbody, hbranches⟩ := h
    have hbody := spans_stmts ihb hbody
    exact (spans_value path symbols hcondition).forward
      (hbody.block.forward (spans_branches ihr hbranches))
  | whileLoop condition body branches ihb ihr =>
    intro lo hi h
    obtain ⟨start, mid, hcondition, hbody, hbranches⟩ := h
    have hbody := spans_stmts ihb hbody
    have hloop := (spans_value path symbols hcondition).forward hbody.block
    exact hloop.again.forward (spans_branches ihr hbranches)
  | forLoop target source body branches ihb ihr =>
    intro lo hi h
    obtain ⟨start, mid, ⟨first, htarget, hsource⟩, hbody, hbranches⟩ := h
    have hlo := htarget.le
    have hsource := hsource.mem List.mem_cons_self
    have hfirst := hsource.start
    have hfilled := hsource.filled
    have hstart := hsource.le
    -- the source is evaluated before the target but stands behind it
    have hbound := spans_bound path symbols false htarget (by omega)
      (standsBefore_expr path symbols source _ _ hsource.self)
    have hpass := (hbound.widen (Nat.le_refl lo) hstart).forward (spans_stmts ihb hbody)
    have hread := (spans_value path symbols hsource).widen hlo (Nat.le_refl _)
    have hpasses := hpass.optional true (spans_stmts ihb hbody).le
    exact hread.forward (hpasses.forward (spans_branches ihr hbranches))
  | attempt body branches final ihb ihr ihf =>
    intro lo hi h
    obtain ⟨start, mid, hbody, hbranches, hfinal⟩ := h
    have hbody := spans_stmts ihb hbody
    exact hbody.block.forward
      ((spans_branches ihr hbranches).forward (spans_stmts ihf hfinal))
  | withItems items body ihb =>
    intro lo hi h
    obtain ⟨mid, hitems, hbody⟩ := h
    exact (spans_items path symbols hitems).forward (spans_stmts ihb hbody)
  | cases subjects branches ihr =>
    intro lo hi h
    obtain ⟨mid, hsubjects, hbranches⟩ := h
    exact (spans_first (fun n _ => spans_node n) hsubjects).forward (spans_branches ihr hbranches)
  | functionDef s name params defaults body ihb =>
    intro lo hi h
    obtain ⟨mid, hdefaults, hbody⟩ := h
    have hbody := spans_stmts ihb hbody
    exact (spans_courses (fun n _ => spans_node n) hdefaults).forward (hbody.scope hbody.le)
  | classDef s name bases body ihb =>
    intro lo hi h
    obtain ⟨mid, hbases, hbody⟩ := h
    have hbody := spans_stmts ihb hbody
    exact (spans_arguments (fun arg _ => spans_node arg.value) hbases).forward
      (hbody.scope hbody.le)
  | decorated decorators definition ih =>
    intro lo hi h
    obtain ⟨mid, hdecorators, hdefinition⟩ := h
    exact (spans_courses (fun n _ => spans_node n) hdecorators).forward (ih mid hi hdefinition)

end

/-- The course of a program that stands in a text is in the order of the text. -/
theorem spans_program (path : String) (symbols : Symbols) (p : Program) (h : p.IsLaidOut) :
    ∃ stop, (p.course path symbols).Spans 0 stop := by
  obtain ⟨stop, hbody⟩ := h
  exact ⟨stop, spans_stmts (fun t _ => spans_stmt t) hbody⟩

end XPathTaint.Python
