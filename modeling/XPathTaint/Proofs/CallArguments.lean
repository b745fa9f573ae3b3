import XPathTaint.Proofs.CourseLowering

-- With which arguments calls are recorded: those of the calls that are read, in the same order,
-- each argument as the expression that its node stands for.

namespace XPathTaint.Python

/-! ## Calls in a course -/

/-- The arguments of an item that is a call. -/
def Item.args? : Item → Option (List Argument)
  | .call _ _ _ args => some args
  | _ => none

/-- With which arguments the calls in a course are made. -/
def Course.callArgs (c : Course Item) : List (List Argument) := c.leaves.filterMap Item.args?

namespace Course

variable {one other part : Course Item} {parts : List (Course Item)}

@[simp] theorem callArgs_nothing : callArgs .nothing = [] := rfl

@[simp] theorem callArgs_read (s : Span) : callArgs (.item (.read s)) = [] := rfl

@[simp] theorem callArgs_bind (ahead : Bool) (name : String) (value : Expr) (pos : Nat)
    (place : Place) : callArgs (.item (.bind ahead name value pos place)) = [] := rfl

@[simp] theorem callArgs_pair (order : PairOrder) :
    (pair order one other).callArgs = one.callArgs ++ other.callArgs := List.filterMap_append

@[simp] theorem callArgs_again : (again part).callArgs = part.callArgs := rfl

@[simp] theorem callArgs_optional (isBlock : Bool) :
    (optional isBlock part).callArgs = part.callArgs := rfl

@[simp] theorem callArgs_scope : (scope part).callArgs = part.callArgs := rfl

@[simp] theorem callArgs_all (order : PairOrder) :
    (all order parts).callArgs = parts.flatMap callArgs := by
  induction parts with
  | nil => rfl
  | cons part rest ih => rw [all, callArgs_pair, ih, List.flatMap_cons]

@[simp] theorem callArgs_cutShort (sure : Nat) :
    (cutShort sure parts).callArgs = parts.flatMap callArgs := by
  induction parts generalizing sure with
  | nil =>
    rw [cutShort]
    rfl
  | cons part rest ih =>
    cases sure with
    | zero => rw [cutShort, callArgs_optional, callArgs_all]
    | succ sure => rw [cutShort, callArgs_pair, ih, List.flatMap_cons]

@[simp] theorem callArgs_ofGroup (form : GroupForm) :
    (ofGroup form parts).callArgs = parts.flatMap callArgs := by
  cases form with
  | sequence => exact callArgs_all _
  | shortCircuit => exact callArgs_cutShort _
  | other => exact callArgs_all _
  | conditional =>
    rw [ofGroup]
    unfold conditional
    split
    · simp
    · exact callArgs_all _

@[simp] theorem callArgs_arguments (args : List (Bool × Course Item)) :
    (arguments args).callArgs = args.flatMap fun arg => arg.2.callArgs := by
  induction args with
  | nil => rfl
  | cons arg rest ih => rw [arguments, callArgs_pair, ih, List.flatMap_cons]

end Course

section

variable (ahead : Bool) (goal : Goal) (e : Expr)

@[simp] theorem callArgs_taking (value : Expr) (pos : Nat) :
    (taking ahead e value pos).callArgs = [] := by
  unfold taking
  split
  · rfl
  · split <;> rfl
  · split <;> rfl
  · rfl

@[simp] theorem callArgs_finish : (goal.finish ahead e).callArgs = [] := by
  cases goal with
  | value => rfl
  | target given pairwise pos => exact callArgs_taking ahead e given pos

@[simp] theorem callArgs_settle (s : Span) : (goal.settle ahead s e).callArgs = [] := by
  cases goal with
  | value => rfl
  | target given pairwise pos => exact callArgs_taking ahead e given pos

end

/-! ## Calls that are read -/

section

variable (path : String) (symbols : Symbols)

/-- The arguments of the calls that are read. -/
def readArgs (cs : List CallNode) : List (List Argument) :=
  (cs.filter (·.isRead)).map fun c => Node.arguments path symbols c.args

@[simp] theorem readArgs_nil : readArgs path symbols [] = [] := rfl

@[simp] theorem readArgs_append (cs cs' : List CallNode) :
    readArgs path symbols (cs ++ cs') = readArgs path symbols cs ++ readArgs path symbols cs' := by
  simp [readArgs]

variable {path symbols}

theorem readArgs_of_noneRead {cs : List CallNode} (h : NoneRead cs) :
    readArgs path symbols cs = [] := by
  unfold readArgs
  rw [List.filter_eq_nil_iff.mpr fun c hc => by simp [h c hc], List.map_nil]

@[simp] theorem readArgs_ignored (o : Owner) (ns : List Node) :
    readArgs path symbols (Node.callsOfAll o.ignored ns) = [] :=
  readArgs_of_noneRead (noneRead_ignored rfl)

@[simp] theorem readArgs_ignored_value (st : Standing) (ns : List Node) :
    readArgs path symbols (Node.callsOfAll st.ignored ns) = [] :=
  readArgs_of_noneRead (noneRead_ignored rfl)

end

/-! ## Nodes -/

/-- However a node is read, the calls in its course are those that are read in it. -/
def Node.SameArgs (path : String) (symbols : Symbols) (n : Node) : Prop :=
  ∀ ahead goal o, (n.course path symbols ahead goal).callArgs =
    readArgs path symbols (n.calls (goal.standing o))

section

variable {path : String} {symbols : Symbols} {ns : List Node} {o : Owner}

theorem Node.SameArgs.value {n : Node} (h : n.SameArgs path symbols) (o : Owner) :
    (n.course path symbols false .value).callArgs = readArgs path symbols (n.calls o.value) :=
  h false .value o

theorem callArgs_courses (h : ∀ n ∈ ns, n.SameArgs path symbols) (o : Owner) :
    (Node.courses path symbols ns).flatMap Course.callArgs =
      readArgs path symbols (Node.callsOfAll o.value ns) := by
  induction ns with
  | nil => rfl
  | cons n rest ih =>
    rw [Node.courses, List.flatMap_cons, Node.callsOfAll, readArgs_append, (h n (by simp)).value o,
      ih fun m hm => h m (List.mem_cons_of_mem _ hm)]

theorem callArgs_first (h : ∀ n ∈ ns, n.SameArgs path symbols) (o : Owner) :
    (Node.courseOfFirst path symbols ns).callArgs =
      readArgs path symbols (Node.callsOfFirst o.value ns) := by
  cases ns with
  | nil => rfl
  | cons n rest =>
    rw [Node.courseOfFirst, Node.callsOfFirst, readArgs_append, (h n (by simp)).value o,
      readArgs_ignored_value, List.append_nil]

theorem callArgs_coursesOfArguments {args : List (ArgumentOf Node)}
    (h : ∀ arg ∈ args, arg.value.SameArgs path symbols) (o : Owner) :
    (Node.coursesOfArguments path symbols args).flatMap (fun arg => arg.2.callArgs) =
      readArgs path symbols (Node.callsOfArguments o.value args) := by
  induction args with
  | nil => rfl
  | cons arg rest ih =>
    obtain ⟨keyword, splat, value⟩ := arg
    have hvalue := (h ⟨keyword, splat, value⟩ (by simp)).value o
    rw [Node.coursesOfArguments, List.flatMap_cons, Node.callsOfArguments, readArgs_append,
      ih fun arg harg => h arg (List.mem_cons_of_mem _ harg)]
    exact congrArg (· ++ _) hvalue

theorem callArgs_clauses {clauses : List (ClauseOf Node)}
    (h : ∀ c ∈ clauses, c.Holds (Node.SameArgs path symbols)) (o : Owner) (pos : Nat)
    (last : Course Item) : (Node.courseOfClauses path symbols pos last clauses).callArgs =
      readArgs path symbols (Node.callsOfClauses o.value clauses) ++ last.callArgs := by
  induction clauses with
  | nil => rfl
  | cons clause rest ih =>
    have hrest := ih fun c hc => h c (List.mem_cons_of_mem _ hc)
    have hclause := h clause (by simp)
    cases clause with
    | loop target sources =>
      have htarget := hclause.1 true
        (.target (Node.exprOfFirst path symbols (.unknown default) sources) false pos) o
      rw [Node.courseOfClauses, Node.callsOfClauses, Course.callArgs_pair, Course.callArgs_optional,
        Course.callArgs_pair, readArgs_append, readArgs_append, hrest, htarget,
        callArgs_first hclause.2 o, List.append_assoc, List.append_assoc]
      rfl
    | guard condition =>
      rw [Node.courseOfClauses, Node.callsOfClauses, Course.callArgs_pair, readArgs_append, hrest,
        hclause.value o, List.append_assoc]

theorem callArgs_targets {values : List Expr} (h : ∀ n ∈ ns, n.SameArgs path symbols)
    (hlen : values.length = ns.length) (ahead : Bool) (pos : Nat) (o : Owner) :
    (Node.coursesOfTargets path symbols ahead pos values ns).flatMap Course.callArgs =
      readArgs path symbols (Node.callsOfAll o.target ns) := by
  induction ns generalizing values with
  | nil =>
    rw [Node.coursesOfTargets]
    rfl
  | cons n rest ih =>
    cases values with
    | nil => simp at hlen
    | cons value values =>
      have hn := h n (by simp) ahead (.target value false pos) o
      rw [Node.coursesOfTargets, List.flatMap_cons, Node.callsOfAll, readArgs_append, hn,
        ih (fun m hm => h m (List.mem_cons_of_mem _ hm)) (by simpa using hlen)]
      rfl

theorem length_valuesFor (value : Expr) (pairwise : Bool) (count : Nat) :
    (valuesFor value pairwise count).length = count := by
  unfold valuesFor
  split
  · split
    · rename_i h
      simpa using (Bool.and_eq_true_iff.mp h).2
    · exact List.length_replicate
  · exact List.length_replicate

/-- Behind a bracket or star, where a comment takes the place of a target. -/
theorem sameArgs_behind {inner : Node} (h : inner.SameArgs path symbols) (ahead : Bool)
    (goal : Goal) (lead : Option Span) (o : Owner) :
    (match goal, lead with
      | .target _ _ _, some _ => Course.nothing
      | goal, _ => inner.course path symbols ahead goal).callArgs =
      readArgs path symbols (inner.calls ((goal.standing o).behind lead)) := by
  cases goal with
  | value => exact h ahead .value o
  | target given pairwise pos =>
    cases lead with
    | none => exact h ahead (.target given pairwise pos) o
    | some comment => exact (readArgs_of_noneRead (noneRead_calls inner rfl)).symm

theorem sameArgs_node (n : Node) : n.SameArgs path symbols := by
  induction n using Node.ind with
  | name s =>
    intro ahead goal o
    rw [Node.course, callArgs_settle, Node.calls, readArgs_nil]
  | constant s => exact fun ahead goal o => rfl
  | string s values formats ihv ihf =>
    intro ahead goal o
    simp [Node.course, Node.calls, callArgs_courses ihv o]
  | strings s parts ih =>
    intro ahead goal o
    simp [Node.course, Node.calls, callArgs_courses ih o]
  | member s object attr ih =>
    intro ahead goal o
    simp [Node.course, Node.calls, ih.value o]
  | subscript s value indices ihv ihi =>
    intro ahead goal o
    simp [Node.course, Node.calls, ihv.value o, callArgs_first ihi o]
  | call s func args ihf iha =>
    intro ahead goal o
    have hread : (goal.standing o).isRead = true := by cases goal <;> rfl
    have hitem : (Course.item (callItem path symbols s func args)).callArgs =
        readArgs path symbols [⟨s, func, args, (goal.standing o).owner, true⟩] := rfl
    simp [Node.course, Node.calls, ihf.value o, callArgs_coursesOfArguments iha o, hread, hitem]
  | paren s lead inner ih =>
    intro ahead goal o
    rw [Node.course.eq_def, Node.calls]
    exact sameArgs_behind ih ahead goal lead o
  | starred s lead inner ih =>
    intro ahead goal o
    rw [Node.course.eq_def, Node.calls]
    exact sameArgs_behind ih ahead goal lead o
  | hidden comment inner ih =>
    intro ahead goal o
    rw [Node.course, Node.calls, readArgs_of_noneRead (noneRead_calls inner rfl),
      Course.callArgs_nothing]
  | walrus s target value ih =>
    intro ahead goal o
    simp [Node.course, Node.calls, ih.value o]
  | aliased s value targetSpan target ihv iht =>
    intro ahead goal o
    simp [Node.course, Node.calls, ihv.value o, iht.value o]
  | lambda s params defaults body ihd ihb =>
    intro ahead goal o
    simp [Node.course, Node.calls, callArgs_courses ihd o, ihb.value (o.inside "<lambda>" s)]
  | comprehension s body clauses ihb ihc =>
    intro ahead goal o
    simp [Node.course, Node.calls, callArgs_clauses ihc o, ihb.value o]
  | test s parts ih =>
    intro ahead goal o
    simp [Node.course, Node.calls, callArgs_courses ih o]
  | group s form parts ih =>
    intro ahead goal o
    rw [Node.course.eq_def, Node.calls]
    dsimp only
    split
    · rename_i value pairwise pos
      rw [Course.callArgs_all]
      exact callArgs_targets ih (length_valuesFor value pairwise parts.length) ahead pos o
    · rename_i hsequence
      have hpart : (goal.standing o).part form = o.value := by
        cases form with
        | shortCircuit => exact Goal.standing_value o goal
        | conditional => exact Goal.standing_value o goal
        | other => exact Goal.standing_value o goal
        | sequence =>
          cases goal with
          | value => rfl
          | target value pairwise pos => exact (hsequence _ _ _ rfl rfl).elim
      rw [hpart, Course.callArgs_ofGroup]
      exact callArgs_courses ih o

end

/-! ## Statements -/

section

variable (path : String) (symbols : Symbols) (o : Owner)

theorem callArgs_value (n : Node) : (n.course path symbols false .value).callArgs =
    readArgs path symbols (n.calls o.value) := sameArgs_node n false .value o

theorem callArgs_bound (n : Node) (given : Expr) (pairwise : Bool) (pos : Nat) :
    (n.course path symbols false (.target given pairwise pos)).callArgs =
      readArgs path symbols (n.calls o.target) :=
  sameArgs_node n false (.target given pairwise pos) o

theorem callArgs_values (ns : List Node) :
    (Node.courses path symbols ns).flatMap Course.callArgs =
      readArgs path symbols (Node.callsOfAll o.value ns) :=
  callArgs_courses (fun n _ => sameArgs_node n) o

theorem callArgs_courseOfTargets (targets : List Node) (value : Expr) (pairwise : Bool)
    (pos : Nat) : (courseOfTargets path symbols value pairwise pos targets).callArgs =
      readArgs path symbols (Node.callsOfAll o.target targets.reverse) := by
  unfold courseOfTargets
  split
  · rename_i h
    rw [h]
    rfl
  · rename_i last others h
    rw [h, Course.callArgs_all, List.flatMap_cons, Node.callsOfAll, readArgs_append,
      callArgs_bound path symbols o]
    clear h
    congr 1
    induction others with
    | nil => rfl
    | cons n rest ih =>
      rw [List.map_cons, List.flatMap_cons, Node.callsOfAll, readArgs_append, ih,
        callArgs_bound path symbols o]

theorem callArgs_item (n : Node) : (courseOfItem path symbols n).callArgs =
    readArgs path symbols (Node.callsOfItem o n) := by
  cases n with
  | aliased s value targetSpan target =>
    simp [courseOfItem, Node.callsOfItem, callArgs_value path symbols o,
      callArgs_bound path symbols o]
  | _ => exact callArgs_value path symbols o _

theorem callArgs_items (items : List Node) :
    (items.map (courseOfItem path symbols)).flatMap Course.callArgs =
      readArgs path symbols (items.flatMap (Node.callsOfItem o)) := by
  induction items with
  | nil => rfl
  | cons item rest ih =>
    rw [List.map_cons, List.flatMap_cons, List.flatMap_cons, readArgs_append, ih,
      callArgs_item path symbols o]

theorem callArgs_head (head : Head) :
    (head.course path symbols).callArgs = readArgs path symbols (head.calls o) := by
  cases head with
  | plain => rfl
  | condition value => exact callArgs_value path symbols o value
  | guard value => exact (readArgs_of_noneRead (noneRead_calls value rfl)).symm
  | handler kind target others =>
    cases kind <;> cases target <;>
      simp [Head.course, Head.calls, Node.courseOfFirst, Node.callsOfAll,
        callArgs_value path symbols o, callArgs_bound path symbols o]

variable {path symbols}

/-- The calls in the course of a statement are those that are read in it. -/
def Stmt.SameArgs (path : String) (symbols : Symbols) (t : Stmt) : Prop :=
  ∀ o, (t.course path symbols).callArgs = readArgs path symbols (t.calls o)

theorem callArgs_stmts {ts : List Stmt} (h : ∀ t ∈ ts, t.SameArgs path symbols) :
    (Stmt.courseOfAll path symbols ts).callArgs = readArgs path symbols (Stmt.callsOfAll o ts) := by
  induction ts with
  | nil => rfl
  | cons t rest ih =>
    rw [Stmt.courseOfAll, Stmt.callsOfAll, Course.callArgs_pair, readArgs_append, h t (by simp) o,
      ih fun t ht => h t (List.mem_cons_of_mem _ ht)]

theorem callArgs_branches {branches : List (BranchOf Stmt)}
    (h : ∀ b ∈ branches, ∀ t ∈ b.body, t.SameArgs path symbols) :
    (Stmt.courseOfBranches path symbols branches).callArgs =
      readArgs path symbols (Stmt.callsOfBranches o branches) := by
  induction branches with
  | nil => rfl
  | cons b rest ih =>
    obtain ⟨head, body⟩ := b
    have hrest := ih fun b hb => h b (List.mem_cons_of_mem _ hb)
    simp [Stmt.courseOfBranches, Stmt.callsOfBranches, callArgs_head path symbols o,
      callArgs_stmts o (h ⟨head, body⟩ (by simp)), hrest]

theorem sameArgs_stmt (t : Stmt) : t.SameArgs path symbols := by
  induction t using Stmt.ind with
  | values parts =>
    intro o
    rw [Stmt.course, Stmt.calls, Course.callArgs_all, callArgs_values path symbols o]
  | assign stop targets value =>
    intro o
    cases value with
    | none => exact (readArgs_ignored o targets).symm
    | some value =>
      simp [Stmt.course, Stmt.calls, callArgs_value path symbols o,
        callArgs_courseOfTargets path symbols o]
  | augmented s target value =>
    intro o
    simp [Stmt.course, Stmt.calls, callArgs_value path symbols o]
  | imports clauses => exact fun o => rfl
  | choice condition body branches ihb ihr =>
    intro o
    simp [Stmt.course, Stmt.calls, callArgs_value path symbols o, callArgs_stmts o ihb,
      callArgs_branches o ihr]
  | whileLoop condition body branches ihb ihr =>
    intro o
    simp [Stmt.course, Stmt.calls, callArgs_value path symbols o, callArgs_stmts o ihb,
      callArgs_branches o ihr]
  | forLoop target source body branches ihb ihr =>
    intro o
    simp [Stmt.course, Stmt.calls, callArgs_value path symbols o, callArgs_bound path symbols o,
      callArgs_stmts o ihb, callArgs_branches o ihr]
  | attempt body branches final ihb ihr ihf =>
    intro o
    simp [Stmt.course, Stmt.calls, callArgs_stmts o ihb, callArgs_branches o ihr,
      callArgs_stmts o ihf]
  | withItems items body ihb =>
    intro o
    simp only [Stmt.course, Stmt.calls, Course.callArgs_pair, Course.callArgs_all, readArgs_append,
      callArgs_items path symbols o, callArgs_stmts o ihb]
  | cases subjects branches ihr =>
    intro o
    simp [Stmt.course, Stmt.calls, callArgs_first (fun n _ => sameArgs_node n) o,
      callArgs_branches o ihr]
  | functionDef s name params defaults body ihb =>
    intro o
    simp [Stmt.course, Stmt.calls, callArgs_values path symbols o,
      callArgs_stmts (o.inside name s) ihb]
  | classDef s name bases body ihb =>
    intro o
    simp [Stmt.course, Stmt.calls,
      callArgs_coursesOfArguments (fun arg _ => sameArgs_node arg.value) o,
      callArgs_stmts (o.inside name s) ihb]
  | decorated decorators definition ih =>
    intro o
    simp [Stmt.course, Stmt.calls, callArgs_values path symbols o, ih o]

end

/-! ## Programs -/

theorem args_of_call? {path : String} {m : Mark} :
    (m.call? path).map (·.args) = m.item.args? := by
  unfold Mark.call?
  split
  · rename_i s func callee args hitem
    rw [hitem, Option.map_some, Item.args?]
    unfold FileFacts.numberCall
    split <;> rfl
  · rename_i hitem
    unfold Item.args?
    split
    · rename_i s func callee args h
      exact (hitem _ _ _ _ h).elim
    · rfl

/-- The call sites of a program have the arguments of the calls that are read, in order. -/
theorem args_of_calls (path : String) (symbols : Symbols) (p : Program) :
    (lowerProgram path symbols p).calls.map (·.args) = readArgs path symbols p.calls := by
  obtain ⟨hcalls, _⟩ := lowerProgram_facts path symbols p
  have hleaves := Course.leaves_locate (p.course path symbols) .ofModule 0 1
  calc (lowerProgram path symbols p).calls.map (·.args)
    _ = (p.located path symbols).leaves.filterMap (fun m => m.item.args?) := by
        rw [hcalls, List.map_filterMap]
        simp only [args_of_call?]
    _ = (p.course path symbols).callArgs := by
        rw [Course.callArgs, ← hleaves, List.filterMap_map]
        rfl
    _ = readArgs path symbols p.calls := callArgs_stmts p.owner fun t _ => sameArgs_stmt t

end XPathTaint.Python
