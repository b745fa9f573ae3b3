import XPathTaint.Proofs.CallArguments
import XPathTaint.Proofs.CourseOrder

-- Where the arguments of calls stand in a text: no two arguments of calls that are read start at
-- the same byte, however calls are nested. What stands in brackets starts behind them, and so does
-- the value of `:=` behind its target, but no call in an argument has an argument that starts
-- where the argument itself does.

namespace XPathTaint.Python

/-! ## What a node stands for -/

/-- The node whose expression a node stands for: what the brackets hold, or the value of `:=`. -/
def Node.core : Node → Node
  | .paren _ _ inner => inner.core
  | .walrus _ _ value => value.core
  | n => n

/-- The expression of a node is where its core is. -/
theorem expr_origin (path : String) (symbols : Symbols) (n : Node) :
    (n.expr path symbols).origin = originIn path n.core.span := by
  induction n using Node.ind with
  | string s values formats ihv ihf =>
    rw [Node.expr]
    split <;> rfl
  | strings s parts ih =>
    rw [Node.expr]
    unfold joinStrings
    split <;> rfl
  | paren s lead inner ih => exact ih
  | walrus s target value ih => exact ih
  | _ => rfl

theorem core_mem_nodes (n : Node) : n.core ∈ n.nodes := by
  induction n using Node.ind with
  | paren s lead inner ih => exact List.mem_cons_of_mem _ ih
  | walrus s target value ih => exact List.mem_cons_of_mem _ ih
  | _ => exact self_mem_nodes _

theorem Node.StandsIn.core {n : Node} {lo hi : Nat} (h : n.StandsIn lo hi) :
    n.core.StandsIn lo hi := by
  induction n using Node.ind with
  | paren s lead inner ih => exact ih (h.part List.mem_cons_self)
  | walrus s target value ih => exact ih (h.part List.mem_cons_self)
  | _ => exact h

/-! ## Pieces that start apart -/

/-- Pieces of a text that start from one byte to another, no two of them at the same byte. -/
structure StartApart (lo hi : Nat) (ss : List Span) : Prop where
  within : ∀ s ∈ ss, lo ≤ s.pos ∧ s.pos < hi
  apart : ss.Pairwise fun s t => s.pos ≠ t.pos

section

variable {lo mid mid' hi lo' hi' : Nat} {s : Span} {ss ts : List Span}

theorem startApart_nil : StartApart lo hi [] := ⟨by simp, List.Pairwise.nil⟩

theorem StartApart.widen (h : StartApart lo hi ss) (hlo : lo' ≤ lo) (hhi : hi ≤ hi') :
    StartApart lo' hi' ss := by
  refine ⟨fun s hs => ?_, h.apart⟩
  obtain ⟨hge, hlt⟩ := h.within s hs
  omega

theorem StartApart.sublist (h : StartApart lo hi ss) (hts : ts.Sublist ss) : StartApart lo hi ts :=
  ⟨fun s hs => h.within s (hts.subset hs), h.apart.sublist hts⟩

theorem StartApart.perm (h : StartApart lo hi ss) (hperm : ss.Perm ts) : StartApart lo hi ts :=
  ⟨fun s hs => h.within s (hperm.mem_iff.mpr hs), (hperm.pairwise_iff Ne.symm).mp h.apart⟩

theorem StartApart.append (hs : StartApart lo mid ss) (ht : StartApart mid' hi ts)
    (hmid : mid ≤ mid') (hlo : lo ≤ mid') (hhi : mid ≤ hi) : StartApart lo hi (ss ++ ts) := by
  constructor
  · intro s h
    rcases List.mem_append.mp h with h | h
    · exact (hs.widen (Nat.le_refl _) hhi).within s h
    · exact (ht.widen hlo (Nat.le_refl _)).within s h
  · refine List.pairwise_append.mpr ⟨hs.apart, ht.apart, fun s h t h' => ?_⟩
    have hlt := (hs.within s h).2
    have hge := (ht.within t h').1
    omega

/-- What starts in one part, and what starts in another part behind it. -/
theorem StartApart.behind (hs : StartApart (lo + 1) mid ss) (ht : StartApart (mid + 1) hi ts)
    (hlo : lo ≤ mid) (hhi : mid ≤ hi) : StartApart (lo + 1) hi (ss ++ ts) :=
  hs.append ht (Nat.le_succ mid) (Nat.succ_le_succ hlo) hhi

/-- The order in which pieces are listed does not matter. -/
theorem StartApart.swap (h : StartApart lo hi (ss ++ ts)) : StartApart lo hi (ts ++ ss) :=
  h.perm List.perm_append_comm

/-- A piece and others behind its start. -/
theorem StartApart.cons (h : StartApart (s.pos + 1) hi ss) (hlo : lo ≤ s.pos) (hhi : s.pos < hi) :
    StartApart lo hi (s :: ss) := by
  constructor
  · refine List.forall_mem_cons.mpr ⟨⟨hlo, hhi⟩, (h.widen ?_ (Nat.le_refl _)).within⟩
    omega
  · refine List.pairwise_cons.mpr ⟨fun t ht => ?_, h.apart⟩
    have hge := (h.within t ht).1
    omega

end

/-! ## Arguments of calls -/

/-- Where the arguments of the calls that are read stand. -/
def argSpans (cs : List CallNode) : List Span :=
  (cs.filter (·.isRead)).flatMap fun c => c.args.map (·.value.core.span)

section

variable {cs cs' : List CallNode}

@[simp] theorem argSpans_nil : argSpans [] = [] := rfl

@[simp] theorem argSpans_append : argSpans (cs ++ cs') = argSpans cs ++ argSpans cs' := by
  simp [argSpans]

theorem argSpans_of_noneRead (h : NoneRead cs) : argSpans cs = [] := by
  unfold argSpans
  rw [List.filter_eq_nil_iff.mpr fun c hc => by simp [h c hc], List.flatMap_nil]

theorem argSpans_self (c : CallNode) :
    (argSpans [c]).Sublist (c.args.map (·.value.core.span)) := by
  unfold argSpans
  cases hread : c.isRead with
  | true => simp [hread]
  | false => simp [hread]

end

/-- Wherever a node stands, the arguments of the calls in it start apart, behind the start of its
core. -/
def Node.ArgsApart (n : Node) : Prop :=
  ∀ st lo hi, n.StandsIn lo hi → StartApart (n.core.span.pos + 1) hi (argSpans (n.calls st))

section

variable {ns : List Node} {lo mid hi : Nat} (st : Standing)

theorem Node.ArgsApart.inside {n : Node} (h : n.ArgsApart) (hn : n.StandsIn lo hi) :
    StartApart (lo + 1) hi (argSpans (n.calls st)) := by
  have hstart := hn.core.start
  exact (h st lo hi hn).widen (by omega) (Nat.le_refl _)

theorem argsApart_nodes (h : ∀ n ∈ ns, n.ArgsApart) (hns : Node.StandInOrder lo hi ns) :
    StartApart (lo + 1) hi (argSpans (Node.callsOfAll st ns)) := by
  induction ns generalizing lo with
  | nil => exact startApart_nil
  | cons n rest ih =>
    obtain ⟨mid, hn, hrest⟩ := hns
    have hothers := ih (fun m hm => h m (List.mem_cons_of_mem _ hm)) hrest
    rw [Node.callsOfAll, argSpans_append]
    exact ((h n (by simp)).inside st hn).behind hothers hn.le hrest.le

/-- Only the first of the nodes is read. -/
theorem argsApart_first (h : ∀ n ∈ ns, n.ArgsApart) (hns : Node.StandInOrder lo hi ns) :
    StartApart (lo + 1) hi (argSpans (Node.callsOfFirst st ns)) := by
  cases ns with
  | nil => exact startApart_nil
  | cons n rest =>
    rw [Node.callsOfFirst, argSpans_append, argSpans_of_noneRead (noneRead_ignored rfl),
      List.append_nil]
    exact (h n (by simp)).inside st (hns.mem List.mem_cons_self)

/-- The arguments of a call and those of the calls in them. -/
theorem argsApart_arguments {args : List (ArgumentOf Node)}
    (h : ∀ arg ∈ args, arg.value.ArgsApart)
    (hargs : Node.StandInOrder lo hi (args.map (·.value))) :
    StartApart lo hi
      (argSpans (Node.callsOfArguments st args) ++ args.map (·.value.core.span)) := by
  induction args generalizing lo with
  | nil => exact startApart_nil
  | cons arg rest ih =>
    obtain ⟨keyword, splat, value⟩ := arg
    obtain ⟨mid, hvalue, hrest⟩ := hargs
    have hinner := h ⟨keyword, splat, value⟩ (by simp) st lo mid hvalue
    have hcore := hvalue.core
    have hself := hinner.cons hcore.start hcore.pos_lt
    have hothers := ih (fun arg harg => h arg (List.mem_cons_of_mem _ harg)) hrest
    have hall := hself.append hothers (Nat.le_refl mid) hvalue.le hrest.le
    refine hall.perm ?_
    rw [Node.callsOfArguments, argSpans_append, List.map_cons, ← List.append_assoc,
      List.cons_append]
    exact List.perm_middle.symm

/-- The clauses of a comprehension; a source is evaluated before its target. -/
theorem argsApart_clauses {clauses : List (ClauseOf Node)}
    (h : ∀ c ∈ clauses, c.Holds Node.ArgsApart)
    (hclauses : Node.StandInOrder lo hi (clauses.flatMap (·.parts))) :
    StartApart (lo + 1) hi (argSpans (Node.callsOfClauses st clauses)) := by
  induction clauses generalizing lo with
  | nil => exact startApart_nil
  | cons clause rest ih =>
    have hclause := h clause (by simp)
    rw [List.flatMap_cons] at hclauses
    obtain ⟨mid, hparts, hrest⟩ := Node.standInOrder_append.mp hclauses
    have hothers := ih (fun c hc => h c (List.mem_cons_of_mem _ hc)) hrest
    cases clause with
    | loop target sources =>
      obtain ⟨start, htarget, hsources⟩ := hparts
      have htargets := hclause.1.inside { st with isTarget := true } htarget
      have hloop := htargets.behind (argsApart_first st hclause.2 hsources) htarget.le hsources.le
      rw [Node.callsOfClauses, argSpans_append, argSpans_append, ← List.append_assoc]
      exact hloop.swap.behind hothers (Nat.le_trans htarget.le hsources.le) hrest.le
    | guard condition =>
      have hcondition := hparts.mem List.mem_cons_self
      rw [Node.callsOfClauses, argSpans_append]
      exact ((hclause : condition.ArgsApart).inside st hcondition).behind hothers hcondition.le
        hrest.le

end

theorem argsApart_node (n : Node) : n.ArgsApart := by
  induction n using Node.ind with
  | name s => exact fun st lo hi h => startApart_nil
  | constant s => exact fun st lo hi h => startApart_nil
  | string s values formats ihv ihf =>
    intro st lo hi h
    have hformats : NoneRead (Node.callsOfAll st.ignored formats) := noneRead_ignored rfl
    rw [Node.calls, argSpans_append, argSpans_of_noneRead hformats, List.append_nil]
    exact (argsApart_nodes st.value ihv h.inText).widen (Nat.le_refl _) h.stop
  | strings s parts ih =>
    intro st lo hi h
    exact (argsApart_nodes st.value ih h.inText).widen (Nat.le_refl _) h.stop
  | member s object attr ih =>
    intro st lo hi h
    have hobject := h.self.part List.mem_cons_self
    exact (ih.inside st.value hobject).widen (Nat.le_refl _) h.stop
  | subscript s value indices ihv ihi =>
    intro st lo hi h
    obtain ⟨mid, hvalue, hindices⟩ := h.inText
    have hindex := argsApart_first st.value ihi hindices
    have hall := (ihv.inside st.value hvalue).behind hindex hvalue.le hindices.le
    rw [Node.calls, argSpans_append]
    exact hall.widen (Nat.le_refl _) h.stop
  | call s func args ihf iha =>
    intro st lo hi h
    obtain ⟨mid, hfunc, hargs⟩ := h.inText
    have hfilled : s.pos < mid := Nat.lt_of_le_of_lt hfunc.start hfunc.pos_lt
    have hall := (ihf.inside st.value hfunc).append (argsApart_arguments st.value iha hargs)
      (Nat.le_refl mid) hfilled hargs.le
    rw [Node.calls, argSpans_append, argSpans_append]
    refine (hall.widen (Nat.le_refl _) h.stop).sublist ?_
    exact ((argSpans_self _).append_left _).append_left _
  | paren s lead inner ih =>
    intro st lo hi h
    exact ih (st.behind lead) lo hi (h.part List.mem_cons_self)
  | starred s lead inner ih =>
    intro st lo hi h
    have hinner := h.self.part List.mem_cons_self
    exact (ih.inside (st.behind lead) hinner).widen (Nat.le_refl _) h.stop
  | hidden comment inner ih =>
    intro st lo hi h
    rw [Node.calls, argSpans_of_noneRead (noneRead_calls inner rfl)]
    exact startApart_nil
  | walrus s target value ih =>
    intro st lo hi h
    exact ih st.value lo hi (h.part List.mem_cons_self)
  | aliased s value targetSpan target ihv iht =>
    intro st lo hi h
    obtain ⟨mid, hvalue, htarget⟩ := h.inText
    have htarget := htarget.mem List.mem_cons_self
    have hall := (ihv.inside st.value hvalue).behind (iht.inside st.value htarget) hvalue.le
      htarget.le
    rw [Node.calls, argSpans_append]
    exact hall.widen (Nat.le_refl _) h.stop
  | lambda s params defaults body ihd ihb =>
    intro st lo hi h
    obtain ⟨mid, hdefaults, hbody⟩ := Node.standInOrder_append.mp h.inText
    have hbody := hbody.mem List.mem_cons_self
    have hall := (argsApart_nodes st.value ihd hdefaults).behind
      (ihb.inside (st.inside "<lambda>" s) hbody) hdefaults.le hbody.le
    rw [Node.calls, argSpans_append]
    exact hall.widen (Nat.le_refl _) h.stop
  | comprehension s body clauses ihb ihc =>
    intro st lo hi h
    obtain ⟨mid, hbody, hclauses⟩ := h.inText
    have hall := (ihb.inside st.value hbody).behind (argsApart_clauses st.value ihc hclauses)
      hbody.le hclauses.le
    rw [Node.calls, argSpans_append]
    exact hall.swap.widen (Nat.le_refl _) h.stop
  | test s parts ih =>
    intro st lo hi h
    exact (argsApart_nodes st.value ih h.inText).widen (Nat.le_refl _) h.stop
  | group s form parts ih =>
    intro st lo hi h
    exact (argsApart_nodes (st.part form) ih h.inText).widen (Nat.le_refl _) h.stop

/-! ## Statements -/

section

variable {lo hi : Nat} {t : Stmt} {ts : List Stmt} {branches : List (BranchOf Stmt)}

theorem Stmt.StandInOrder.le (h : Stmt.StandInOrder lo hi ts) : lo ≤ hi :=
  (spans_stmts (fun t _ => spans_stmt t) h : (Stmt.courseOfAll "" [] ts).Spans lo hi).le

theorem Stmt.BranchesStandInOrder.le (h : Stmt.BranchesStandInOrder lo hi branches) : lo ≤ hi :=
  (spans_branches (fun _ _ t _ => spans_stmt t) h :
    (Stmt.courseOfBranches "" [] branches).Spans lo hi).le

theorem Head.StandsIn.le {head : Head} (h : head.StandsIn lo hi) : lo ≤ hi :=
  (spans_head "" [] h).le

theorem Stmt.StandsIn.le (h : t.StandsIn lo hi) : lo ≤ hi :=
  (spans_stmt t lo hi h : (t.course "" []).Spans lo hi).le

end

section

variable {lo mid hi : Nat} {n : Node} {ns : List Node} (o : Owner) (st : Standing)

theorem argsApart_value (hn : n.StandsIn lo hi) :
    StartApart (lo + 1) hi (argSpans (n.calls st)) := (argsApart_node n).inside st hn

theorem argsApart_values (hns : Node.StandInOrder lo hi ns) :
    StartApart (lo + 1) hi (argSpans (Node.callsOfAll st ns)) :=
  argsApart_nodes st (fun n _ => argsApart_node n) hns

theorem argsApart_reverse (hns : Node.StandInOrder lo hi ns) :
    StartApart (lo + 1) hi (argSpans (Node.callsOfAll st ns.reverse)) := by
  have hflat (ns : List Node) :
      argSpans (Node.callsOfAll st ns) = ns.flatMap fun n => argSpans (n.calls st) := by
    induction ns with
    | nil => rfl
    | cons n rest ih => rw [Node.callsOfAll, argSpans_append, ih, List.flatMap_cons]
  have h := argsApart_values st hns
  rw [hflat] at h ⊢
  exact h.perm ((List.reverse_perm ns).symm.flatMap_right _)

theorem callsOfArguments_eq (args : List (ArgumentOf Node)) :
    Node.callsOfArguments st args = Node.callsOfAll st (args.map (·.value)) := by
  induction args with
  | nil => rfl
  | cons arg rest ih => rw [Node.callsOfArguments, List.map_cons, Node.callsOfAll, ih]

theorem argsApart_item (hn : n.StandsIn lo hi) :
    StartApart (lo + 1) hi (argSpans (Node.callsOfItem o n)) := by
  cases n with
  | aliased s value targetSpan target =>
    obtain ⟨mid, hvalue, htarget⟩ := hn.inText
    have htarget := htarget.mem List.mem_cons_self
    have hall := (argsApart_value o.value hvalue).behind (argsApart_value o.target htarget)
      hvalue.le htarget.le
    have hstart := hn.start
    rw [Node.callsOfItem, argSpans_append]
    exact hall.widen (Nat.succ_le_succ hn.start) hn.stop
  | _ => exact argsApart_value o.value hn

theorem argsApart_items {items : List Node} (h : Node.StandInOrder lo hi items) :
    StartApart (lo + 1) hi (argSpans (items.flatMap (Node.callsOfItem o))) := by
  induction items generalizing lo with
  | nil => exact startApart_nil
  | cons item rest ih =>
    obtain ⟨mid, hitem, hrest⟩ := h
    rw [List.flatMap_cons, argSpans_append]
    exact (argsApart_item o hitem).behind (ih hrest) hitem.le hrest.le

theorem argsApart_head {head : Head} (h : head.StandsIn lo hi) :
    StartApart (lo + 1) hi (argSpans (head.calls o)) := by
  cases head with
  | plain => exact startApart_nil
  | condition value => exact argsApart_value o.value h
  | guard value => exact argsApart_value o.ignored h
  | handler kind target others =>
    obtain ⟨mid, hkind, hrest⟩ := Node.standInOrder_append.mp h
    obtain ⟨stop, htarget, hothers⟩ := Node.standInOrder_append.mp hrest
    have hrest := (argsApart_values o.target htarget).behind (argsApart_values o.ignored hothers)
      htarget.le hothers.le
    rw [Head.calls, argSpans_append, argSpans_append]
    exact (argsApart_values o.value hkind).behind hrest hkind.le
      (Nat.le_trans htarget.le hothers.le)

/-- Wherever a statement stands, the arguments of the calls in it start apart. -/
def Stmt.ArgsApart (t : Stmt) : Prop :=
  ∀ o lo hi, t.StandsIn lo hi → StartApart (lo + 1) hi (argSpans (t.calls o))

theorem argsApart_stmts {ts : List Stmt} (h : ∀ t ∈ ts, t.ArgsApart)
    (hts : Stmt.StandInOrder lo hi ts) :
    StartApart (lo + 1) hi (argSpans (Stmt.callsOfAll o ts)) := by
  induction ts generalizing lo with
  | nil => exact startApart_nil
  | cons t rest ih =>
    obtain ⟨mid, ht, hrest⟩ := hts
    rw [Stmt.callsOfAll, argSpans_append]
    exact (h t (by simp) o lo mid ht).behind
      (ih (fun t ht => h t (List.mem_cons_of_mem _ ht)) hrest) ht.le hrest.le

theorem argsApart_branches {branches : List (BranchOf Stmt)}
    (h : ∀ b ∈ branches, ∀ t ∈ b.body, t.ArgsApart)
    (hbranches : Stmt.BranchesStandInOrder lo hi branches) :
    StartApart (lo + 1) hi (argSpans (Stmt.callsOfBranches o branches)) := by
  induction branches generalizing lo with
  | nil => exact startApart_nil
  | cons b rest ih =>
    obtain ⟨head, body⟩ := b
    obtain ⟨start, mid, hhead, hbody, hrest⟩ := hbranches
    have hothers := ih (fun b hb => h b (List.mem_cons_of_mem _ hb)) hrest
    have hbody' := argsApart_stmts o (h ⟨head, body⟩ (by simp)) hbody
    rw [Stmt.callsOfBranches, argSpans_append, argSpans_append]
    exact (argsApart_head o hhead).behind (hbody'.behind hothers hbody.le hrest.le) hhead.le
      (Nat.le_trans hbody.le hrest.le)

/-- A body and the branches behind it. -/
theorem argsApart_block {body : List Stmt} {branches : List (BranchOf Stmt)}
    (hb : ∀ t ∈ body, t.ArgsApart) (hr : ∀ b ∈ branches, ∀ t ∈ b.body, t.ArgsApart)
    (hbody : Stmt.StandInOrder lo mid body)
    (hbranches : Stmt.BranchesStandInOrder mid hi branches) : StartApart (lo + 1) hi
      (argSpans (Stmt.callsOfAll o body ++ Stmt.callsOfBranches o branches)) := by
  rw [argSpans_append]
  exact (argsApart_stmts o hb hbody).behind (argsApart_branches o hr hbranches) hbody.le
    hbranches.le

end

theorem argsApart_stmt (t : Stmt) : t.ArgsApart := by
  induction t using Stmt.ind with
  | values parts => exact fun o lo hi h => argsApart_values o.value h
  | assign stop targets value =>
    intro o lo hi h
    cases value with
    | none =>
      rw [Stmt.calls, argSpans_of_noneRead (noneRead_ignored rfl)]
      exact startApart_nil
    | some value =>
      obtain ⟨mid, htargets, hvalue, hstop⟩ := h
      have hall := (argsApart_reverse o.target htargets).behind (argsApart_value o.value hvalue)
        htargets.le hvalue.le
      rw [Stmt.calls, argSpans_append]
      exact hall.swap.widen (Nat.le_refl _) hstop
  | augmented s target value =>
    intro o lo hi h
    obtain ⟨hstart, ⟨mid, htarget, hvalue⟩, hstop⟩ := h
    have hvalue := hvalue.mem List.mem_cons_self
    have hall := (argsApart_value o.value htarget).behind (argsApart_value o.value hvalue)
      htarget.le hvalue.le
    rw [Stmt.calls, argSpans_append]
    exact hall.widen (Nat.succ_le_succ hstart) hstop
  | imports clauses => exact fun o lo hi h => startApart_nil
  | choice condition body branches ihb ihr =>
    intro o lo hi h
    obtain ⟨start, mid, hcondition, hbody, hbranches⟩ := h
    have hblock := argsApart_block o ihb ihr hbody hbranches
    rw [Stmt.calls, argSpans_append]
    exact (argsApart_value o.value hcondition).behind hblock hcondition.le
      (Nat.le_trans hbody.le hbranches.le)
  | whileLoop condition body branches ihb ihr =>
    intro o lo hi h
    obtain ⟨start, mid, hcondition, hbody, hbranches⟩ := h
    have hblock := argsApart_block o ihb ihr hbody hbranches
    rw [Stmt.calls, argSpans_append]
    exact (argsApart_value o.value hcondition).behind hblock hcondition.le
      (Nat.le_trans hbody.le hbranches.le)
  | forLoop target source body branches ihb ihr =>
    intro o lo hi h
    obtain ⟨start, mid, ⟨first, htarget, hsource⟩, hbody, hbranches⟩ := h
    have hsource := hsource.mem List.mem_cons_self
    have hblock := argsApart_block o ihb ihr hbody hbranches
    -- the source is evaluated before the target but stands behind it
    have hloop := (argsApart_value o.target htarget).behind (argsApart_value o.value hsource)
      htarget.le hsource.le
    rw [Stmt.calls, argSpans_append, argSpans_append, ← List.append_assoc]
    exact hloop.swap.behind hblock (Nat.le_trans htarget.le hsource.le)
      (Nat.le_trans hbody.le hbranches.le)
  | attempt body branches final ihb ihr ihf =>
    intro o lo hi h
    obtain ⟨start, mid, hbody, hbranches, hfinal⟩ := h
    have hrest := (argsApart_branches o ihr hbranches).behind (argsApart_stmts o ihf hfinal)
      hbranches.le hfinal.le
    rw [Stmt.calls, argSpans_append, argSpans_append]
    exact (argsApart_stmts o ihb hbody).behind hrest hbody.le
      (Nat.le_trans hbranches.le hfinal.le)
  | withItems items body ihb =>
    intro o lo hi h
    obtain ⟨mid, hitems, hbody⟩ := h
    rw [Stmt.calls, argSpans_append]
    exact (argsApart_items o hitems).behind (argsApart_stmts o ihb hbody) hitems.le hbody.le
  | cases subjects branches ihr =>
    intro o lo hi h
    obtain ⟨mid, hsubjects, hbranches⟩ := h
    have hfirst := argsApart_first o.value (fun n _ => argsApart_node n) hsubjects
    rw [Stmt.calls, argSpans_append]
    exact hfirst.behind (argsApart_branches o ihr hbranches) hsubjects.le hbranches.le
  | functionDef s name params defaults body ihb =>
    intro o lo hi h
    obtain ⟨mid, hdefaults, hbody⟩ := h
    rw [Stmt.calls, argSpans_append]
    exact (argsApart_values o.value hdefaults).behind
      (argsApart_stmts (o.inside name s) ihb hbody) hdefaults.le hbody.le
  | classDef s name bases body ihb =>
    intro o lo hi h
    obtain ⟨mid, hbases, hbody⟩ := h
    rw [Stmt.calls, argSpans_append, callsOfArguments_eq]
    exact (argsApart_values o.value hbases).behind (argsApart_stmts (o.inside name s) ihb hbody)
      hbases.le hbody.le
  | decorated decorators definition ih =>
    intro o lo hi h
    obtain ⟨mid, hdecorators, hdefinition⟩ := h
    rw [Stmt.calls, argSpans_append]
    exact (argsApart_values o.value hdecorators).behind (ih o mid hi hdefinition) hdecorators.le
      hdefinition.le

/-! ## Programs -/

/-- No two arguments of calls that are read in a program start at the same byte. -/
theorem argsApart_program {p : Program} (h : p.IsLaidOut) :
    (argSpans p.calls).Pairwise fun s t => s.pos ≠ t.pos := by
  obtain ⟨stop, hbody⟩ := h
  exact (argsApart_stmts p.owner (fun t _ => argsApart_stmt t) hbody).apart

theorem origins_of_arguments (path : String) (symbols : Symbols) (args : List (ArgumentOf Node)) :
    (Node.arguments path symbols args).map (·.value.origin) =
      args.map fun arg => originIn path arg.value.core.span := by
  induction args with
  | nil => rfl
  | cons arg rest ih =>
    rw [Node.arguments, List.map_cons, List.map_cons, ih]
    exact congrArg (· :: _) (expr_origin path symbols arg.value)

/-- The arguments of call sites are where those of the calls are that are read. -/
theorem origins_of_calls (path : String) (symbols : Symbols) (p : Program) :
    ((lowerProgram path symbols p).calls.flatMap (·.args)).map (·.value.origin) =
      (argSpans p.calls).map (originIn path) := by
  calc ((lowerProgram path symbols p).calls.flatMap (·.args)).map (·.value.origin)
    _ = ((readArgs path symbols p.calls).flatten).map (·.value.origin) := by
        rw [← args_of_calls, List.flatMap_def]
    _ = (argSpans p.calls).map (originIn path) := by
        simp [readArgs, argSpans, List.flatMap_def, List.map_flatten, Function.comp_def,
          origins_of_arguments]

end XPathTaint.Python
