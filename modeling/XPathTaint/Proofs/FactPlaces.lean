import XPathTaint.Proofs.DottedPaths
import XPathTaint.Proofs.FactNodes
import XPathTaint.Proofs.NestedStatements

-- Where the facts of a program stand in its text. Calls that start at one byte end at different
-- ones, since each is the callee of another one. No name or path is bound twice at one byte: a
-- target is bound once, and what else is bound at its first byte is bound by `:=` and has no dots.

namespace XPathTaint.Python

/-! ## Signs -/

/-- The signs of a node take up room: a call has its arguments behind the callee, and `:=` stands
between a word and its value. -/
def Node.HasSigns : Node → Prop
  | .call s func _ => func.span.stop < s.stop
  | .walrus s target value =>
    s.pos ≤ target.pos ∧ target.pos < value.span.pos ∧ Text.IsSegment target.text
  | _ => True

/-- All nodes in a node have their signs. -/
def Node.IsSigned (n : Node) : Prop := ∀ m ∈ n.nodes, m.HasSigns

theorem Node.IsSigned.part {n m : Node} (h : n.IsSigned) (hm : m ∈ n.parts) : m.IsSigned :=
  fun k hk => h k (mem_nodes_of_part hm hk)

/-- The expressions right in a head. -/
def Head.nodes : Head → List Node
  | .plain => []
  | .condition value => [value]
  | .guard value => [value]
  | .handler kind target others => kind.toList ++ (target.toList ++ others)

/-- The expressions right in a statement. -/
def Stmt.ownNodes : Stmt → List Node
  | .values parts => parts
  | .assign _ targets value => targets ++ value.toList
  | .augmented _ target value => [target, value]
  | .imports _ => []
  | .choice condition _ branches => condition :: branches.flatMap (·.head.nodes)
  | .whileLoop condition _ branches => condition :: branches.flatMap (·.head.nodes)
  | .forLoop target source _ branches => target :: source :: branches.flatMap (·.head.nodes)
  | .attempt _ branches _ => branches.flatMap (·.head.nodes)
  | .withItems items _ => items
  | .cases subjects branches => subjects ++ branches.flatMap (·.head.nodes)
  | .functionDef _ _ _ defaults _ => defaults
  | .classDef _ _ bases _ => bases.map (·.value)
  | .decorated decorators _ => decorators

/-- All expressions in a statement have their signs. -/
def Stmt.IsSigned (t : Stmt) : Prop := ∀ u ∈ t.nested, ∀ n ∈ u.ownNodes, n.IsSigned

/-- All expressions in a program have their signs. -/
def Program.IsSigned (p : Program) : Prop := ∀ u ∈ p.statements, ∀ n ∈ u.ownNodes, n.IsSigned

theorem Stmt.IsSigned.own {t : Stmt} (h : t.IsSigned) : ∀ n ∈ t.ownNodes, n.IsSigned := by
  refine h t ?_
  rw [nested_eq]
  exact List.mem_cons_self

theorem Stmt.IsSigned.part {t part : Stmt} (h : t.IsSigned) (hp : part ∈ t.parts) :
    part.IsSigned := by
  intro u hu
  refine h u ?_
  rw [nested_eq]
  exact List.mem_cons_of_mem _ (List.mem_flatMap.mpr ⟨part, hp, hu⟩)

/-! ## Facts that are apart -/

namespace FactNode

/-- A fact starts in a range of bytes, and a call also ends there. -/
def StandsIn (lo hi : Nat) : FactNode → Prop
  | call s => lo ≤ s.pos ∧ s.pos < hi ∧ s.stop ≤ hi
  | bind _ s => lo ≤ s.pos ∧ s.pos < hi
  | definition _ => True

/-- Two calls do not fill the same bytes, and one name is not bound twice at one byte. -/
def Apart : FactNode → FactNode → Prop
  | call s, call t => s.pos ≠ t.pos ∨ s.stop ≠ t.stop
  | bind name s, bind name' t => name ≠ name' ∨ s.pos ≠ t.pos
  | _, _ => True

variable {f g : FactNode} {lo mid mid' hi lo' hi' : Nat}

theorem StandsIn.widen (h : f.StandsIn lo hi) (hlo : lo' ≤ lo) (hhi : hi ≤ hi') :
    f.StandsIn lo' hi' := by
  cases f with
  | call s =>
    obtain ⟨hstart, hlt, hstop⟩ := h
    exact ⟨Nat.le_trans hlo hstart, Nat.lt_of_lt_of_le hlt hhi, Nat.le_trans hstop hhi⟩
  | bind name s => exact ⟨Nat.le_trans hlo h.1, Nat.lt_of_lt_of_le h.2 hhi⟩
  | definition d => trivial

theorem Apart.symm (h : f.Apart g) : g.Apart f := by
  cases f with
  | call s =>
    cases g with
    | call t => exact h.imp Ne.symm Ne.symm
    | _ => trivial
  | bind name s =>
    cases g with
    | bind name' t => exact h.imp Ne.symm Ne.symm
    | _ => trivial
  | definition d => cases g <;> trivial

theorem apart_of_standsIn (hf : f.StandsIn lo mid) (hg : g.StandsIn mid' hi) (hmid : mid ≤ mid') :
    f.Apart g := by
  cases f with
  | call s =>
    cases g with
    | call t => exact Or.inl (Nat.ne_of_lt (Nat.lt_of_lt_of_le hf.2.1 (Nat.le_trans hmid hg.1)))
    | _ => trivial
  | bind name s =>
    cases g with
    | bind name' t => exact Or.inr (Nat.ne_of_lt (Nat.lt_of_lt_of_le hf.2 (Nat.le_trans hmid hg.1)))
    | _ => trivial
  | definition d => cases g <;> trivial

end FactNode

/-- Facts in a range of bytes, each apart from the others. -/
structure StandApart (lo hi : Nat) (fs : List FactNode) : Prop where
  within : ∀ f ∈ fs, f.StandsIn lo hi
  apart : fs.Pairwise FactNode.Apart

/-- Facts of what is evaluated in a range of bytes: what is bound at its first byte is no path. -/
structure EvaluatedApart (lo hi : Nat) (fs : List FactNode) : Prop extends StandApart lo hi fs where
  dotless : ∀ name s, .bind name s ∈ fs → s.pos ≤ lo → Text.IsSegment name

namespace StandApart

variable {lo mid mid' hi lo' hi' : Nat} {fs gs : List FactNode}

theorem nil : StandApart lo hi [] := ⟨by simp, List.Pairwise.nil⟩

theorem widen (h : StandApart lo hi fs) (hlo : lo' ≤ lo) (hhi : hi ≤ hi') :
    StandApart lo' hi' fs := ⟨fun f hf => (h.within f hf).widen hlo hhi, h.apart⟩

theorem sublist (h : StandApart lo hi fs) (hgs : gs.Sublist fs) : StandApart lo hi gs :=
  ⟨fun f hf => h.within f (hgs.subset hf), h.apart.sublist hgs⟩

theorem perm (h : StandApart lo hi fs) (hperm : fs.Perm gs) : StandApart lo hi gs :=
  ⟨fun f hf => h.within f (hperm.mem_iff.mpr hf),
    (hperm.pairwise_iff fun hfg => hfg.symm).mp h.apart⟩

/-- The order in which facts are recorded does not matter. -/
theorem swap (h : StandApart lo hi (fs ++ gs)) : StandApart lo hi (gs ++ fs) :=
  h.perm List.perm_append_comm

/-- What stands in one part, and what stands in another part behind it. -/
theorem append (hf : StandApart lo mid fs) (hg : StandApart mid hi gs) (hlo : lo ≤ mid)
    (hhi : mid ≤ hi) : StandApart lo hi (fs ++ gs) := by
  constructor
  · intro f h
    rcases List.mem_append.mp h with h | h
    · exact (hf.within f h).widen (Nat.le_refl _) hhi
    · exact (hg.within f h).widen hlo (Nat.le_refl _)
  · refine List.pairwise_append.mpr ⟨hf.apart, hg.apart, fun f h g h' => ?_⟩
    exact FactNode.apart_of_standsIn (hf.within f h) (hg.within g h') (Nat.le_refl _)

/-- A definition is apart from all. -/
theorem define (h : StandApart lo hi (fs ++ gs)) (d : DefinitionNode) :
    StandApart lo hi (fs ++ .definition d :: gs) := by
  have hcons : StandApart lo hi (.definition d :: (fs ++ gs)) := by
    constructor
    · exact List.forall_mem_cons.mpr ⟨trivial, h.within⟩
    · exact List.pairwise_cons.mpr ⟨fun _ _ => trivial, h.apart⟩
  exact hcons.perm List.perm_middle.symm

/-- One binding more, of a name that no other one has at its byte. -/
theorem bound {name : String} {s : Span} (h : StandApart lo hi fs)
    (hs : lo ≤ s.pos ∧ s.pos < hi)
    (hne : ∀ name' t, .bind name' t ∈ fs → name ≠ name' ∨ s.pos ≠ t.pos) :
    StandApart lo hi (.bind name s :: fs) := by
  constructor
  · exact List.forall_mem_cons.mpr ⟨hs, h.within⟩
  · refine List.pairwise_cons.mpr ⟨fun f hf => ?_, h.apart⟩
    cases f with
    | bind name' t => exact hne name' t hf
    | _ => trivial

/-- A binding and what stands behind its first byte. -/
theorem boundBefore {name : String} {s : Span} (h : StandApart (s.pos + 1) hi fs)
    (hlo : lo ≤ s.pos) (hhi : s.pos < hi) : StandApart lo hi (.bind name s :: fs) := by
  refine (h.widen (Nat.le_succ_of_le hlo) (Nat.le_refl _)).bound ⟨hlo, hhi⟩ fun name' t ht => ?_
  exact Or.inr (Nat.ne_of_lt (h.within _ ht).1)

/-- The facts in the callee of a call, those in its arguments, and the call itself. -/
theorem call {s : Span} (hf : StandApart s.pos mid fs) (hg : StandApart mid s.stop gs)
    (hpos : s.pos < mid) (hstop : mid < s.stop) :
    StandApart s.pos s.stop (fs ++ (gs ++ [.call s])) := by
  have hall := hf.append hg (Nat.le_of_lt hpos) (Nat.le_of_lt hstop)
  rw [← List.append_assoc]
  refine ⟨?_, List.pairwise_append.mpr ⟨hall.apart, List.pairwise_singleton _ _, ?_⟩⟩
  · intro f h
    rcases List.mem_append.mp h with h | h
    · exact hall.within f h
    · rw [List.mem_singleton.mp h]
      exact ⟨Nat.le_refl _, Nat.lt_trans hpos hstop, Nat.le_refl _⟩
  · intro f h g h'
    rw [List.mem_singleton.mp h']
    cases f with
    | call t =>
      -- a call in the callee ends before the arguments, one in the arguments starts behind it
      rcases List.mem_append.mp h with h | h
      · exact Or.inr (Nat.ne_of_lt (Nat.lt_of_le_of_lt (hf.within _ h).2.2 hstop))
      · exact Or.inl (Nat.ne_of_gt (Nat.lt_of_lt_of_le hpos (hg.within _ h).1))
    | _ => trivial

end StandApart

namespace EvaluatedApart

variable {lo mid hi lo' hi' : Nat} {fs gs : List FactNode}

theorem nil : EvaluatedApart lo hi [] := ⟨StandApart.nil, by simp⟩

theorem widen (h : EvaluatedApart lo hi fs) (hlo : lo' ≤ lo) (hhi : hi ≤ hi') :
    EvaluatedApart lo' hi' fs :=
  ⟨h.toStandApart.widen hlo hhi, fun name s hs hle => h.dotless name s hs (Nat.le_trans hle hlo)⟩

theorem perm (h : EvaluatedApart lo hi fs) (hperm : fs.Perm gs) : EvaluatedApart lo hi gs :=
  ⟨h.toStandApart.perm hperm, fun name s hs => h.dotless name s (hperm.mem_iff.mpr hs)⟩

/-- What is evaluated in one part, and what is evaluated in another part behind it. -/
theorem append (hf : EvaluatedApart lo mid fs) (hg : EvaluatedApart mid hi gs) (hlo : lo ≤ mid)
    (hhi : mid ≤ hi) : EvaluatedApart lo hi (fs ++ gs) := by
  refine ⟨hf.toStandApart.append hg.toStandApart hlo hhi, fun name s hs hle => ?_⟩
  rcases List.mem_append.mp hs with hs | hs
  · exact hf.dotless name s hs hle
  · exact hg.dotless name s hs (Nat.le_trans hle hlo)

/-- What is evaluated in one part, and what may also be bound in another part behind it. -/
theorem before (hf : EvaluatedApart lo mid fs) (hg : StandApart mid hi gs) (hlo : lo < mid)
    (hhi : mid ≤ hi) : EvaluatedApart lo hi (fs ++ gs) := by
  refine ⟨hf.toStandApart.append hg (Nat.le_of_lt hlo) hhi, fun name s hs hle => ?_⟩
  rcases List.mem_append.mp hs with hs | hs
  · exact hf.dotless name s hs hle
  · have hge : mid ≤ s.pos := (hg.within _ hs).1
    omega

theorem define (h : EvaluatedApart lo hi (fs ++ gs)) (d : DefinitionNode) :
    EvaluatedApart lo hi (fs ++ .definition d :: gs) := by
  refine ⟨h.toStandApart.define d, fun name s hs => h.dotless name s ?_⟩
  simpa using hs

/-- A word that is bound, and what is evaluated behind its first byte. -/
theorem boundBefore {name : String} {s : Span} (h : EvaluatedApart (s.pos + 1) hi fs)
    (hlo : lo ≤ s.pos) (hhi : s.pos < hi) (hname : Text.IsSegment name) :
    EvaluatedApart lo hi (.bind name s :: fs) := by
  refine ⟨h.toStandApart.boundBefore hlo hhi, fun name' t ht hle => ?_⟩
  rcases List.mem_cons.mp ht with heq | ht
  · obtain ⟨rfl, rfl⟩ := FactNode.bind.inj heq
    exact hname
  · exact h.dotless name' t ht (Nat.le_trans hle (Nat.le_succ_of_le hlo))

theorem call {s : Span} (hf : EvaluatedApart s.pos mid fs) (hg : EvaluatedApart mid s.stop gs)
    (hpos : s.pos < mid) (hstop : mid < s.stop) :
    EvaluatedApart s.pos s.stop (fs ++ (gs ++ [.call s])) := by
  refine ⟨hf.toStandApart.call hg.toStandApart hpos hstop, fun name t ht => ?_⟩
  have hall := hf.append hg (Nat.le_of_lt hpos) (Nat.le_of_lt hstop)
  exact hall.dotless name t (by simpa using ht)

end EvaluatedApart

/-! ## Nodes -/

/-- Wherever a node stands, the facts in it are apart, whether it is evaluated, evaluated and then
bound or stored in, or a target. -/
structure Node.FactsApart (n : Node) : Prop where
  value : ∀ lo hi, n.StandsIn lo hi → EvaluatedApart lo hi (n.facts false)
  bound : ∀ lo hi, n.StandsIn lo hi → StandApart lo hi (n.facts false ++ n.bound)
  stored : ∀ lo hi, n.StandsIn lo hi → StandApart lo hi (n.facts false ++ n.stored)
  target : ∀ lo hi, n.StandsIn lo hi → StandApart lo hi (n.facts true)

section

variable {ns : List Node} {lo hi : Nat}

theorem evaluatedApart_nodes (h : ∀ n ∈ ns, n.FactsApart) (hns : Node.StandInOrder lo hi ns) :
    EvaluatedApart lo hi (Node.factsOfAll false ns) := by
  induction ns generalizing lo with
  | nil => exact .nil
  | cons n rest ih =>
    obtain ⟨mid, hn, hrest⟩ := hns
    have hothers := ih (fun m hm => h m (List.mem_cons_of_mem _ hm)) hrest
    rw [Node.factsOfAll]
    exact ((h n (by simp)).value lo mid hn).append hothers hn.le hrest.le

theorem standApart_targets (h : ∀ n ∈ ns, n.FactsApart) (hns : Node.StandInOrder lo hi ns) :
    StandApart lo hi (Node.factsOfAll true ns) := by
  induction ns generalizing lo with
  | nil => exact .nil
  | cons n rest ih =>
    obtain ⟨mid, hn, hrest⟩ := hns
    have hothers := ih (fun m hm => h m (List.mem_cons_of_mem _ hm)) hrest
    rw [Node.factsOfAll]
    exact ((h n (by simp)).target lo mid hn).append hothers hn.le hrest.le

/-- Only the first of the nodes is read. -/
theorem evaluatedApart_first (h : ∀ n ∈ ns, n.FactsApart) (hns : Node.StandInOrder lo hi ns) :
    EvaluatedApart lo hi (Node.factsOfFirst ns) := by
  cases ns with
  | nil => exact .nil
  | cons n rest => exact (h n (by simp)).value lo hi (hns.mem List.mem_cons_self)

theorem factsOfArguments_eq (args : List (ArgumentOf Node)) :
    Node.factsOfArguments args = Node.factsOfAll false (args.map (·.value)) := by
  induction args with
  | nil => rfl
  | cons arg rest ih => rw [Node.factsOfArguments, List.map_cons, Node.factsOfAll, ih]

theorem evaluatedApart_arguments {args : List (ArgumentOf Node)}
    (h : ∀ n ∈ args.map (·.value), n.FactsApart)
    (hargs : Node.StandInOrder lo hi (args.map (·.value))) :
    EvaluatedApart lo hi (Node.factsOfArguments args) := by
  rw [factsOfArguments_eq]
  exact evaluatedApart_nodes h hargs

/-- The clauses of a comprehension; a source is evaluated before its target. -/
theorem standApart_clauses {clauses : List (ClauseOf Node)}
    (h : ∀ n ∈ clauses.flatMap (·.parts), n.FactsApart)
    (hclauses : Node.StandInOrder lo hi (clauses.flatMap (·.parts))) :
    StandApart lo hi (Node.factsOfClauses clauses) := by
  induction clauses generalizing lo with
  | nil => exact .nil
  | cons clause rest ih =>
    rw [List.flatMap_cons] at h hclauses
    obtain ⟨mid, hparts, hrest⟩ := Node.standInOrder_append.mp hclauses
    have hothers := ih (fun n hn => h n (List.mem_append_right _ hn)) hrest
    have hclause : ∀ n ∈ clause.parts, n.FactsApart := fun n hn => h n (List.mem_append_left _ hn)
    cases clause with
    | loop target sources =>
      obtain ⟨start, htarget, hsources⟩ := hparts
      have hbound := (hclause target List.mem_cons_self).target lo start htarget
      have hread := evaluatedApart_first
        (fun n hn => hclause n (List.mem_cons_of_mem _ hn)) hsources
      have hloop := hbound.append hread.toStandApart htarget.le hsources.le
      rw [Node.factsOfClauses, ← List.append_assoc]
      exact hloop.swap.append hothers (Nat.le_trans htarget.le hsources.le) hrest.le
    | guard condition =>
      have hcondition := hparts.mem List.mem_cons_self
      have hread := (hclause condition List.mem_cons_self).value lo mid hcondition
      rw [Node.factsOfClauses]
      exact hread.toStandApart.append hothers hcondition.le hrest.le

end

section

variable {n : Node} {lo hi : Nat}

/-- What is evaluated in a node. -/
theorem evaluatedApart_node (hparts : ∀ m ∈ n.parts, m.FactsApart) (hsigns : n.HasSigns)
    (h : n.StandsIn lo hi) : EvaluatedApart lo hi (n.facts false) := by
  have htext := h.inText
  refine EvaluatedApart.widen ?_ h.start h.stop
  cases n with
  | name s => exact .nil
  | constant s => exact .nil
  | string s values formats =>
    exact evaluatedApart_nodes (fun m hm => hparts m (List.mem_append_left _ hm)) htext
  | strings s parts => exact evaluatedApart_nodes hparts htext
  | member s object attr =>
    have hobject := htext.mem List.mem_cons_self
    rw [Node.facts, if_neg Bool.false_ne_true, List.append_nil]
    exact (hparts object List.mem_cons_self).value _ _ hobject
  | subscript s value indices =>
    obtain ⟨mid, hvalue, hindices⟩ := htext
    have hbase := (hparts value List.mem_cons_self).value _ _ hvalue
    have hindex := evaluatedApart_first
      (fun m hm => hparts m (List.mem_cons_of_mem _ hm)) hindices
    rw [Node.facts, if_neg Bool.false_ne_true, List.append_nil]
    exact hbase.append hindex hvalue.le hindices.le
  | call s func args =>
    obtain ⟨mid, hfunc, hargs⟩ := htext
    have hcallee := (hparts func List.mem_cons_self).value _ _
      (hfunc.self.widen hfunc.start (Nat.le_refl _))
    have hbehind := evaluatedApart_arguments (fun m hm => hparts m (List.mem_cons_of_mem _ hm))
      (hargs.widen hfunc.stop (Nat.le_refl _))
    have hpos : s.pos < func.span.stop := Nat.lt_of_le_of_lt hfunc.start hfunc.filled
    exact hcallee.call hbehind hpos hsigns
  | paren s lead inner =>
    exact (hparts inner List.mem_cons_self).value _ _ (htext.mem List.mem_cons_self)
  | starred s lead inner =>
    exact (hparts inner List.mem_cons_self).value _ _ (htext.mem List.mem_cons_self)
  | hidden comment inner => exact .nil
  | walrus s target value =>
    obtain ⟨hstart, hlt, hword⟩ := hsigns
    have hvalue := htext.mem List.mem_cons_self
    have hread := (hparts value List.mem_cons_self).value _ _
      (hvalue.self.widen (Nat.succ_le_of_lt hlt) hvalue.stop)
    have hall := hread.boundBefore hstart (Nat.lt_trans hlt hvalue.pos_lt) hword
    exact hall.perm (List.perm_append_singleton _ _).symm
  | aliased s value targetSpan target =>
    obtain ⟨mid, hvalue, htarget⟩ := htext
    have htarget := htarget.mem List.mem_cons_self
    have hfirst := (hparts value List.mem_cons_self).value _ _ hvalue
    have hsecond := (hparts target (List.mem_cons_of_mem _ List.mem_cons_self)).value _ _ htarget
    exact hfirst.append hsecond hvalue.le htarget.le
  | lambda s params defaults body =>
    obtain ⟨mid, hdefaults, hbody⟩ := Node.standInOrder_append.mp htext
    have hbody := hbody.mem List.mem_cons_self
    have hfirst := evaluatedApart_nodes (fun m hm => hparts m (List.mem_append_left _ hm)) hdefaults
    have hsecond := (hparts body (List.mem_append_right _ List.mem_cons_self)).value _ _ hbody
    exact (hfirst.append hsecond hdefaults.le hbody.le).define _
  | comprehension s body clauses =>
    obtain ⟨mid, hbody, hclauses⟩ := htext
    have hfirst := (hparts body List.mem_cons_self).value _ _ hbody
    have hothers := standApart_clauses (fun m hm => hparts m (List.mem_cons_of_mem _ hm)) hclauses
    have hlt : s.pos < mid := Nat.lt_of_le_of_lt hbody.start hbody.pos_lt
    exact (hfirst.before hothers hlt hclauses.le).perm List.perm_append_comm
  | test s parts => exact evaluatedApart_nodes hparts htext
  | group s form parts => exact evaluatedApart_nodes hparts htext

theorem not_isSegment_path? {s : Span} {object : Node} {attr path : String}
    (h : (Node.member s object attr).path? = some path) : ¬ Text.IsSegment path := by
  obtain ⟨base, _, rfl⟩ := Option.map_eq_some_iff.mp h
  simp [Text.IsSegment]

/-- What is evaluated in `target := value`, whatever is bound behind it. -/
theorem standApart_walrus {s target : Span} {value : Node} {more : List FactNode}
    (hsigns : (Node.walrus s target value).HasSigns)
    (hvalue : ∀ lo hi, value.StandsIn lo hi → StandApart lo hi (value.facts false ++ more))
    (h : (Node.walrus s target value).StandsIn lo hi) :
    StandApart lo hi (value.facts false ++ .bind target.text target :: more) := by
  obtain ⟨hstart, hlt, _⟩ := hsigns
  have hstands := h.inText.mem List.mem_cons_self
  have hread := hvalue _ _ (hstands.self.widen (Nat.succ_le_of_lt hlt) hstands.stop)
  have hall : StandApart s.pos s.stop
      (.bind target.text target :: (value.facts false ++ more)) :=
    hread.boundBefore hstart (Nat.lt_trans hlt hstands.pos_lt)
  exact (hall.perm List.perm_middle.symm).widen h.start h.stop

/-- What is evaluated in a node whose path is then bound. -/
theorem standApart_bound (hparts : ∀ m ∈ n.parts, m.FactsApart) (hsigns : n.HasSigns)
    (h : n.StandsIn lo hi) : StandApart lo hi (n.facts false ++ n.bound) := by
  have hvalue := evaluatedApart_node hparts hsigns h.self
  cases n with
  | name s =>
    exact StandApart.nil.bound ⟨h.start, h.pos_lt⟩ (by simp)
  | member s object attr =>
    rw [Node.bound]
    cases hpath : (Node.member s object attr).path? with
    | none =>
      rw [Option.map_none, Option.toList_none, List.append_nil]
      exact (hvalue.widen h.start h.stop).toStandApart
    | some path =>
      -- a path has a dot, and what the object binds at its first byte has none
      have hother : ∀ name t, .bind name t ∈ (Node.member s object attr).facts false →
          path ≠ name ∨ s.pos ≠ t.pos := by
        intro name t ht
        by_cases hle : t.pos ≤ s.pos
        · refine Or.inl fun hname => not_isSegment_path? hpath ?_
          rw [hname]
          exact hvalue.dotless name t ht hle
        · exact Or.inr fun hpos => hle (Nat.le_of_eq hpos.symm)
      have hbound := hvalue.toStandApart.bound ⟨Nat.le_refl _, h.filled⟩ hother
      exact (hbound.perm (List.perm_append_singleton _ _).symm).widen h.start h.stop
  | paren s lead inner =>
    exact (hparts inner List.mem_cons_self).bound lo hi (h.part List.mem_cons_self)
  | walrus s target value =>
    have hall := standApart_walrus hsigns (hparts value List.mem_cons_self).bound h
    rwa [← List.singleton_append, ← List.append_assoc] at hall
  | _ =>
    exact (List.append_nil _).symm ▸ (hvalue.widen h.start h.stop).toStandApart

/-- What is evaluated in a node in whose value something is then stored. -/
theorem standApart_stored (hparts : ∀ m ∈ n.parts, m.FactsApart) (hsigns : n.HasSigns)
    (h : n.StandsIn lo hi) : StandApart lo hi (n.facts false ++ n.stored) := by
  cases n with
  | subscript s value indices =>
    obtain ⟨mid, hvalue, hindices⟩ := h.inText
    have hbase := (hparts value List.mem_cons_self).bound _ _ hvalue
    have hindex := evaluatedApart_first
      (fun m hm => hparts m (List.mem_cons_of_mem _ hm)) hindices
    have hall := (hbase.append hindex.toStandApart hvalue.le hindices.le).widen h.start h.stop
    rw [Node.facts, if_neg Bool.false_ne_true, List.append_nil, List.append_assoc]
    rw [List.append_assoc] at hall
    exact hall.perm (List.perm_append_comm.append_left _)
  | paren s lead inner =>
    exact (hparts inner List.mem_cons_self).stored lo hi (h.part List.mem_cons_self)
  | walrus s target value =>
    have hall := standApart_walrus hsigns (hparts value List.mem_cons_self).stored h
    rwa [← List.singleton_append, ← List.append_assoc] at hall
  | _ => exact standApart_bound hparts hsigns h

/-- What is evaluated and bound in a target. -/
theorem standApart_target (hparts : ∀ m ∈ n.parts, m.FactsApart) (hsigns : n.HasSigns)
    (h : n.StandsIn lo hi) : StandApart lo hi (n.facts true) := by
  have hvalue := (evaluatedApart_node hparts hsigns h).toStandApart
  have hstored := standApart_stored hparts hsigns h
  cases n with
  | name s => exact hstored
  | member s object attr => simpa [Node.facts] using hstored
  | subscript s value indices => simpa [Node.facts] using hstored
  | walrus s target value => simpa [Node.facts, Node.stored] using hstored
  | paren s lead inner =>
    rw [Node.facts]
    split
    · exact .nil
    · exact (hparts inner List.mem_cons_self).target lo hi (h.part List.mem_cons_self)
  | starred s lead inner =>
    rw [Node.facts]
    split
    · exact .nil
    · exact (hparts inner List.mem_cons_self).target lo hi (h.part List.mem_cons_self)
  | group s form parts =>
    cases form with
    | sequence => exact (standApart_targets hparts h.inText).widen h.start h.stop
    | _ => exact hvalue
  | _ => exact hvalue

theorem factsApart_node (n : Node) (hsigned : n.IsSigned) : n.FactsApart := by
  induction n using Node.partsInd with
  | step n ih =>
    have hparts : ∀ m ∈ n.parts, m.FactsApart := fun m hm => ih m hm (hsigned.part hm)
    have hsigns := hsigned n (self_mem_nodes n)
    exact
      { value := fun _ _ h => evaluatedApart_node hparts hsigns h
        bound := fun _ _ h => standApart_bound hparts hsigns h
        stored := fun _ _ h => standApart_stored hparts hsigns h
        target := fun _ _ h => standApart_target hparts hsigns h }

end

/-! ## Statements -/

section

variable {n : Node} {ns : List Node} {lo mid hi : Nat}

theorem standApart_value (hsigned : n.IsSigned) (h : n.StandsIn lo hi) :
    StandApart lo hi (n.facts false) := ((factsApart_node n hsigned).value lo hi h).toStandApart

theorem standApart_values (hsigned : ∀ n ∈ ns, n.IsSigned) (h : Node.StandInOrder lo hi ns) :
    StandApart lo hi (Node.factsOfAll false ns) :=
  (evaluatedApart_nodes (fun n hn => factsApart_node n (hsigned n hn)) h).toStandApart

theorem standApart_first (hsigned : ∀ n ∈ ns, n.IsSigned) (h : Node.StandInOrder lo hi ns) :
    StandApart lo hi (Node.factsOfFirst ns) :=
  (evaluatedApart_first (fun n hn => factsApart_node n (hsigned n hn)) h).toStandApart

/-- The targets of an assignment, the last one first. -/
theorem standApart_reverse (hsigned : ∀ n ∈ ns, n.IsSigned) (h : Node.StandInOrder lo hi ns) :
    StandApart lo hi (Node.factsOfAll true ns.reverse) := by
  have hflat (ns : List Node) : Node.factsOfAll true ns = ns.flatMap (·.facts true) := by
    induction ns with
    | nil => rfl
    | cons n rest ih => rw [Node.factsOfAll, ih, List.flatMap_cons]
  have hall := standApart_targets (fun n hn => factsApart_node n (hsigned n hn)) h
  rw [hflat] at hall ⊢
  exact hall.perm ((List.reverse_perm ns).symm.flatMap_right _)

theorem standApart_item (hsigned : n.IsSigned) (h : n.StandsIn lo hi) :
    StandApart lo hi n.factsOfItem := by
  cases n with
  | aliased s value targetSpan target =>
    obtain ⟨mid, hvalue, htarget⟩ := h.inText
    have htarget := htarget.mem List.mem_cons_self
    have hvalueSigned := hsigned.part (List.mem_cons_self)
    have htargetSigned := hsigned.part (List.mem_cons_of_mem _ List.mem_cons_self)
    have hall := (standApart_value hvalueSigned hvalue).append
      ((factsApart_node target htargetSigned).target _ _ htarget) hvalue.le htarget.le
    exact hall.widen h.start h.stop
  | _ => exact standApart_value hsigned h

theorem standApart_items {items : List Node} (hsigned : ∀ n ∈ items, n.IsSigned)
    (h : Node.StandInOrder lo hi items) : StandApart lo hi (items.flatMap Node.factsOfItem) := by
  induction items generalizing lo with
  | nil => exact .nil
  | cons item rest ih =>
    obtain ⟨mid, hitem, hrest⟩ := h
    rw [List.flatMap_cons]
    exact (standApart_item (hsigned item List.mem_cons_self) hitem).append
      (ih (fun n hn => hsigned n (List.mem_cons_of_mem _ hn)) hrest) hitem.le hrest.le

theorem standApart_head {head : Head} (hsigned : ∀ n ∈ head.nodes, n.IsSigned)
    (h : head.StandsIn lo hi) : StandApart lo hi head.facts := by
  cases head with
  | plain => exact .nil
  | condition value => exact standApart_value (hsigned value List.mem_cons_self) h
  | guard value => exact .nil
  | handler kind target others =>
    obtain ⟨mid, hkind, hrest⟩ := Node.standInOrder_append.mp h
    obtain ⟨stop, htarget, hothers⟩ := Node.standInOrder_append.mp hrest
    have hcaught := standApart_first (fun n hn => hsigned n (List.mem_append_left _ hn)) hkind
    have hbound := standApart_targets (fun n hn => factsApart_node n
      (hsigned n (List.mem_append_right _ (List.mem_append_left _ hn)))) htarget
    have hall := hcaught.append hbound hkind.le htarget.le
    exact hall.widen (Nat.le_refl _) hothers.le

/-- Wherever a statement stands, the facts in it are apart. -/
def Stmt.FactsApart (t : Stmt) : Prop :=
  ∀ decorators lo hi, t.StandsIn lo hi → StandApart lo hi (t.facts decorators)

theorem standApart_stmts {ts : List Stmt} (h : ∀ t ∈ ts, t.FactsApart)
    (hts : Stmt.StandInOrder lo hi ts) : StandApart lo hi (Stmt.factsOfAll ts) := by
  induction ts generalizing lo with
  | nil => exact .nil
  | cons t rest ih =>
    obtain ⟨mid, ht, hrest⟩ := hts
    rw [Stmt.factsOfAll]
    exact (h t (by simp) [] lo mid ht).append
      (ih (fun t ht => h t (List.mem_cons_of_mem _ ht)) hrest) ht.le hrest.le

theorem standApart_branches {branches : List (BranchOf Stmt)}
    (hsigned : ∀ n ∈ branches.flatMap (·.head.nodes), n.IsSigned)
    (h : ∀ t ∈ branches.flatMap (·.body), t.FactsApart)
    (hbranches : Stmt.BranchesStandInOrder lo hi branches) :
    StandApart lo hi (Stmt.factsOfBranches branches) := by
  induction branches generalizing lo with
  | nil => exact .nil
  | cons b rest ih =>
    obtain ⟨head, body⟩ := b
    obtain ⟨start, mid, hhead, hbody, hrest⟩ := hbranches
    rw [List.flatMap_cons] at hsigned h
    have hothers := ih (fun n hn => hsigned n (List.mem_append_right _ hn))
      (fun t ht => h t (List.mem_append_right _ ht)) hrest
    have hfirst := standApart_head (fun n hn => hsigned n (List.mem_append_left _ hn)) hhead
    have hinner := standApart_stmts (fun t ht => h t (List.mem_append_left _ ht)) hbody
    rw [Stmt.factsOfBranches]
    exact hfirst.append (hinner.append hothers hbody.le hrest.le) hhead.le
      (Nat.le_trans hbody.le hrest.le)

/-- A body and the branches behind it. -/
theorem standApart_block {body : List Stmt} {branches : List (BranchOf Stmt)}
    (hsigned : ∀ n ∈ branches.flatMap (·.head.nodes), n.IsSigned)
    (h : ∀ t ∈ body ++ branches.flatMap (·.body), t.FactsApart)
    (hbody : Stmt.StandInOrder lo mid body)
    (hbranches : Stmt.BranchesStandInOrder mid hi branches) :
    StandApart lo hi (Stmt.factsOfAll body ++ Stmt.factsOfBranches branches) :=
  (standApart_stmts (fun t ht => h t (List.mem_append_left _ ht)) hbody).append
    (standApart_branches hsigned (fun t ht => h t (List.mem_append_right _ ht)) hbranches)
    hbody.le hbranches.le

end

/-- The facts in a statement, with those in the statements right below it. -/
theorem standApart_stmt {t : Stmt} {decorators : List Node} {lo hi : Nat}
    (hown : ∀ n ∈ t.ownNodes, n.IsSigned) (hparts : ∀ part ∈ t.parts, part.FactsApart)
    (h : t.StandsIn lo hi) : StandApart lo hi (t.facts decorators) := by
  cases t with
  | values parts => exact standApart_values hown h
  | assign stop targets value =>
    cases value with
    | none => exact .nil
    | some value =>
      obtain ⟨mid, htargets, hvalue, hstop⟩ := h
      have hbound := standApart_reverse (fun n hn => hown n (List.mem_append_left _ hn)) htargets
      have hread := standApart_value
        (hown value (List.mem_append_right _ List.mem_cons_self)) hvalue
      exact (hbound.append hread htargets.le hvalue.le).swap.widen (Nat.le_refl _) hstop
  | augmented s target value =>
    obtain ⟨hstart, ⟨mid, htarget, hvalue⟩, hstop⟩ := h
    have hvalue := hvalue.mem List.mem_cons_self
    have hstored := (factsApart_node target (hown target List.mem_cons_self)).stored _ _ htarget
    have hread := standApart_value
      (hown value (List.mem_cons_of_mem _ List.mem_cons_self)) hvalue
    -- the value is evaluated before it is stored, but stands behind the target
    have hall := (hstored.append hread htarget.le hvalue.le).widen hstart hstop
    rw [List.append_assoc] at hall
    exact hall.perm (List.perm_append_comm.append_left _)
  | imports clauses => exact .nil
  | choice condition body branches =>
    obtain ⟨start, mid, hcondition, hbody, hbranches⟩ := h
    exact (standApart_value (hown condition List.mem_cons_self) hcondition).append
      (standApart_block (fun n hn => hown n (List.mem_cons_of_mem _ hn)) hparts hbody hbranches)
      hcondition.le (Nat.le_trans hbody.le hbranches.le)
  | whileLoop condition body branches =>
    obtain ⟨start, mid, hcondition, hbody, hbranches⟩ := h
    exact (standApart_value (hown condition List.mem_cons_self) hcondition).append
      (standApart_block (fun n hn => hown n (List.mem_cons_of_mem _ hn)) hparts hbody hbranches)
      hcondition.le (Nat.le_trans hbody.le hbranches.le)
  | forLoop target source body branches =>
    obtain ⟨start, mid, ⟨first, htarget, hsource⟩, hbody, hbranches⟩ := h
    have hsource := hsource.mem List.mem_cons_self
    have hbound := (factsApart_node target (hown target List.mem_cons_self)).target _ _ htarget
    have hread := standApart_value
      (hown source (List.mem_cons_of_mem _ List.mem_cons_self)) hsource
    have hblock := standApart_block
      (fun n hn => hown n (List.mem_cons_of_mem _ (List.mem_cons_of_mem _ hn))) hparts hbody
      hbranches
    -- the source is evaluated before the target but stands behind it
    have hloop := (hbound.append hread htarget.le hsource.le).swap
    have hall := hloop.append hblock (Nat.le_trans htarget.le hsource.le)
      (Nat.le_trans hbody.le hbranches.le)
    rwa [List.append_assoc] at hall
  | attempt body branches final =>
    obtain ⟨start, mid, hbody, hbranches, hfinal⟩ := h
    have hfirst := standApart_stmts (fun t ht => hparts t (List.mem_append_left _ ht)) hbody
    have hsecond := standApart_branches hown
      (fun t ht => hparts t (List.mem_append_right _ (List.mem_append_left _ ht))) hbranches
    have hthird := standApart_stmts
      (fun t ht => hparts t (List.mem_append_right _ (List.mem_append_right _ ht))) hfinal
    exact hfirst.append (hsecond.append hthird hbranches.le hfinal.le) hbody.le
      (Nat.le_trans hbranches.le hfinal.le)
  | withItems items body =>
    obtain ⟨mid, hitems, hbody⟩ := h
    exact (standApart_items hown hitems).append (standApart_stmts hparts hbody) hitems.le hbody.le
  | cases subjects branches =>
    obtain ⟨mid, hsubjects, hbranches⟩ := h
    have hfirst := standApart_first (fun n hn => hown n (List.mem_append_left _ hn)) hsubjects
    exact hfirst.append
      (standApart_branches (fun n hn => hown n (List.mem_append_right _ hn)) hparts hbranches)
      hsubjects.le hbranches.le
  | functionDef s name params defaults body =>
    obtain ⟨mid, hdefaults, hbody⟩ := h
    exact ((standApart_values hown hdefaults).append (standApart_stmts hparts hbody)
      hdefaults.le hbody.le).define _
  | classDef s name bases body =>
    obtain ⟨mid, hbases, hbody⟩ := h
    rw [Stmt.facts, factsOfArguments_eq]
    exact ((standApart_values hown hbases).append (standApart_stmts hparts hbody)
      hbases.le hbody.le).define _
  | decorated decorators definition =>
    obtain ⟨mid, hdecorators, hdefinition⟩ := h
    exact (standApart_values hown hdecorators).append
      (hparts definition List.mem_cons_self decorators mid hi hdefinition) hdecorators.le
      hdefinition.le

theorem factsApart_stmt (t : Stmt) (hsigned : t.IsSigned) : t.FactsApart := by
  induction t using Stmt.partsInd with
  | step t ih =>
    have hparts : ∀ part ∈ t.parts, part.FactsApart :=
      fun part hp => ih part hp (hsigned.part hp)
    exact fun decorators lo hi h => standApart_stmt hsigned.own hparts h

/-! ## Programs -/

section

variable {p : Program}

theorem standApart_program (hlaid : p.IsLaidOut) (hsigned : p.IsSigned) :
    ∃ stop, StandApart 0 stop p.facts := by
  obtain ⟨stop, hbody⟩ := hlaid
  refine ⟨stop, standApart_stmts (fun t ht => factsApart_stmt t ?_) hbody⟩
  intro u hu
  refine hsigned u ?_
  rw [Program.statements, nestedOfAll_eq]
  exact List.mem_flatMap.mpr ⟨t, ht, hu⟩

/-- No two calls of a program fill the same bytes. -/
theorem callSpans_apart (hlaid : p.IsLaidOut) (hsigned : p.IsSigned) :
    p.callSpans.Pairwise fun s t => s.pos ≠ t.pos ∨ s.stop ≠ t.stop := by
  obtain ⟨stop, hfacts⟩ := standApart_program hlaid hsigned
  refine List.pairwise_filterMap.mpr (hfacts.apart.imp fun {f g} hfg s hs t ht => ?_)
  cases f with
  | call s' =>
    cases g with
    | call t' =>
      obtain rfl := Option.some.inj hs
      obtain rfl := Option.some.inj ht
      exact hfg
    | _ => cases ht
  | _ => cases hs

/-- No name or path is bound twice at one byte of a program. -/
theorem binders_apart (hlaid : p.IsLaidOut) (hsigned : p.IsSigned) :
    p.binders.Pairwise fun b c => b.1 ≠ c.1 ∨ b.2.pos ≠ c.2.pos := by
  obtain ⟨stop, hfacts⟩ := standApart_program hlaid hsigned
  refine List.pairwise_filterMap.mpr (hfacts.apart.imp fun {f g} hfg b hb c hc => ?_)
  cases f with
  | bind name s =>
    cases g with
    | bind name' t =>
      obtain rfl := Option.some.inj hb
      obtain rfl := Option.some.inj hc
      exact hfg
    | _ => cases hc
  | _ => cases hb

end

end XPathTaint.Python
