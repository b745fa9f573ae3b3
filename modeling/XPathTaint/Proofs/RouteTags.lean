import XPathTaint.Proofs.NestedStatements
import XPathTaint.Proofs.RecordedFacts
import XPathTaint.Python.Statement

-- Which scopes have a route: those of functions of which a decorator right above tags one. A
-- comment before the expression of a decorator takes its place, so that decorator tags nothing.
-- A table that is filled on a way of its own, by the bytes at which definitions start, has the
-- same routes, since no two definitions start at the same byte.

namespace XPathTaint.Python

/-! ## Decorators -/

/-- Whether a decorator is a call by a name or member whose last segment is a route word. -/
def Node.tagsRoute : Node → Bool
  | .call _ func _ =>
    namesDecorator func &&
      routeWords.contains ((Text.segments func.span.text).getLast?.getD func.span.text)
  | _ => false

/-- The expression of a decorator, with or without a comment before it. -/
def Node.behindComment : Node → Node
  | .hidden _ inner => inner.behindComment
  | n => n

section

variable {symbols : Symbols} {n : Node} {decorators : List Node}

theorem isSome_routeOfDecorator : (routeOfDecorator symbols n).isSome = n.tagsRoute := by
  cases n with
  | call s func args =>
    unfold routeOfDecorator Node.tagsRoute
    dsimp only
    split
    · rename_i h
      rw [h, Option.isSome_some]
    · rename_i h
      rw [Bool.not_eq_true] at h
      rw [h, Option.isSome_none]
  | _ => rfl

theorem routeOfDecorator_eq_none : routeOfDecorator symbols n = none ↔ n.tagsRoute = false := by
  rw [← @isSome_routeOfDecorator symbols n, Option.isSome_eq_false_iff, Option.isNone_iff_eq_none]

/-- Decorators tag a route if one of them does. -/
theorem isSome_routeOf :
    (routeOf symbols decorators).isSome ↔ ∃ n ∈ decorators, n.tagsRoute = true := by
  rw [routeOf, List.findSome?_isSome_iff]
  simp only [isSome_routeOfDecorator]

/-- The route is that of the first decorator which tags one. -/
theorem routeOf_eq_some_iff {r : Route} : routeOf symbols decorators = some r ↔
    ∃ before n after, decorators = before ++ n :: after ∧
      (∀ m ∈ before, m.tagsRoute = false) ∧ routeOfDecorator symbols n = some r := by
  rw [routeOf, List.findSome?_eq_some_iff]
  simp only [routeOfDecorator_eq_none]
  constructor
  · rintro ⟨before, n, after, hsplit, hn, hbefore⟩
    exact ⟨before, n, after, hsplit, hbefore, hn⟩
  · rintro ⟨before, n, after, hsplit, hbefore, hn⟩
    exact ⟨before, n, after, hsplit, hn, hbefore⟩

/-- Comments before the expressions of decorators do not matter where none of those behind a comment
tags a route. -/
theorem routeOf_behindComment
    (h : ∀ comment inner, .hidden comment inner ∈ decorators →
      inner.behindComment.tagsRoute = false) :
    routeOf symbols (decorators.map Node.behindComment) = routeOf symbols decorators := by
  have hsame : ∀ n ∈ decorators,
      routeOfDecorator symbols n.behindComment = routeOfDecorator symbols n := by
    intro n hn
    cases n with
    | hidden comment inner => exact routeOfDecorator_eq_none.mpr (h comment inner hn)
    | _ => rfl
  rw [routeOf, List.findSome?_map, routeOf]
  induction decorators with
  | nil => rfl
  | cons n rest ih =>
    rw [List.findSome?_cons, List.findSome?_cons, ih, Function.comp_apply,
      hsame n List.mem_cons_self]
    · exact fun comment inner hmem => h comment inner (List.mem_cons_of_mem _ hmem)
    · exact fun m hm => hsame m (List.mem_cons_of_mem _ hm)

end

/-- The route of a definition if comments before the expressions of its decorators did not count. -/
def DefinitionNode.routeBehindComments (symbols : Symbols) (d : DefinitionNode) : Option Route :=
  match d.definer with
  | .function decorators => routeOf symbols (decorators.map Node.behindComment)
  | .classBody => none
  | .lambda => none

/-! ## Functions -/

/-- Where a function starts, and the decorators right above it. -/
def FactNode.function? : FactNode → Option (Nat × List Node)
  | .definition ⟨.function decorators, _, _, s⟩ => some (s.pos, decorators)
  | _ => none

/-- The functions among facts. -/
def functionsOf (fs : List FactNode) : List (Nat × List Node) := fs.filterMap FactNode.function?

section

variable {f : FactNode} {fs gs : List FactNode} {ns : List Node}

@[simp] theorem functionsOf_append : functionsOf (fs ++ gs) = functionsOf fs ++ functionsOf gs :=
  List.filterMap_append

theorem functionsOf_cons (h : f.function? = none) : functionsOf (f :: fs) = functionsOf fs :=
  List.filterMap_cons_none h

/-- No function is defined in the nodes. -/
def NoFunctions (ns : List Node) : Prop := ∀ n ∈ ns, ∀ taking, functionsOf (n.facts taking) = []

theorem NoFunctions.values (h : NoFunctions ns) (taking : Bool) :
    functionsOf (Node.factsOfAll taking ns) = [] := by
  induction ns with
  | nil => rfl
  | cons n rest ih =>
    rw [Node.factsOfAll, functionsOf_append, h n (by simp),
      ih fun m hm => h m (List.mem_cons_of_mem _ hm), List.nil_append]

theorem NoFunctions.first (h : NoFunctions ns) : functionsOf (Node.factsOfFirst ns) = [] := by
  cases ns with
  | nil => rfl
  | cons n rest => exact h n (by simp) false

theorem NoFunctions.arguments {args : List (ArgumentOf Node)}
    (h : NoFunctions (args.map (·.value))) : functionsOf (Node.factsOfArguments args) = [] := by
  induction args with
  | nil => rfl
  | cons arg rest ih =>
    obtain ⟨keyword, splat, value⟩ := arg
    rw [Node.factsOfArguments, functionsOf_append, h value (by simp),
      ih fun n hn => h n (List.mem_cons_of_mem _ hn), List.nil_append]

theorem NoFunctions.clauses {clauses : List (ClauseOf Node)}
    (h : NoFunctions (clauses.flatMap (·.parts))) :
    functionsOf (Node.factsOfClauses clauses) = [] := by
  induction clauses with
  | nil => rfl
  | cons clause rest ih =>
    have hrest := ih fun n hn => h n (List.mem_append_right _ hn)
    have hclause : NoFunctions clause.parts := fun n hn => h n (List.mem_append_left _ hn)
    cases clause with
    | loop target sources =>
      have hsources : NoFunctions sources := fun n hn => hclause n (List.mem_cons_of_mem _ hn)
      simp only [Node.factsOfClauses, functionsOf_append, hsources.first, hrest,
        hclause target List.mem_cons_self, List.append_nil]
    | guard condition =>
      simp only [Node.factsOfClauses, functionsOf_append, hrest,
        hclause condition List.mem_cons_self, List.append_nil]

theorem functionsOf_stored (n : Node) : functionsOf n.stored = [] := by
  have hbound : ∀ n : Node, functionsOf n.bound = [] := by
    intro n
    unfold Node.bound
    cases n.path? <;> rfl
  induction n using Node.ind with
  | subscript s value indices ihv ihi => exact hbound value
  | paren s lead inner ih => exact ih
  | walrus s target value ih => exact ih
  | _ => exact hbound _

theorem functionsOf_ite {taking : Bool} {n : Node} :
    functionsOf (if taking then n.stored else []) = [] := by
  cases taking with
  | true => exact functionsOf_stored n
  | false => rfl

/-- Functions are defined by statements only. -/
theorem functionsOf_node (n : Node) : ∀ taking, functionsOf (n.facts taking) = [] := by
  induction n using Node.partsInd with
  | step n ih =>
    have hparts : NoFunctions n.parts := ih
    intro taking
    cases n with
    | name s => exact functionsOf_ite
    | constant s => rfl
    | string s values formats =>
      have hvalues : NoFunctions values := fun m hm => hparts m (List.mem_append_left _ hm)
      exact hvalues.values false
    | strings s parts => exact hparts.values false
    | member s object attr =>
      rw [Node.facts, functionsOf_append, functionsOf_ite, hparts object List.mem_cons_self,
        List.nil_append]
    | subscript s value indices =>
      have hindices : NoFunctions indices := fun m hm => hparts m (List.mem_cons_of_mem _ hm)
      rw [Node.facts, functionsOf_append, functionsOf_append, functionsOf_ite, hindices.first,
        hparts value List.mem_cons_self, List.nil_append, List.nil_append]
    | call s func args =>
      have hargs : NoFunctions (args.map (·.value)) :=
        fun m hm => hparts m (List.mem_cons_of_mem _ hm)
      rw [Node.facts, functionsOf_append, functionsOf_append, hargs.arguments,
        hparts func List.mem_cons_self]
      rfl
    | paren s lead inner =>
      rw [Node.facts]
      split
      · rfl
      · exact hparts inner List.mem_cons_self taking
    | starred s lead inner =>
      rw [Node.facts]
      split
      · rfl
      · exact hparts inner List.mem_cons_self taking
    | hidden comment inner => rfl
    | walrus s target value =>
      rw [Node.facts, functionsOf_append, functionsOf_cons rfl, functionsOf_ite,
        hparts value List.mem_cons_self, List.nil_append]
    | aliased s value targetSpan target =>
      rw [Node.facts, functionsOf_append, hparts value List.mem_cons_self,
        hparts target (List.mem_cons_of_mem _ List.mem_cons_self), List.nil_append]
    | lambda s params defaults body =>
      have hdefaults : NoFunctions defaults := fun m hm => hparts m (List.mem_append_left _ hm)
      rw [Node.facts, functionsOf_append, functionsOf_cons rfl, hdefaults.values,
        hparts body (List.mem_append_right _ List.mem_cons_self), List.nil_append]
    | comprehension s body clauses =>
      have hclauses : NoFunctions (clauses.flatMap (·.parts)) :=
        fun m hm => hparts m (List.mem_cons_of_mem _ hm)
      rw [Node.facts, functionsOf_append, hclauses.clauses, hparts body List.mem_cons_self,
        List.nil_append]
    | test s parts => exact hparts.values false
    | group s form parts => exact hparts.values _

theorem noFunctions (ns : List Node) : NoFunctions ns := fun n _ => functionsOf_node n

theorem functionsOf_item (n : Node) : functionsOf n.factsOfItem = [] := by
  cases n with
  | aliased s value targetSpan target =>
    rw [Node.factsOfItem, functionsOf_append, functionsOf_node, functionsOf_node, List.nil_append]
  | _ => exact functionsOf_node _ false

theorem functionsOf_items (items : List Node) :
    functionsOf (items.flatMap Node.factsOfItem) = [] := by
  induction items with
  | nil => rfl
  | cons item rest ih =>
    rw [List.flatMap_cons, functionsOf_append, functionsOf_item, ih, List.nil_append]

theorem functionsOf_head (head : Head) : functionsOf head.facts = [] := by
  cases head with
  | plain => rfl
  | condition value => exact functionsOf_node value false
  | guard value => rfl
  | handler kind target others =>
    rw [Head.facts, functionsOf_append, (noFunctions _).first, (noFunctions _).values,
      List.nil_append]

end

/-! ## A table of routes -/

/-- Where a function or class starts. -/
def Stmt.start? : Stmt → Option Nat
  | .functionDef s _ _ _ _ => some s.pos
  | .classDef s _ _ _ => some s.pos
  | _ => none

section

variable (symbols : Symbols)

/-- What a definition behind decorators is entered with: the byte at which it starts, and the route
that its decorators tag. -/
def entryOf (decorators : List Node) (definition : Stmt) : Option (Nat × Route) :=
  definition.start?.bind fun start => (routeOf symbols decorators).map (start, ·)

def Stmt.entry? : Stmt → Option (Nat × Route)
  | .decorated decorators definition => entryOf symbols decorators definition
  | _ => none

/-- The entries for all decorated definitions of a program. -/
def Program.routeTable (p : Program) : List (Nat × Route) :=
  p.statements.filterMap (Stmt.entry? symbols)

end

/-! ## Where definitions start -/

mutual

/-- The functions and classes in a statement start from one byte to another, one behind the other,
and each of them before those in its body. -/
def Stmt.DefinesIn (lo hi : Nat) : Stmt → Prop
  | .values _ => lo ≤ hi
  | .assign _ _ _ => lo ≤ hi
  | .augmented _ _ _ => lo ≤ hi
  | .imports _ => lo ≤ hi
  | .choice _ body branches =>
    ∃ mid, Stmt.DefineInOrder lo mid body ∧ Stmt.BranchesDefineInOrder mid hi branches
  | .whileLoop _ body branches =>
    ∃ mid, Stmt.DefineInOrder lo mid body ∧ Stmt.BranchesDefineInOrder mid hi branches
  | .forLoop _ _ body branches =>
    ∃ mid, Stmt.DefineInOrder lo mid body ∧ Stmt.BranchesDefineInOrder mid hi branches
  | .attempt body branches final =>
    ∃ start mid, Stmt.DefineInOrder lo start body ∧
      Stmt.BranchesDefineInOrder start mid branches ∧ Stmt.DefineInOrder mid hi final
  | .withItems _ body => Stmt.DefineInOrder lo hi body
  | .cases _ branches => Stmt.BranchesDefineInOrder lo hi branches
  | .functionDef s _ _ _ body => lo ≤ s.pos ∧ Stmt.DefineInOrder (s.pos + 1) hi body
  | .classDef s _ _ body => lo ≤ s.pos ∧ Stmt.DefineInOrder (s.pos + 1) hi body
  | .decorated _ definition => definition.DefinesIn lo hi

def Stmt.DefineInOrder (lo hi : Nat) : List Stmt → Prop
  | [] => lo ≤ hi
  | stmt :: rest => ∃ mid, stmt.DefinesIn lo mid ∧ Stmt.DefineInOrder mid hi rest

def Stmt.BranchesDefineInOrder (lo hi : Nat) : List (BranchOf Stmt) → Prop
  | [] => lo ≤ hi
  | ⟨_, body⟩ :: rest =>
    ∃ mid, Stmt.DefineInOrder lo mid body ∧ Stmt.BranchesDefineInOrder mid hi rest

end

/-- The definitions of a program as they are read from a text. -/
def Program.DefinesInOrder (p : Program) : Prop := ∃ stop, Stmt.DefineInOrder 0 stop p.body

/-- Functions and entries of a table that start from one byte to another; the table has at the start
of each function the route that its decorators tag, and nothing else. -/
structure Tabled (symbols : Symbols) (lo hi : Nat) (fs : List (Nat × List Node))
    (es : List (Nat × Route)) : Prop where
  le : lo ≤ hi
  functions : ∀ f ∈ fs, lo ≤ f.1 ∧ f.1 < hi
  entries : ∀ e ∈ es, lo ≤ e.1 ∧ e.1 < hi
  agree : ∀ f ∈ fs, ∀ r, (f.1, r) ∈ es ↔ routeOf symbols f.2 = some r

namespace Tabled

variable {symbols : Symbols} {lo mid hi start : Nat} {fs fs' : List (Nat × List Node)}
  {es es' : List (Nat × Route)} {decorators : List Node}

theorem nothing (h : lo ≤ hi) : Tabled symbols lo hi [] [] := ⟨h, by simp, by simp, by simp⟩

/-- What starts in one part, and what starts in another part behind it. -/
theorem append (h : Tabled symbols lo mid fs es) (h' : Tabled symbols mid hi fs' es') :
    Tabled symbols lo hi (fs ++ fs') (es ++ es') := by
  have hlo := h.le
  have hhi := h'.le
  refine ⟨Nat.le_trans hlo hhi, ?functions, ?entries, ?agree⟩
  case functions =>
    intro f hf
    rcases List.mem_append.mp hf with hf | hf
    · have hin := h.functions f hf
      omega
    · have hin := h'.functions f hf
      omega
  case entries =>
    intro e he
    rcases List.mem_append.mp he with he | he
    · have hin := h.entries e he
      omega
    · have hin := h'.entries e he
      omega
  case agree =>
    intro f hf r
    rw [List.mem_append]
    rcases List.mem_append.mp hf with hf | hf
    · have hnot : (f.1, r) ∉ es' := by
        intro he
        have hin := h.functions f hf
        have hin' := h'.entries _ he
        omega
      rw [← h.agree f hf r, or_iff_left hnot]
    · have hnot : (f.1, r) ∉ es := by
        intro he
        have hin := h'.functions f hf
        have hin' := h.entries _ he
        omega
      rw [← h'.agree f hf r, or_iff_right hnot]

/-- The entry for a definition before those in its body. -/
theorem entered (decorators : List Node) (h : Tabled symbols (start + 1) hi fs es)
    (hlo : lo ≤ start) :
    Tabled symbols lo hi fs (((routeOf symbols decorators).map (start, ·)).toList ++ es) := by
  have hhi := h.le
  refine ⟨by omega, ?functions, ?entries, ?agree⟩
  case functions =>
    intro f hf
    have hin := h.functions f hf
    omega
  case entries =>
    intro e he
    rcases List.mem_append.mp he with he | he
    · obtain ⟨r, _, rfl⟩ := Option.map_eq_some_iff.mp (Option.mem_toList.mp he)
      exact ⟨hlo, by omega⟩
    · have hin := h.entries e he
      omega
  case agree =>
    intro f hf r
    have hnot : (f.1, r) ∉ ((routeOf symbols decorators).map (start, ·)).toList := by
      intro he
      have hin := h.functions f hf
      obtain ⟨r', _, heq⟩ := Option.map_eq_some_iff.mp (Option.mem_toList.mp he)
      have hstart : start = f.1 := congrArg Prod.fst heq
      omega
    rw [List.mem_append, or_iff_right hnot]
    exact h.agree f hf r

/-- A function before those in its body. -/
theorem function (h : Tabled symbols (start + 1) hi fs es) (hlo : lo ≤ start) :
    Tabled symbols lo hi ((start, decorators) :: fs)
      (((routeOf symbols decorators).map (start, ·)).toList ++ es) := by
  have hrest := h.entered decorators hlo
  have hhi := h.le
  refine ⟨hrest.le, ?functions, hrest.entries, ?agree⟩
  case functions => exact List.forall_mem_cons.mpr ⟨⟨hlo, by omega⟩, hrest.functions⟩
  case agree =>
    refine List.forall_mem_cons.mpr ⟨fun r => ?_, hrest.agree⟩
    have hnot : (start, r) ∉ es := by
      intro he
      have hin := h.entries _ he
      omega
    rw [List.mem_append, or_iff_left hnot, Option.mem_toList, Option.map_eq_some_iff]
    constructor
    · rintro ⟨r', hr', heq⟩
      rw [hr', (Prod.mk.inj heq).2]
    · exact fun hr => ⟨r, hr, rfl⟩

end Tabled

section

variable {symbols : Symbols} {lo mid hi : Nat}

/-- The entries in a statement that stands behind decorators. -/
def Stmt.entries (symbols : Symbols) (decorators : List Node) (t : Stmt) : List (Nat × Route) :=
  (entryOf symbols decorators t).toList ++ t.nested.filterMap (Stmt.entry? symbols)

/-- Wherever the definitions of a statement start, its entries are those of its functions. -/
def Stmt.IsTabled (symbols : Symbols) (t : Stmt) : Prop :=
  ∀ decorators lo hi, t.DefinesIn lo hi →
    Tabled symbols lo hi (functionsOf (t.facts decorators)) (t.entries symbols decorators)

/-- The decorators right above a definition count, and not those above them. -/
theorem entries_decorated (outer decorators : List Node) (definition : Stmt) :
    (Stmt.decorated decorators definition).entries symbols outer =
      definition.entries symbols decorators := by
  have hself : Stmt.entry? symbols (.decorated decorators definition) =
      entryOf symbols decorators definition := rfl
  rw [Stmt.entries, Stmt.entries, Stmt.nested, List.filterMap_cons, hself]
  cases entryOf symbols decorators definition <;> rfl

theorem tabled_stmts {ts : List Stmt} (h : ∀ t ∈ ts, t.IsTabled symbols)
    (hts : Stmt.DefineInOrder lo hi ts) :
    Tabled symbols lo hi (functionsOf (Stmt.factsOfAll ts))
      ((Stmt.nestedOfAll ts).filterMap (Stmt.entry? symbols)) := by
  induction ts generalizing lo with
  | nil => exact .nothing hts
  | cons t rest ih =>
    obtain ⟨mid, ht, hrest⟩ := hts
    have hfirst := h t (by simp) [] lo mid ht
    have hothers := ih (fun t ht => h t (List.mem_cons_of_mem _ ht)) hrest
    have hentry : entryOf symbols [] t = none := by
      unfold entryOf routeOf
      cases t.start? <;> rfl
    rw [Stmt.entries, hentry, Option.toList_none, List.nil_append] at hfirst
    rw [Stmt.factsOfAll, functionsOf_append, Stmt.nestedOfAll, List.filterMap_append]
    exact hfirst.append hothers

theorem tabled_branches {branches : List (BranchOf Stmt)}
    (h : ∀ b ∈ branches, ∀ t ∈ b.body, t.IsTabled symbols)
    (hbranches : Stmt.BranchesDefineInOrder lo hi branches) :
    Tabled symbols lo hi (functionsOf (Stmt.factsOfBranches branches))
      ((Stmt.nestedOfBranches branches).filterMap (Stmt.entry? symbols)) := by
  induction branches generalizing lo with
  | nil => exact .nothing hbranches
  | cons b rest ih =>
    obtain ⟨head, body⟩ := b
    obtain ⟨mid, hbody, hrest⟩ := hbranches
    have hothers := ih (fun b hb => h b (List.mem_cons_of_mem _ hb)) hrest
    rw [Stmt.factsOfBranches, functionsOf_append, functionsOf_append, functionsOf_head,
      List.nil_append, Stmt.nestedOfBranches, List.filterMap_append]
    exact (tabled_stmts (h ⟨head, body⟩ (by simp)) hbody).append hothers

/-- A body and the branches behind it. -/
theorem tabled_block {body : List Stmt} {branches : List (BranchOf Stmt)}
    (hb : ∀ t ∈ body, t.IsTabled symbols) (hr : ∀ b ∈ branches, ∀ t ∈ b.body, t.IsTabled symbols)
    (h : ∃ mid, Stmt.DefineInOrder lo mid body ∧ Stmt.BranchesDefineInOrder mid hi branches) :
    Tabled symbols lo hi
      (functionsOf (Stmt.factsOfAll body ++ Stmt.factsOfBranches branches))
      ((Stmt.nestedOfAll body ++ Stmt.nestedOfBranches branches).filterMap
        (Stmt.entry? symbols)) := by
  obtain ⟨mid, hbody, hbranches⟩ := h
  rw [functionsOf_append, List.filterMap_append]
  exact (tabled_stmts hb hbody).append (tabled_branches hr hbranches)

theorem tabled_stmt (t : Stmt) : t.IsTabled symbols := by
  induction t using Stmt.ind with
  | values parts =>
    intro decorators lo hi h
    rw [Stmt.facts, (noFunctions parts).values]
    exact .nothing h
  | assign stop targets value =>
    intro decorators lo hi h
    cases value with
    | none => exact .nothing h
    | some value =>
      rw [Stmt.facts, functionsOf_append, functionsOf_node, (noFunctions _).values]
      exact .nothing h
  | augmented s target value =>
    intro decorators lo hi h
    rw [Stmt.facts, functionsOf_append, functionsOf_append, functionsOf_node, functionsOf_node,
      functionsOf_stored]
    exact .nothing h
  | imports clauses => exact fun decorators lo hi h => .nothing h
  | choice condition body branches ihb ihr =>
    intro decorators lo hi h
    rw [Stmt.facts, functionsOf_append, functionsOf_node, List.nil_append]
    exact tabled_block ihb ihr h
  | whileLoop condition body branches ihb ihr =>
    intro decorators lo hi h
    rw [Stmt.facts, functionsOf_append, functionsOf_node, List.nil_append]
    exact tabled_block ihb ihr h
  | forLoop target source body branches ihb ihr =>
    intro decorators lo hi h
    rw [Stmt.facts, functionsOf_append, functionsOf_append, functionsOf_node, functionsOf_node,
      List.nil_append, List.nil_append]
    exact tabled_block ihb ihr h
  | attempt body branches final ihb ihr ihf =>
    intro decorators lo hi h
    obtain ⟨start, mid, hbody, hbranches, hfinal⟩ := h
    have hrest := (tabled_branches ihr hbranches).append (tabled_stmts ihf hfinal)
    have hall := (tabled_stmts ihb hbody).append hrest
    rw [← functionsOf_append, ← functionsOf_append, ← List.filterMap_append,
      ← List.filterMap_append] at hall
    exact hall
  | withItems items body ihb =>
    intro decorators lo hi h
    rw [Stmt.facts, functionsOf_append, functionsOf_items, List.nil_append]
    exact tabled_stmts ihb h
  | cases subjects branches ihr =>
    intro decorators lo hi h
    rw [Stmt.facts, functionsOf_append, (noFunctions subjects).first, List.nil_append]
    exact tabled_branches ihr h
  | functionDef s name params defaults body ihb =>
    intro decorators lo hi h
    rw [Stmt.facts, functionsOf_append, (noFunctions defaults).values, List.nil_append]
    exact (tabled_stmts ihb h.2).function h.1
  | classDef s name bases body ihb =>
    intro decorators lo hi h
    rw [Stmt.facts, functionsOf_append, (noFunctions _).arguments, List.nil_append,
      functionsOf_cons rfl]
    exact (tabled_stmts ihb h.2).entered decorators h.1
  | decorated decorators definition ih =>
    intro outer lo hi h
    rw [Stmt.facts, functionsOf_append, (noFunctions decorators).values, List.nil_append,
      entries_decorated]
    exact ih decorators lo hi h

/-- The table of a program has at the start of each function the route that it is recorded with. -/
theorem mem_routeTable {p : Program} (h : p.DefinesInOrder) {d : DefinitionNode}
    (hd : d ∈ p.definitions) {decorators : List Node} (hdefiner : d.definer = .function decorators)
    (r : Route) : (d.span.pos, r) ∈ p.routeTable symbols ↔ d.route symbols = some r := by
  obtain ⟨stop, hbody⟩ := h
  have htabled : Tabled symbols 0 stop (functionsOf p.facts) (p.routeTable symbols) :=
    tabled_stmts (fun t _ => tabled_stmt t) hbody
  obtain ⟨definer, name, params, span⟩ := d
  obtain rfl : definer = .function decorators := hdefiner
  refine htabled.agree (span.pos, decorators) ?_ r
  obtain ⟨f, hf, hdefinition⟩ := List.mem_filterMap.mp hd
  refine List.mem_filterMap.mpr ⟨f, hf, ?_⟩
  cases f with
  | definition d' =>
    obtain rfl : d' = _ := Option.some.inj hdefinition
    rfl
  | _ => cases hdefinition

end

/-! ## Programs -/

/-- The scopes of a program are that of the module, which has no route, and those of its
definitions, in order. A definition has a route just if it is a function and one of the decorators
right above it tags one, and then it has that of the first which does. Comments before the
expressions of decorators change nothing where no decorator behind a comment tags a route. A table
of the routes of decorated definitions by the bytes at which they start has at the start of each
function its route and no other. -/
theorem only_own_decorators_tag_a_function (path : String) (symbols : Symbols) (p : Program) :
    (lowerProgram path symbols p).scopes.map (fun s => (s.place, s.params, s.route)) =
        (placeIn path p.start, [], none) ::
          p.definitions.map (fun d => (placeIn path d.span, d.params, d.route symbols)) ∧
      (∀ d : DefinitionNode, (d.route symbols).isSome ↔
        ∃ decorators, d.definer = .function decorators ∧
          ∃ n ∈ decorators, n.tagsRoute = true) ∧
      (∀ (d : DefinitionNode) (r : Route), d.route symbols = some r ↔
        ∃ before n after, d.definer = .function (before ++ n :: after) ∧
          (∀ m ∈ before, m.tagsRoute = false) ∧ routeOfDecorator symbols n = some r) ∧
      (∀ d : DefinitionNode,
        (∀ decorators, d.definer = .function decorators → ∀ comment inner,
          .hidden comment inner ∈ decorators → inner.behindComment.tagsRoute = false) →
        d.routeBehindComments symbols = d.route symbols) ∧
      (p.DefinesInOrder → ∀ d ∈ p.definitions, ∀ decorators, d.definer = .function decorators →
        ∀ r, (d.span.pos, r) ∈ p.routeTable symbols ↔ d.route symbols = some r) := by
  refine ⟨scopes_of_facts path symbols p, ?tagged, ?first, ?comments, ?table⟩
  case tagged =>
    rintro ⟨definer, name, params, span⟩
    cases definer with
    | function decorators => simpa [DefinitionNode.route] using isSome_routeOf
    | classBody => simp [DefinitionNode.route]
    | lambda => simp [DefinitionNode.route]
  case first =>
    rintro ⟨definer, name, params, span⟩ r
    cases definer with
    | function decorators => simpa [DefinitionNode.route] using routeOf_eq_some_iff
    | classBody => simp [DefinitionNode.route]
    | lambda => simp [DefinitionNode.route]
  case comments =>
    rintro ⟨definer, name, params, span⟩ h
    cases definer with
    | function decorators => exact routeOf_behindComment (h decorators rfl)
    | classBody => rfl
    | lambda => rfl
  case table => exact fun h d hd decorators hdefiner r => mem_routeTable h hd hdefiner r

/-- The decorator `@app.word(path)` behind its sign. -/
def decoratorAt (pos line column : Nat) (word path : String) : Node :=
  let callee := "app." ++ word
  let stop := pos + callee.length + path.length + 2
  .call ⟨pos, stop, line, column, callee ++ "(" ++ path ++ ")"⟩
    (.member ⟨pos, pos + callee.length, line, column, callee⟩
      (.name ⟨pos, pos + 3, line, column, "app"⟩) word)
    [⟨none, .none,
      .string ⟨pos + callee.length + 1, stop - 1, line, column + callee.length + 1, path⟩ [] []⟩]

def routedMethod : DefinitionNode :=
  ⟨.function [decoratorAt 34 3 6 "get" "'/b'"], "get", ["self"],
    ⟨52, 105, 4, 5, "def get(self):\n        def inner(y):\n            pass"⟩⟩

def functionInMethod : DefinitionNode :=
  ⟨.function [], "inner", ["y"], ⟨75, 105, 5, 9, "def inner(y):\n            pass"⟩⟩

/-- A class behind `@app.route('/a')` with a method `get` behind `@app.get('/b')`, in which another
function stands, and a function behind the class. -/
def routedView : Program :=
  let inner : Stmt := .functionDef functionInMethod.span "inner" ["y"] [] []
  let get : Stmt := .functionDef routedMethod.span "get" ["self"] [] [inner]
  let view : Stmt := .classDef ⟨17, 105, 2, 1, "class View: ..."⟩ "View" []
    [.decorated [decoratorAt 34 3 6 "get" "'/b'"] get]
  { start := ⟨0, 0, 1, 1, ""⟩, isPartial := false
    body := [.decorated [decoratorAt 1 1 2 "route" "'/a'"] view,
      .functionDef ⟨106, 128, 7, 1, "def other(z):\n    pass"⟩ "other" ["z"] [] []] }

theorem definesInOrder_routedView : routedView.DefinesInOrder :=
  ⟨107, 76, ⟨by decide, 76, ⟨by decide, 76, ⟨by decide, Nat.le_refl 76⟩, Nat.le_refl 76⟩,
    Nat.le_refl 76⟩, 107, ⟨by decide, Nat.le_refl 107⟩, Nat.le_refl 107⟩

theorem only_own_decorators_tag_a_function_of_a_view :
    routedView.DefinesInOrder ∧
      (lowerProgram "a.py" [] routedView).scopes.map (·.route) =
        [none, none, some ⟨"app.get", some "/b"⟩, none, none] ∧
      (∀ r, (52, r) ∈ routedView.routeTable [] ↔ r = ⟨"app.get", some "/b"⟩) ∧
      (∀ r, (75, r) ∉ routedView.routeTable []) := by
  obtain ⟨hscopes, -, -, -, htable⟩ := only_own_decorators_tag_a_function "a.py" [] routedView
  have hlaid := definesInOrder_routedView
  have hroutes := congrArg (List.map fun s : Place × List String × Option Route => s.2.2) hscopes
  rw [List.map_map] at hroutes
  refine ⟨hlaid, hroutes.trans (by decide +kernel), fun r => ?method, fun r => ?inner⟩
  case method =>
    have hmem : routedMethod ∈ routedView.definitions :=
      List.mem_cons_of_mem _ List.mem_cons_self
    have hroute : routedMethod.route [] = some ⟨"app.get", some "/b"⟩ := by decide +kernel
    have hentry := htable hlaid routedMethod hmem _ rfl r
    rw [hroute, Option.some.injEq] at hentry
    exact hentry.trans eq_comm
  case inner =>
    have hmem : functionInMethod ∈ routedView.definitions :=
      List.mem_cons_of_mem _ (List.mem_cons_of_mem _ List.mem_cons_self)
    have hentry := htable hlaid functionInMethod hmem _ rfl r
    exact fun h => Option.some_ne_none r (hentry.mp h).symm

/-- A comment behind `@` takes the place of the decorator, so the function has no route. -/
theorem a_decorator_behind_a_comment_tags_nothing :
    let p := Program.read "@  # public\napp.route('/x')\ndef show(name):\n    sink(name)\n"
    p.isPartial = false ∧
      p.definitions.map (·.routeBehindComments []) = [some ⟨"app.route", some "/x"⟩] ∧
      (lowerProgram "a.py" [] p).scopes.map (·.route) = [none, none] := by
  decide +kernel

end XPathTaint.Python
