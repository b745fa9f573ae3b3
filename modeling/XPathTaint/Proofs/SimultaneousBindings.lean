import XPathTaint.Proofs.CourseLowering
import XPathTaint.Proofs.NestedStatements
import XPathTaint.Proofs.TaintMemory
import XPathTaint.Python.Source

-- Bindings of one name that count from the same place on, such as those of two targets in one
-- unpacking. The sort by places leaves them in the order in which they were recorded, so the
-- first of them hides the others, although it is the last one that is made at the end.

namespace XPathTaint

/-! ## Bindings at one place -/

/-- The bindings of a name in a scope that count from one byte on, in the order in which they were
recorded. -/
def boundAt (facts : FileFacts) (name : String) (scope : ScopeId) (pos : Nat) : List Binding :=
  facts.bindings.filter fun b => b.scope == scope && b.pos == pos && b.name == name

section

variable {facts : FileFacts} {name : String} {scope : ScopeId} {block : BlockPath} {pos upTo : Nat}

theorem mem_boundAt {b : Binding} : b ∈ boundAt facts name scope pos ↔
    b ∈ facts.bindings ∧ b.scope = scope ∧ b.pos = pos ∧ b.name = name := by
  simp [boundAt, and_assoc]

/-- A list of falling places begins with what stands at the last place. -/
theorem filter_pos_append {bs : List Binding}
    (hfalling : bs.Pairwise fun a b => decide (b.pos ≤ a.pos) = true)
    (hle : ∀ b ∈ bs, b.pos ≤ pos) :
    bs = bs.filter (·.pos == pos) ++ bs.filter fun b => decide (b.pos < pos) := by
  induction bs with
  | nil => rfl
  | cons b rest ih =>
    obtain ⟨hb, hrest⟩ := List.pairwise_cons.mp hfalling
    have hsplit := ih hrest fun c hc => hle c (List.mem_cons_of_mem _ hc)
    by_cases hpos : b.pos = pos
    · rw [List.filter_cons_of_pos (by simp [hpos]), List.filter_cons_of_neg (by simp [hpos]),
        List.cons_append, ← hsplit]
    · -- nothing behind it can stand at the last place
      have hlt : b.pos < pos := Nat.lt_of_le_of_ne (hle b (by simp)) hpos
      have hbelow : ∀ c ∈ b :: rest, c.pos < pos := by
        intro c hc
        rcases List.mem_cons.mp hc with rfl | hc
        · exact hlt
        · exact Nat.lt_of_le_of_lt (of_decide_eq_true (hb c hc)) hlt
      have hnone : (b :: rest).filter (·.pos == pos) = [] :=
        List.filter_eq_nil_iff.mpr fun c hc => by simpa using Nat.ne_of_lt (hbelow c hc)
      have hall : (b :: rest).filter (fun c => decide (c.pos < pos)) = b :: rest :=
        List.filter_eq_self.mpr fun c hc => decide_eq_true (hbelow c hc)
      rw [hnone, hall, List.nil_append]

/-- The sort by places is stable: what stands at one place keeps its order. -/
theorem filter_pos_mergeSort (bs : List Binding) (pos : Nat) :
    (bs.mergeSort fun a b => decide (b.pos ≤ a.pos)).filter (·.pos == pos) =
      bs.filter (·.pos == pos) := by
  have htied : (bs.filter (·.pos == pos)).Pairwise fun a b => decide (b.pos ≤ a.pos) = true := by
    apply List.pairwise_of_forall_mem_list
    intro a ha b hb
    have hapos : a.pos = pos := by simpa using (List.mem_filter.mp ha).2
    have hbpos : b.pos = pos := by simpa using (List.mem_filter.mp hb).2
    simp [hapos, hbpos]
  have hkept := List.sublist_mergeSort (by simp; omega) (by simp; omega) htied List.filter_sublist
  have hsub := hkept.filter (·.pos == pos)
  simp only [List.filter_filter, Bool.and_self] at hsub
  have hlength := ((List.mergeSort_perm bs fun a b => decide (b.pos ≤ a.pos)).filter
    (·.pos == pos)).length_eq
  exact (hsub.eq_of_length hlength.symm).symm

/-- The candidates for a read begin with the bindings at the last place, as they were recorded. -/
theorem earlierBindings_eq (hle : pos ≤ upTo)
    (hlast : ∀ b ∈ facts.bindings, b.scope = scope → b.name = name → b.pos ≤ upTo → b.pos ≤ pos) :
    ∃ before, earlierBindings facts name scope upTo = boundAt facts name scope pos ++ before := by
  have hbound : ∀ b ∈ earlierBindings facts name scope upTo, b.pos ≤ pos := by
    intro b hb
    obtain ⟨hm, hs, hp, hn⟩ := mem_earlierBindings.mp hb
    exact hlast b hm hs hn hp
  have hfalling : (earlierBindings facts name scope upTo).Pairwise
      fun a b => decide (b.pos ≤ a.pos) = true := pairwise_mergeSort_pos _
  have htied : (earlierBindings facts name scope upTo).filter (·.pos == pos) =
      boundAt facts name scope pos := by
    unfold earlierBindings boundAt
    rw [filter_pos_mergeSort, List.filter_filter]
    refine List.filter_congr fun b _ => ?_
    by_cases hpos : b.pos = pos
    · simp [hpos, hle]
    · simp [beq_eq_false_iff_ne.mpr hpos]
  have hsplit := filter_pos_append hfalling hbound
  rw [htied] at hsplit
  exact ⟨_, hsplit⟩

/-- A binding that stands first at the last place and dominates the read is the only candidate. -/
theorem reachingWithCover_of_boundAt {b : Binding} {others : List Binding} (hle : pos ≤ upTo)
    (hlast : ∀ c ∈ facts.bindings, c.scope = scope → c.name = name → c.pos ≤ upTo → c.pos ≤ pos)
    (hbound : boundAt facts name scope pos = b :: others) (hdom : dominates b.block block) :
    reachingWithCover facts name scope block upTo = ([b], true) := by
  obtain ⟨before, heq⟩ := earlierBindings_eq hle hlast
  unfold reachingWithCover
  rw [heq, hbound, List.cons_append, upToCover, if_pos hdom]

/-- The first of the bindings that count from the last place is the first candidate, and all that is
left of them if it dominates the read. Where none of them does they are all candidates, in the order
in which they were recorded. -/
theorem first_candidate {b : Binding} {others : List Binding} (hle : pos ≤ upTo)
    (hlast : ∀ c ∈ facts.bindings, c.scope = scope → c.name = name → c.pos ≤ upTo → c.pos ≤ pos)
    (hbound : boundAt facts name scope pos = b :: others) :
    (reachingBindings facts name scope block upTo).head? = some b ∧
      (dominates b.block block → reachingBindings facts name scope block upTo = [b]) ∧
      ((∀ c ∈ b :: others, dominates c.block block = false) →
        b :: others <+: reachingBindings facts name scope block upTo) := by
  obtain ⟨before, heq⟩ := earlierBindings_eq hle hlast
  have hcovered (hdom : dominates b.block block) :
      reachingBindings facts name scope block upTo = [b] := by
    unfold reachingBindings
    rw [reachingWithCover_of_boundAt hle hlast hbound hdom]
  refine ⟨?_, hcovered, ?_⟩
  · by_cases hdom : dominates b.block block
    · rw [hcovered hdom]
      rfl
    · unfold reachingBindings reachingWithCover
      rw [heq, hbound, List.cons_append, upToCover, if_neg hdom]
      rfl
  · intro hopen
    unfold reachingBindings reachingWithCover
    rw [heq, hbound, upToCover_append hopen]
    exact List.prefix_append _ _

/-! ## Reads behind it -/

variable {reg : Registry} {maxHops : Nat} {e : Expr}

/-- A path is tainted apart from its own bindings: it is a source, or a member of what is
tainted. -/
def TaintedAsMember (facts : FileFacts) (reg : Registry) (maxHops : Nat) (scope : ScopeId)
    (block : BlockPath) (e : Expr) : Prop :=
  (sourceOf facts.symbols reg e).isSome ∨
    ∃ object attr o, e = .member object attr o ∧
      (taintOf facts reg maxHops object scope block).1.isSome

theorem taintOf_path (hids : DistinctIds facts) (hpath : e.dotted = some name) :
    (taintOf facts reg maxHops e scope block).1.isSome ↔
      TaintsRead facts reg scope maxHops block name e.pos ∨
        TaintedAsMember facts reg maxHops scope block e := by
  unfold TaintedAsMember
  rw [taintOf_isSome_iff hids]
  cases e with
  | name id o =>
    obtain rfl : id = name := by simpa [Expr.dotted] using hpath
    simp [carries_name, sourceOf, Expr.pos, Expr.origin]
  | member object attr o =>
    rw [carries_member, hpath]
    simp [taintOf_isSome_iff hids, Expr.pos, Expr.origin, or_left_comm]
  | literal value o => cases hpath
  | subscript value index o => cases hpath
  | call func callee args o => cases hpath
  | compound operands o => cases hpath
  | unknown o => cases hpath

/-- A read behind bindings at one place sees the value of the first of them alone, if that one is
sure to be made. -/
theorem taintOf_path_of_boundAt (hids : DistinctIds facts) {b : Binding} {others : List Binding}
    (hpath : e.dotted = some name) (hle : pos ≤ e.pos)
    (hlast : ∀ c ∈ facts.bindings, c.scope = scope → c.name = name → c.pos ≤ e.pos → c.pos ≤ pos)
    (hbound : boundAt facts name scope pos = b :: others) (hdom : dominates b.block block) :
    (taintOf facts reg (maxHops + 1) e scope block).1.isSome ↔
      (taintOf facts reg maxHops b.value scope b.block).1.isSome ∨
        TaintedAsMember facts reg (maxHops + 1) scope block e := by
  have hcover := reachingWithCover_of_boundAt hle hlast hbound hdom
  have hreads : TaintsRead facts reg scope (maxHops + 1) block name e.pos ↔
      (taintOf facts reg maxHops b.value scope b.block).1.isSome := by
    rw [TaintsRead, reachingBindings, hcover, taintOf_isSome_iff hids]
    simp
  rw [taintOf_path hids hpath, hreads]

end

namespace Python

/-! ## Unpackings -/

/-- A place in a program where targets take values in turn: an assignment, a loop, a `with` or a
clause of a comprehension that unpacks. -/
def Program.Unpacks (path : String) (symbols : Symbols) (p : Program) (ahead : Bool) (pos : Nat)
    (values : List Expr) (targets : List Node) : Prop :=
  (Course.all (orderOf ahead)
    (Node.coursesOfTargets path symbols ahead pos values targets)).PieceOf (p.course path symbols)

/-- An assignment to a sequence, the last one if there are others, is an unpacking. -/
theorem unpacks_of_assign {path : String} {symbols : Symbols} {p : Program} {stop : Nat} {s : Span}
    {others targets : List Node} {value : Node}
    (h : .assign stop (others ++ [.group s .sequence targets]) (some value) ∈ p.statements) :
    p.Unpacks path symbols false stop
      (valuesFor (value.expr path symbols) value.isSequence targets.length) targets := by
  refine Course.PieceOf.trans ?_ (pieceOf_program h)
  rw [Stmt.course, courseOfTargets, List.reverse_append]
  refine .other (.one ?_)
  rw [Node.course]
  exact .self

/-- An item of a container, as a target. -/
structure ItemTarget where
  span : Span
  container : Node
  indices : List Node

namespace ItemTarget

def node (i : ItemTarget) : Node := .subscript i.span i.container i.indices

section

variable (path : String) (symbols : Symbols)

def containerExpr (i : ItemTarget) : Expr := i.container.expr path symbols

/-- What a container is bound to when a value is stored in it: both what it was and the value. -/
def stored (i : ItemTarget) (value : Expr) : Expr :=
  .compound [i.containerExpr path symbols, value] (originIn path i.span)

end

end ItemTarget

section

variable {path : String} {symbols : Symbols} {ahead : Bool} {pos : Nat} {d : String}

/-- What a target of an unpacking is bound to if it is an item of a container. -/
theorem course_item (ahead : Bool) (pos : Nat) (i : ItemTarget) (value : Expr)
    (hd : (i.containerExpr path symbols).dotted = some d) :
    ∃ parts, i.node.course path symbols ahead (.target value false pos) =
      .pair (orderOf ahead) parts (.item (.bind ahead d (i.stored path symbols value) pos
        (i.containerExpr path symbols).place)) := by
  obtain ⟨s, container, indices⟩ := i
  unfold ItemTarget.containerExpr at hd
  refine ⟨.pair .forward (container.course path symbols false .value)
    (Node.courseOfFirst path symbols indices), ?_⟩
  rw [ItemTarget.node, Node.course, Goal.finish, Node.expr, taking]
  simp only [hd]
  rfl

/-- The bindings that an unpacking into items of one container makes: one for each of them. -/
structure Stores (path : String) (symbols : Symbols) (d : String) (pos : Nat) (scope : ScopeId)
    (block : BlockPath) (items : List ItemTarget) (values : List Expr) (made : List Binding) :
    Prop where
  value : made.map (·.value) = List.zipWith (·.stored path symbols) items values
  name : ∀ b ∈ made, b.name = d
  pos : ∀ b ∈ made, b.pos = pos
  scope : ∀ b ∈ made, b.scope = scope
  block : ∀ b ∈ made, b.block = block

theorem stores_nil {items : List ItemTarget} {values : List Expr} {scope : ScopeId}
    {block : BlockPath} (h : items = [] ∨ values = []) :
    Stores path symbols d pos scope block items values [] := by
  refine ⟨?_, by simp, by simp, by simp, by simp⟩
  rcases h with rfl | rfl <;> simp

/-- They are recorded in the order of the items, all in one scope and block. -/
theorem exists_stores (ahead : Bool) (pos : Nat) {items : List ItemTarget} (values : List Expr)
    (hd : ∀ i ∈ items, (i.containerExpr path symbols).dotted = some d) (order : PairOrder)
    (here : Here) (n k : Nat) :
    ∃ made, made.Sublist (((Course.all order (Node.coursesOfTargets path symbols ahead pos values
        (items.map (·.node)))).locate here n k).leaves.filterMap (Mark.binding? path)) ∧
      Stores path symbols d pos here.scope here.block items values made := by
  induction items generalizing values here n k with
  | nil => exact ⟨[], List.nil_sublist _, stores_nil (.inl rfl)⟩
  | cons i rest ih =>
    cases values with
    | nil => exact ⟨[], List.nil_sublist _, stores_nil (.inr rfl)⟩
    | cons value values =>
      obtain ⟨parts, hcourse⟩ := course_item ahead pos i value
        (hd i List.mem_cons_self)
      rw [List.map_cons, Node.coursesOfTargets, Course.all, hcourse]
      set first : Course Item := .pair (orderOf ahead) parts (.item (.bind ahead d
        (i.stored path symbols value) pos (i.containerExpr path symbols).place))
      obtain ⟨made, hsub, hstores⟩ := ih values (fun j hj => hd j (List.mem_cons_of_mem _ hj))
        (here.side order true) (n + first.blocks) (k + first.scopes)
      obtain ⟨id, hb⟩ := FileFacts.numberBinding_eq path
        { id := 0, name := d, value := i.stored path symbols value, scope := here.scope
          block := here.block, pos, place := (i.containerExpr path symbols).place }
      refine ⟨{ id, name := d, value := i.stored path symbols value, scope := here.scope
                block := here.block, pos, place := (i.containerExpr path symbols).place } :: made,
        ?_, ?_⟩
      · rw [Course.locate, Course.leaves, List.filterMap_append, ← List.singleton_append]
        refine List.Sublist.append ?_ hsub
        simp only [first, Course.locate, Course.leaves, List.filterMap_append,
          List.filterMap_cons, List.filterMap_nil, Mark.binding?, Here.side_scope,
          Here.side_block, hb]
        exact List.sublist_append_right _ _
      · obtain ⟨hvalue, hname, hpos, hscope, hblock⟩ := hstores
        simp only [Here.side_scope, Here.side_block] at hscope hblock
        exact ⟨by simp [hvalue], by simpa using hname, by simpa using hpos, by simpa using hscope,
          by simpa using hblock⟩

/-- Bindings among which an unpacking made the last ones are at that place just those. -/
theorem boundAt_of_stores {facts : FileFacts} {scope : ScopeId} {outer : BlockPath}
    {items : List ItemTarget} {values : List Expr} {made : List Binding} (hids : DistinctIds facts)
    (hsub : made.Sublist facts.bindings)
    (hstores : Stores path symbols d pos scope outer items values made)
    (honly : ∀ c ∈ facts.bindings, c.scope = scope → c.name = d → c.pos = pos → c ∈ made) :
    boundAt facts d scope pos = made := by
  have hmade : made.Sublist (boundAt facts d scope pos) := by
    have hkept : made.filter (fun b => b.scope == scope && b.pos == pos && b.name == d) = made :=
      List.filter_eq_self.mpr fun b hb => by
        simp [hstores.scope b hb, hstores.pos b hb, hstores.name b hb]
    rw [← hkept]
    exact hsub.filter _
  have hnodup : (boundAt facts d scope pos).Nodup := (List.Nodup.of_map _ hids).filter _
  have hsubset : boundAt facts d scope pos ⊆ made := by
    intro b hb
    obtain ⟨hm, hscope, hpos, hname⟩ := mem_boundAt.mp hb
    exact honly b hm hscope hname hpos
  exact (hmade.eq_of_length_le (List.subperm_of_subset hnodup hsubset).length_le).symm

end

/-- Of bindings of one name that count from the same place on, a read behind them sees the one that
was recorded first, although the last one is made last. So of the values that an unpacking stores in
items of one container, only the first one taints what is read from the container, besides what the
container was before. -/
theorem the_first_of_simultaneous_bindings_is_seen (path text : String) (marker : Option String)
    (p : Program) (facts : FileFacts) (hfacts : (FileFacts.ofProgram path text marker p).1 = facts)
    (hids : DistinctIds facts) :
    (∀ name scope block pos upTo b others, pos ≤ upTo →
      (∀ c ∈ facts.bindings, c.scope = scope → c.name = name → c.pos ≤ upTo → c.pos ≤ pos) →
      boundAt facts name scope pos = b :: others →
      (reachingBindings facts name scope block upTo).head? = some b ∧
        (dominates b.block block → reachingBindings facts name scope block upTo = [b]) ∧
        ((∀ c ∈ b :: others, dominates c.block block = false) →
          b :: others <+: reachingBindings facts name scope block upTo)) ∧
    ∀ ahead pos values (items : List ItemTarget) d,
      p.Unpacks path facts.symbols ahead pos values (items.map (·.node)) →
      (∀ i ∈ items, (i.containerExpr path facts.symbols).dotted = some d) →
      ∃ made scope outer, made.Sublist facts.bindings ∧
        Stores path facts.symbols d pos scope outer items values made ∧
        ∀ i rest value others, items = i :: rest → values = value :: others →
        ∀ reg maxHops block e, e.dotted = some d → pos ≤ e.pos → dominates outer block →
          (∀ c ∈ facts.bindings, c.scope = scope → c.name = d → c.pos ≤ e.pos →
            c.pos < pos ∨ c ∈ made) →
          ((taintOf facts reg (maxHops + 1) e scope block).1.isSome ↔
            ((taintOf facts reg maxHops (i.containerExpr path facts.symbols) scope outer).1.isSome ∨
              (taintOf facts reg maxHops value scope outer).1.isSome) ∨
            TaintedAsMember facts reg (maxHops + 1) scope block e) := by
  refine ⟨fun name scope block pos upTo b others hle hlast hbound =>
    first_candidate hle hlast hbound, ?_⟩
  intro ahead pos values items d hunpacks hd
  obtain ⟨here, n, k, hleaves⟩ := hunpacks.leaves_locate .ofModule 0 1
  obtain ⟨made, hmade, hstores⟩ := exists_stores ahead pos values hd
    (orderOf ahead) here n k
  have hbindings : facts.bindings =
      (p.located path facts.symbols).leaves.filterMap (Mark.binding? path) := by
    rw [← (lowerProgram_facts path facts.symbols p).2, ← hfacts]
    rfl
  have hsub : made.Sublist facts.bindings := by
    rw [hbindings]
    exact hmade.trans (hleaves.sublist.filterMap _)
  refine ⟨made, here.scope, here.block, hsub, hstores, ?_⟩
  rintro i rest value others rfl rfl reg maxHops block e hpath hle hdom hbefore
  obtain ⟨b, later, rfl⟩ : ∃ b later, made = b :: later := by
    cases made with
    | nil => simpa using hstores.value
    | cons b later => exact ⟨b, later, rfl⟩
  have hvalue : b.value = i.stored path facts.symbols value := by
    have hvalues := hstores.value
    simp only [List.map_cons, List.zipWith_cons_cons, List.cons.injEq] at hvalues
    exact hvalues.1
  have hblock := hstores.block b List.mem_cons_self
  have hbound := boundAt_of_stores hids hsub hstores fun c hc hscope hname hpos =>
    (hbefore c hc hscope hname (by omega)).resolve_left (by omega)
  have hlast : ∀ c ∈ facts.bindings, c.scope = here.scope → c.name = d → c.pos ≤ e.pos →
      c.pos ≤ pos := by
    intro c hc hscope hname hpos
    rcases hbefore c hc hscope hname hpos with hlt | hmem
    · exact Nat.le_of_lt hlt
    · exact Nat.le_of_eq (hstores.pos c hmem)
  rw [taintOf_path_of_boundAt hids hpath hle hlast hbound (by rwa [hblock]), hvalue, hblock,
    ItemTarget.stored, taintOf_isSome_iff hids, carries_compound]
  simp [taintOf_isSome_iff hids]

/-! ## Two stores -/

/-- The items of `d[0], d[1]`. -/
def itemsOfD : List ItemTarget :=
  [⟨⟨0, 4, 1, 1, "d[0]"⟩, .name ⟨0, 1, 1, 1, "d"⟩, [.constant ⟨2, 3, 1, 3, "0"⟩]⟩,
   ⟨⟨6, 10, 1, 7, "d[1]"⟩, .name ⟨6, 7, 1, 7, "d"⟩, [.constant ⟨8, 9, 1, 9, "1"⟩]⟩]

/-- `1, request.args`. -/
def storedValues : Node :=
  .group ⟨13, 28, 1, 14, "1, request.args"⟩ .sequence
    [.constant ⟨13, 14, 1, 14, "1"⟩,
     .member ⟨16, 28, 1, 17, "request.args"⟩ (.name ⟨16, 23, 1, 17, "request"⟩) "args"]

/-- `d[0], d[1] = 1, request.args` and `sink(d)`. -/
def storedTwice : Program :=
  { start := ⟨0, 37, 1, 1, "d[0], d[1] = 1, request.args\nsink(d)\n"⟩, isPartial := false,
    body := [
      .assign 28 [.group ⟨0, 10, 1, 1, "d[0], d[1]"⟩ .sequence (itemsOfD.map (·.node))]
        (some storedValues),
      .values [.call ⟨29, 36, 2, 1, "sink(d)"⟩ (.name ⟨29, 33, 2, 1, "sink"⟩)
        [⟨none, .none, .name ⟨34, 35, 2, 6, "d"⟩⟩]]] }

/-- The facts of the text. -/
def factsOfTwoStores : FileFacts :=
  (FileFacts.ofProgram "a.py" "d[0], d[1] = 1, request.args\nsink(d)\n" none storedTwice).1

/-- A store of a value into the item of `d` that starts at the place. -/
def storeIntoD (item : String) (pos : Nat) (value : Expr) : Binding :=
  let place : Place := ⟨"a.py", 1, pos + 1⟩
  FileFacts.numberBinding "a.py"
    { id := 0, name := "d", scope := moduleScope, block := [], pos := 28, place,
      value := .compound [.name "d" ⟨"d", pos, place⟩, value] ⟨item, pos, place⟩ }

/-- The two stores, in the order of the targets. -/
def storesIntoD : List Binding :=
  [storeIntoD "d[0]" 0 (.literal "1" ⟨"1", 13, ⟨"a.py", 1, 14⟩⟩),
    storeIntoD "d[1]" 6 (.member (.name "request" ⟨"request", 16, ⟨"a.py", 1, 17⟩⟩) "args"
      ⟨"request.args", 16, ⟨"a.py", 1, 17⟩⟩)]

theorem bindings_factsOfTwoStores : factsOfTwoStores.bindings = storesIntoD :=
  (bindings_ofProgram "a.py" _ none storedTwice).trans rfl

theorem boundAt_factsOfTwoStores :
    boundAt factsOfTwoStores "d" moduleScope 28 = storesIntoD := by
  unfold boundAt
  rw [bindings_factsOfTwoStores]
  rfl

/-- The read of `d` in the call. -/
def readOfD : Expr := .name "d" ⟨"d", 34, ⟨"a.py", 2, 6⟩⟩

theorem distinctIds_factsOfTwoStores : DistinctIds factsOfTwoStores := by
  unfold DistinctIds
  decide +kernel

theorem pos_le_of_factsOfTwoStores : ∀ b ∈ factsOfTwoStores.bindings, b.scope = moduleScope →
    b.name = "d" → b.pos ≤ readOfD.pos → b.pos ≤ 28 := by
  decide +kernel

theorem the_first_of_simultaneous_bindings_is_seen_of_two_stores :
    DistinctIds factsOfTwoStores ∧
      storedTwice.Unpacks "a.py" factsOfTwoStores.symbols false 28
        (valuesFor (storedValues.expr "a.py" factsOfTwoStores.symbols) true 2)
        (itemsOfD.map (·.node)) ∧
      ∃ b c, factsOfTwoStores.bindings = [b, c] ∧ b.pos = c.pos ∧ b.place ≠ c.place ∧
        reachingBindings factsOfTwoStores "d" moduleScope [] 34 = [b] ∧
        ((taintOf factsOfTwoStores .builtin 5 readOfD moduleScope []).1.isSome ↔
          ((taintOf factsOfTwoStores .builtin 4 (.name "d" ⟨"d", 0, ⟨"a.py", 1, 1⟩⟩) moduleScope
              []).1.isSome ∨
            (taintOf factsOfTwoStores .builtin 4 (.literal "1" ⟨"1", 13, ⟨"a.py", 1, 14⟩⟩)
              moduleScope []).1.isSome) ∨
          TaintedAsMember factsOfTwoStores .builtin 5 moduleScope [] readOfD) := by
  obtain ⟨hfirst, hstored⟩ := the_first_of_simultaneous_bindings_is_seen "a.py"
    "d[0], d[1] = 1, request.args\nsink(d)\n" none storedTwice factsOfTwoStores rfl
    distinctIds_factsOfTwoStores
  have hassign : .assign 28 ([] ++ [.group ⟨0, 10, 1, 1, "d[0], d[1]"⟩ .sequence
      (itemsOfD.map (·.node))]) (some storedValues) ∈ storedTwice.statements := List.mem_cons_self
  have hunpacks : storedTwice.Unpacks "a.py" factsOfTwoStores.symbols false 28
      (valuesFor (storedValues.expr "a.py" factsOfTwoStores.symbols) true 2)
      (itemsOfD.map (·.node)) := unpacks_of_assign hassign
  obtain ⟨made, scope, outer, hsub, hstores, hreads⟩ := hstored false 28 _ itemsOfD "d" hunpacks
    (by simp [itemsOfD, ItemTarget.containerExpr, Node.expr, Expr.dotted])
  obtain ⟨b, c, hbindings, hb, hc⟩ : ∃ b c, factsOfTwoStores.bindings = [b, c] ∧
      (b.name, b.scope, b.block, b.pos, b.place) = ("d", moduleScope, [], 28, ⟨"a.py", 1, 1⟩) ∧
      (c.name, c.scope, c.block, c.pos, c.place) = ("d", moduleScope, [], 28, ⟨"a.py", 1, 7⟩) :=
    ⟨_, _, bindings_factsOfTwoStores, rfl, rfl⟩
  simp only [Prod.mk.injEq] at hb hc
  obtain ⟨_, hbscope, hbblock, hbpos, hbplace⟩ := hb
  obtain ⟨_, _, _, hcpos, hcplace⟩ := hc
  rw [hbindings] at hsub
  obtain rfl : made = [b, c] := by
    have hlength := congrArg List.length hstores.value
    rw [List.length_map] at hlength
    exact hsub.eq_of_length hlength
  obtain rfl : scope = moduleScope := (hstores.scope b List.mem_cons_self).symm.trans hbscope
  obtain rfl : outer = [] := (hstores.block b List.mem_cons_self).symm.trans hbblock
  have hbound : boundAt factsOfTwoStores "d" moduleScope 28 = [b, c] :=
    boundAt_factsOfTwoStores.trans (bindings_factsOfTwoStores.symm.trans hbindings)
  obtain ⟨_, honly, _⟩ := hfirst "d" moduleScope [] 28 34 b [c] (by decide)
    pos_le_of_factsOfTwoStores hbound
  refine ⟨distinctIds_factsOfTwoStores, hunpacks, b, c, hbindings, by rw [hbpos, hcpos], ?_, ?_, ?_⟩
  · simp [hbplace, hcplace]
  · exact honly (by rw [hbblock]; rfl)
  · refine hreads _ _ _ _ rfl rfl .builtin 4 [] readOfD rfl (by decide) rfl ?_
    intro x hx _ _ _
    rw [hbindings] at hx
    exact .inr hx

/-- The second value is tainted and stored last, but the container is not tainted. -/
theorem the_second_of_two_stores_is_not_seen :
    ∃ b c, factsOfTwoStores.bindings = [b, c] ∧
      (b.name, b.scope, b.block, b.pos) = (c.name, c.scope, c.block, c.pos) ∧
      (reachingBindings factsOfTwoStores "d" moduleScope [] 34).head? = some b ∧
      b.place ≠ c.place ∧
      (taintOf factsOfTwoStores .builtin 5 c.value moduleScope []).1.isSome = true ∧
      (taintOf factsOfTwoStores .builtin 5 readOfD moduleScope []).1.isSome = false := by
  refine ⟨_, _, bindings_factsOfTwoStores, rfl, ?_, ?_, ?_, ?_⟩
  · exact (first_candidate (by decide : 28 ≤ 34) pos_le_of_factsOfTwoStores
      boundAt_factsOfTwoStores).1
  · decide +kernel
  · decide +kernel
  · -- neither what `d` was before nor the first value is tainted, and `d` is no source
    rw [Bool.eq_false_iff, ne_eq, taintOf_path_of_boundAt distinctIds_factsOfTwoStores rfl
      (by decide : 28 ≤ readOfD.pos) pos_le_of_factsOfTwoStores boundAt_factsOfTwoStores rfl]
    rintro (hfirst | hsource | ⟨object, attr, o, hmember, _⟩)
    · revert hfirst
      decide +kernel
    · revert hsource
      decide +kernel
    · cases hmember

end Python

end XPathTaint
