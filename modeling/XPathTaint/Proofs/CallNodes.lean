import XPathTaint.Proofs.SyntaxInduction

-- Every call of a program, in the order in which calls are made, with the definition whose
-- body it stands in. The lowering does not look everywhere: it passes over the indices behind
-- the first, the values in formats, the sources of a loop behind the first, the subjects
-- behind the first, the conditions of cases, what follows the name of a handler, the target
-- of a mere annotation, and what stands behind a comment that takes its place. A call there
-- is not read.

namespace XPathTaint.Python

/-! ## Standing -/

def placeIn (path : String) (s : Span) : Place := ⟨path, s.line, s.column⟩

/-- The definitions around a piece of a program, outermost first, and where the innermost of
them starts. -/
structure Owner where
  names : List String
  start : Span
  deriving DecidableEq

/-- How a piece of a program stands in it: the definition around it, whether it is read at
all, and whether it is bound to a value. -/
structure Standing where
  owner : Owner
  isRead : Bool
  isTarget : Bool

namespace Owner

/-- The name of the scope of a definition. -/
def name (o : Owner) : String :=
  if o.names = [] then "<module>" else ".".intercalate o.names

/-- The body of a definition. -/
def inside (o : Owner) (name : String) (start : Span) : Owner := ⟨o.names ++ [name], start⟩

def value (o : Owner) : Standing := ⟨o, true, false⟩

def target (o : Owner) : Standing := ⟨o, true, true⟩

def ignored (o : Owner) : Standing := ⟨o, false, false⟩

end Owner

namespace Standing

def value (st : Standing) : Standing := { st with isTarget := false }

def ignored (st : Standing) : Standing := { st with isRead := false }

/-- Behind a bracket or star: a comment there takes the place of a target. -/
def behind (st : Standing) (lead : Option Span) : Standing :=
  if st.isTarget && lead.isSome then st.ignored else st

/-- A part of a group: only a sequence is unpacked. -/
def part (st : Standing) : GroupForm → Standing
  | .sequence => st
  | _ => st.value

def inside (st : Standing) (name : String) (start : Span) : Standing :=
  { st with owner := st.owner.inside name start, isTarget := false }

end Standing

/-! ## Calls -/

/-- A call in a program, the definition around it, and whether the lowering comes by it. -/
structure CallNode where
  span : Span
  func : Node
  args : List (ArgumentOf Node)
  owner : Owner
  isRead : Bool

mutual

/-- The calls in a node. -/
def Node.calls (st : Standing) : Node → List CallNode
  | .name _ => []
  | .constant _ => []
  | .string _ values formats =>
    Node.callsOfAll st.value values ++ Node.callsOfAll st.ignored formats
  | .strings _ parts => Node.callsOfAll st.value parts
  | .member _ object _ => object.calls st.value
  | .subscript _ value indices => value.calls st.value ++ Node.callsOfFirst st.value indices
  | .call span func args =>
    func.calls st.value ++
      (Node.callsOfArguments st.value args ++ [⟨span, func, args, st.owner, st.isRead⟩])
  | .paren _ lead inner => inner.calls (st.behind lead)
  | .starred _ lead inner => inner.calls (st.behind lead)
  | .hidden _ inner => inner.calls st.ignored
  | .walrus _ _ value => value.calls st.value
  | .aliased _ value _ target => value.calls st.value ++ target.calls st.value
  | .lambda start _ defaults body =>
    Node.callsOfAll st.value defaults ++ body.calls (st.inside "<lambda>" start)
  | .comprehension _ body clauses => Node.callsOfClauses st.value clauses ++ body.calls st.value
  | .test _ parts => Node.callsOfAll st.value parts
  | .group _ form parts => Node.callsOfAll (st.part form) parts

def Node.callsOfAll (st : Standing) : List Node → List CallNode
  | [] => []
  | node :: rest => node.calls st ++ Node.callsOfAll st rest

/-- The calls in nodes of which only the first is read. -/
def Node.callsOfFirst (st : Standing) : List Node → List CallNode
  | [] => []
  | node :: rest => node.calls st ++ Node.callsOfAll st.ignored rest

def Node.callsOfArguments (st : Standing) : List (ArgumentOf Node) → List CallNode
  | [] => []
  | ⟨_, _, value⟩ :: rest => value.calls st ++ Node.callsOfArguments st rest

def Node.callsOfClauses (st : Standing) : List (ClauseOf Node) → List CallNode
  | [] => []
  | .loop target sources :: rest =>
    Node.callsOfFirst st sources ++
      (target.calls { st with isTarget := true } ++ Node.callsOfClauses st rest)
  | .guard condition :: rest => condition.calls st ++ Node.callsOfClauses st rest

end

/-- The calls in a resource of a `with`, which may be bound. -/
def Node.callsOfItem (o : Owner) : Node → List CallNode
  | .aliased _ value _ target => value.calls o.value ++ target.calls o.target
  | item => item.calls o.value

def Head.calls (o : Owner) : Head → List CallNode
  | .plain => []
  | .condition value => value.calls o.value
  | .handler kind target others =>
    Node.callsOfAll o.value kind.toList ++
      (Node.callsOfAll o.target target.toList ++ Node.callsOfAll o.ignored others)
  | .guard value => value.calls o.ignored

mutual

/-- The calls in a statement. -/
def Stmt.calls (o : Owner) : Stmt → List CallNode
  | .values parts => Node.callsOfAll o.value parts
  | .assign _ targets none => Node.callsOfAll o.ignored targets
  | .assign _ targets (some value) =>
    value.calls o.value ++ Node.callsOfAll o.target targets.reverse
  | .augmented _ target value => target.calls o.value ++ value.calls o.value
  | .imports _ => []
  | .choice condition body branches =>
    condition.calls o.value ++ (Stmt.callsOfAll o body ++ Stmt.callsOfBranches o branches)
  | .whileLoop condition body branches =>
    condition.calls o.value ++ (Stmt.callsOfAll o body ++ Stmt.callsOfBranches o branches)
  | .forLoop target source body branches =>
    source.calls o.value ++
      (target.calls o.target ++ (Stmt.callsOfAll o body ++ Stmt.callsOfBranches o branches))
  | .attempt body branches final =>
    Stmt.callsOfAll o body ++ (Stmt.callsOfBranches o branches ++ Stmt.callsOfAll o final)
  | .withItems items body => items.flatMap (Node.callsOfItem o) ++ Stmt.callsOfAll o body
  | .cases subjects branches =>
    Node.callsOfFirst o.value subjects ++ Stmt.callsOfBranches o branches
  | .functionDef start name _ defaults body =>
    Node.callsOfAll o.value defaults ++ Stmt.callsOfAll (o.inside name start) body
  | .classDef start name bases body =>
    Node.callsOfArguments o.value bases ++ Stmt.callsOfAll (o.inside name start) body
  | .decorated decorators definition => Node.callsOfAll o.value decorators ++ definition.calls o

def Stmt.callsOfAll (o : Owner) : List Stmt → List CallNode
  | [] => []
  | stmt :: rest => stmt.calls o ++ Stmt.callsOfAll o rest

def Stmt.callsOfBranches (o : Owner) : List (BranchOf Stmt) → List CallNode
  | [] => []
  | ⟨head, body⟩ :: rest =>
    head.calls o ++ (Stmt.callsOfAll o body ++ Stmt.callsOfBranches o rest)

end

/-- The module is the owner of what no definition owns. -/
def Program.owner (p : Program) : Owner := ⟨[], p.start⟩

/-- The calls in a program. -/
def Program.calls (p : Program) : List CallNode := Stmt.callsOfAll p.owner p.body

/-! ## Where a call in a node is -/

section

variable {st : Standing} {c : CallNode}

theorem exists_of_callsOfAll {ns : List Node} (h : c ∈ Node.callsOfAll st ns) :
    ∃ n ∈ ns, c ∈ n.calls st := by
  induction ns with
  | nil => simp [Node.callsOfAll] at h
  | cons n rest ih =>
    rw [Node.callsOfAll] at h
    rcases List.mem_append.mp h with h | h
    · exact ⟨n, by simp, h⟩
    · obtain ⟨m, hm, h⟩ := ih h
      exact ⟨m, List.mem_cons_of_mem _ hm, h⟩

theorem mem_callsOfAll {ns : List Node} {n : Node} (hn : n ∈ ns) (hc : c ∈ n.calls st) :
    c ∈ Node.callsOfAll st ns := by
  induction ns with
  | nil => simp at hn
  | cons m rest ih =>
    rw [Node.callsOfAll]
    rcases List.mem_cons.mp hn with rfl | hn
    · exact List.mem_append_left _ hc
    · exact List.mem_append_right _ (ih hn)

/-- A call stands in a node, and is not read there if nothing is read at `st`. -/
def Node.Holds (st : Standing) (c : CallNode) (n : Node) : Prop :=
  ∃ st' : Standing, (st.isRead = false → st'.isRead = false) ∧ c ∈ n.calls st'

theorem Node.Holds.intro {n : Node} {st' : Standing} (h : c ∈ n.calls st')
    (hst : st.isRead = false → st'.isRead = false) : n.Holds st c := ⟨st', hst, h⟩

theorem exists_of_callsOfFirst {ns : List Node} (h : c ∈ Node.callsOfFirst st ns) :
    ∃ n ∈ ns, n.Holds st c := by
  cases ns with
  | nil => simp [Node.callsOfFirst] at h
  | cons n rest =>
    rw [Node.callsOfFirst] at h
    rcases List.mem_append.mp h with h | h
    · exact ⟨n, by simp, .intro h id⟩
    · obtain ⟨m, hm, h⟩ := exists_of_callsOfAll h
      exact ⟨m, List.mem_cons_of_mem _ hm, .intro h fun _ => rfl⟩

theorem exists_of_callsOfArguments {args : List (ArgumentOf Node)}
    (h : c ∈ Node.callsOfArguments st args) : ∃ arg ∈ args, c ∈ arg.value.calls st := by
  induction args with
  | nil => simp [Node.callsOfArguments] at h
  | cons arg rest ih =>
    rw [Node.callsOfArguments] at h
    rcases List.mem_append.mp h with h | h
    · exact ⟨arg, by simp, h⟩
    · obtain ⟨m, hm, h⟩ := ih h
      exact ⟨m, List.mem_cons_of_mem _ hm, h⟩

theorem exists_of_callsOfClauses {clauses : List (ClauseOf Node)}
    (h : c ∈ Node.callsOfClauses st clauses) : ∃ n ∈ clauses.flatMap (·.parts), n.Holds st c := by
  induction clauses with
  | nil => simp [Node.callsOfClauses] at h
  | cons clause rest ih =>
    rw [List.flatMap_cons]
    cases clause with
    | loop target sources =>
      rw [Node.callsOfClauses] at h
      rcases List.mem_append.mp h with h | h
      · obtain ⟨m, hm, h⟩ := exists_of_callsOfFirst h
        exact ⟨m, List.mem_append_left _ (List.mem_cons_of_mem _ hm), h⟩
      · rcases List.mem_append.mp h with h | h
        · exact ⟨target, List.mem_append_left _ List.mem_cons_self, .intro h id⟩
        · obtain ⟨m, hm, h⟩ := ih h
          exact ⟨m, List.mem_append_right _ hm, h⟩
    | guard condition =>
      rw [Node.callsOfClauses] at h
      rcases List.mem_append.mp h with h | h
      · exact ⟨condition, List.mem_append_left _ List.mem_cons_self, .intro h id⟩
      · obtain ⟨m, hm, h⟩ := ih h
        exact ⟨m, List.mem_append_right _ hm, h⟩

theorem Standing.behind_isRead (lead : Option Span) (h : st.isRead = false) :
    (st.behind lead).isRead = false := by
  unfold Standing.behind
  split
  · rfl
  · exact h

/-- A call in a node is the node itself or stands in a node right below it. -/
theorem exists_of_calls (n : Node) (h : c ∈ n.calls st) :
    (n = .call c.span c.func c.args ∧ c.isRead = st.isRead) ∨ ∃ m ∈ n.parts, m.Holds st c := by
  cases n with
  | name s => simp [Node.calls] at h
  | constant s => simp [Node.calls] at h
  | string s values formats =>
    rw [Node.calls] at h
    rcases List.mem_append.mp h with h | h
    · obtain ⟨m, hm, h⟩ := exists_of_callsOfAll h
      exact Or.inr ⟨m, List.mem_append_left _ hm, .intro h id⟩
    · obtain ⟨m, hm, h⟩ := exists_of_callsOfAll h
      exact Or.inr ⟨m, List.mem_append_right _ hm, .intro h fun _ => rfl⟩
  | strings s parts =>
    rw [Node.calls] at h
    obtain ⟨m, hm, h⟩ := exists_of_callsOfAll h
    exact Or.inr ⟨m, hm, .intro h id⟩
  | member s object attr =>
    rw [Node.calls] at h
    exact Or.inr ⟨object, List.mem_cons_self, .intro h id⟩
  | subscript s value indices =>
    rw [Node.calls] at h
    rcases List.mem_append.mp h with h | h
    · exact Or.inr ⟨value, List.mem_cons_self, .intro h id⟩
    · obtain ⟨m, hm, h⟩ := exists_of_callsOfFirst h
      exact Or.inr ⟨m, List.mem_cons_of_mem _ hm, h⟩
  | call s func args =>
    rw [Node.calls] at h
    rcases List.mem_append.mp h with h | h
    · exact Or.inr ⟨func, List.mem_cons_self, .intro h id⟩
    · rcases List.mem_append.mp h with h | h
      · obtain ⟨arg, harg, h⟩ := exists_of_callsOfArguments h
        exact Or.inr ⟨arg.value, List.mem_cons_of_mem _ (List.mem_map_of_mem harg), .intro h id⟩
      · obtain rfl := List.mem_singleton.mp h
        exact Or.inl ⟨rfl, rfl⟩
  | paren s lead inner =>
    rw [Node.calls] at h
    exact Or.inr ⟨inner, List.mem_cons_self, .intro h (Standing.behind_isRead lead)⟩
  | starred s lead inner =>
    rw [Node.calls] at h
    exact Or.inr ⟨inner, List.mem_cons_self, .intro h (Standing.behind_isRead lead)⟩
  | hidden comment inner =>
    rw [Node.calls] at h
    exact Or.inr ⟨inner, List.mem_cons_self, .intro h fun _ => rfl⟩
  | walrus s target value =>
    rw [Node.calls] at h
    exact Or.inr ⟨value, List.mem_cons_self, .intro h id⟩
  | aliased s value targetSpan target =>
    rw [Node.calls] at h
    rcases List.mem_append.mp h with h | h
    · exact Or.inr ⟨value, List.mem_cons_self, .intro h id⟩
    · exact Or.inr ⟨target, List.mem_cons_of_mem _ List.mem_cons_self, .intro h id⟩
  | lambda s params defaults body =>
    rw [Node.calls] at h
    rcases List.mem_append.mp h with h | h
    · obtain ⟨m, hm, h⟩ := exists_of_callsOfAll h
      exact Or.inr ⟨m, List.mem_append_left _ hm, .intro h id⟩
    · exact Or.inr ⟨body, List.mem_append_right _ List.mem_cons_self, .intro h id⟩
  | comprehension s body clauses =>
    rw [Node.calls] at h
    rcases List.mem_append.mp h with h | h
    · obtain ⟨m, hm, h⟩ := exists_of_callsOfClauses h
      exact Or.inr ⟨m, List.mem_cons_of_mem _ hm, h⟩
    · exact Or.inr ⟨body, List.mem_cons_self, .intro h id⟩
  | test s parts =>
    rw [Node.calls] at h
    obtain ⟨m, hm, h⟩ := exists_of_callsOfAll h
    exact Or.inr ⟨m, hm, .intro h id⟩
  | group s form parts =>
    rw [Node.calls] at h
    obtain ⟨m, hm, h⟩ := exists_of_callsOfAll h
    refine Or.inr ⟨m, hm, .intro h fun hst => ?_⟩
    cases form <;> exact hst

end

/-! ## Calls that are passed over -/

def NoneRead (cs : List CallNode) : Prop := ∀ c ∈ cs, c.isRead = false

theorem noneRead_nil : NoneRead [] := by simp [NoneRead]

/-- Where nothing is read, no call inside is. -/
theorem noneRead_calls (n : Node) {st : Standing} (hst : st.isRead = false) :
    NoneRead (n.calls st) := by
  induction n using Node.partsInd generalizing st with
  | step n ih =>
    intro c hc
    rcases exists_of_calls n hc with ⟨_, hread⟩ | ⟨m, hm, st', hst', hc⟩
    · exact hread.trans hst
    · exact ih m hm (hst' hst) c hc

theorem noneRead_ignored {ns : List Node} {st : Standing} (hst : st.isRead = false) :
    NoneRead (Node.callsOfAll st ns) := by
  intro c hc
  obtain ⟨n, _, hc⟩ := exists_of_callsOfAll hc
  exact noneRead_calls n hst c hc

end XPathTaint.Python
