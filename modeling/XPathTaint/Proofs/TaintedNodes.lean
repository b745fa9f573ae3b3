import XPathTaint.Proofs.PlainLowering
import XPathTaint.Proofs.RequestSources

-- What the taint of a node means for its expression. The expression spells the paths that the node
-- does, and reads a request where the node does. So taint that comes to a node comes to its
-- expression too, unless it does through a part that the expression leaves out.

namespace XPathTaint.Python

variable {path : String} {symbols : Symbols} {reg : Registry} {env : List String} {n : Node}

/-! ## Parts of nodes -/

theorem areTainted_iff {ns : List Node} :
    Node.areTainted symbols reg env ns = true ↔ ∃ n ∈ ns, n.isTainted symbols reg env = true := by
  induction ns with
  | nil => simp [Node.areTainted]
  | cons n rest ih => simp [Node.areTainted, ih]

theorem argumentsTainted_iff {args : List (ArgumentOf Node)} :
    Node.argumentsTainted symbols reg env args = true ↔
      ∃ arg ∈ args, arg.value.isTainted symbols reg env = true := by
  induction args with
  | nil => simp [Node.argumentsTainted]
  | cons arg rest ih =>
    obtain ⟨keyword, splat, value⟩ := arg
    simp [Node.argumentsTainted, ih]

theorem hasTaintedReceiver_eq (n : Node) :
    n.hasTaintedReceiver symbols reg env = n.receiver?.any (·.isTainted symbols reg env) := by
  induction n using Node.ind <;> simp_all [Node.hasTaintedReceiver, Node.receiver?]

/-- A method is called on a node inside of it. -/
theorem mem_nodes_of_receiver {object : Node} (h : n.receiver? = some object) :
    object ∈ n.nodes := by
  induction n using Node.ind with
  | member s inner attr =>
    obtain rfl := Option.some.inj h
    exact mem_nodes_of_part List.mem_cons_self (self_mem_nodes _)
  | paren s lead inner ih => exact mem_nodes_of_part List.mem_cons_self (ih h)
  | walrus s target value ih => exact mem_nodes_of_part List.mem_cons_self (ih h)
  | _ => cases h

theorem Node.DropsNoTaint.inside {m : Node} (h : n.DropsNoTaint symbols reg env)
    (hm : ∀ k ∈ m.nodes, k ∈ n.nodes) : m.DropsNoTaint symbols reg env :=
  fun k hk => h k (hm k hk)

/-! ## Paths and receivers -/

theorem receiver?_expr (n : Node) :
    (n.expr path symbols).receiver? = n.receiver?.map (·.expr path symbols) := by
  induction n using Node.ind with
  | string s values formats => rw [Node.expr]; split <;> rfl
  | strings s parts =>
    rcases joinStrings_eq (originIn path s) (Node.exprs path symbols parts) with ⟨value, h⟩ | h <;>
      rw [Node.expr, h] <;> rfl
  | paren s lead inner ih => exact ih
  | walrus s target value ih => exact ih
  | _ => rfl

/-- What a call of a node is recorded to call. -/
theorem callee_expr (func : Node) :
    (func.expr path symbols).dotted.map symbols.canonical = func.canonical? symbols := by
  rw [dotted_expr, Node.canonical?]

theorem canonicalOf_expr (n : Node) :
    canonicalOf symbols (n.expr path symbols) = n.canonical? symbols := callee_expr n

/-- A method of what has a path has a path. -/
theorem exists_path_of_receiver {object : Node} {p : String} (hobject : n.receiver? = some object)
    (hp : object.canonical? symbols = some p) : ∃ whole, n.canonical? symbols = some whole := by
  induction n using Node.ind with
  | member s inner attr =>
    obtain rfl := Option.some.inj hobject
    obtain ⟨spelled, hspelled, rfl⟩ := Option.map_eq_some_iff.mp hp
    refine ⟨symbols.canonical (spelled ++ "." ++ attr), ?_⟩
    rw [Node.canonical?, Node.path?, hspelled]
    rfl
  | paren s lead inner ih => exact ih hobject
  | walrus s target value ih => exact ih hobject
  | _ => cases hobject

/-! ## Sources -/

theorem isOwnMember_bodyMethods (reg : Registry) (p : String) :
    isOwnMember reg Registry.bodyMethods p = (bodyRead reg p).isSome := by
  unfold isOwnMember bodyRead
  rcases requestMember reg p with _ | ⟨request, method⟩
  · rfl
  · dsimp only [Option.any_some]
    split <;> simp_all

/-- What a node reads from a request its expression does. -/
theorem isSome_sourceOf_expr (h : n.isSource symbols reg = true) :
    (sourceOf symbols reg (n.expr path symbols)).isSome := by
  cases n with
  | member s object attr =>
    have hpath : canonicalOf symbols (.member (object.expr path symbols) attr (originIn path s)) =
        (Node.member s object attr).canonical? symbols := canonicalOf_expr (.member s object attr)
    rw [Node.isSource, Option.any_eq_true] at h
    obtain ⟨p, hp, h⟩ := h
    rw [Node.expr, sourceOf, hpath, hp]
    dsimp only
    cases hinput : inputCollection reg p with
    | some source => rfl
    | none =>
      rw [hinput, Option.isSome_none, Bool.false_or, isOwnMember, Option.any_eq_true] at h
      obtain ⟨m, hm, hbody⟩ := h
      simp only [hm, hbody, if_true, Option.isSome_some]
  | subscript s value indices =>
    rw [Node.isSource, Option.any_eq_true] at h
    obtain ⟨p, hp, hinput⟩ := h
    rw [Node.expr, sourceOf, canonicalOf_expr, hp]
    exact hinput
  | call s func args =>
    rw [Node.isSource, Bool.or_eq_true, Option.any_eq_true, Option.any_eq_true] at h
    rw [Node.expr, callee_expr]
    rcases h with ⟨p, hp, hbody⟩ | ⟨p, hp, hinput⟩
    · rw [hp, sourceOf_call, Option.isSome_or, ← isOwnMember_bodyMethods, hbody, Bool.true_or]
    · obtain ⟨object, hobject, hp⟩ := Option.bind_eq_some_iff.mp hp
      have hreceiver : (func.expr path symbols).receiver? = some (object.expr path symbols) := by
        rw [receiver?_expr, hobject, Option.map_some]
      have hcanonical : canonicalOf symbols (object.expr path symbols) = some p := by
        rw [canonicalOf_expr, hp]
      obtain ⟨whole, hwhole⟩ := exists_path_of_receiver hobject hp
      rw [hwhole, sourceOf_call, hreceiver, Option.bind_some, hcanonical, Option.bind_some,
        Option.isSome_or, hinput, Bool.or_true]
  | _ => cases h

/-! ## Taint -/

variable {reads : String → Nat → Prop}

theorem carries_joinStrings {o : Origin} {parts : List Expr}
    (h : Carries symbols reg reads (.compound parts o)) :
    Carries symbols reg reads (joinStrings o parts) := by
  unfold joinStrings
  split
  · rename_i hliterals
    obtain ⟨e, he, hcarries⟩ := (carries_compound parts o).mp h
    have hliteral := List.all_eq_true.mp hliterals e he
    cases e <;> simp_all [Expr.isLiteral, Carries, sourceOf]
  · exact h

theorem carries_of_isSource (h : n.isSource symbols reg = true) :
    Carries symbols reg reads (n.expr path symbols) := by
  rw [Carries.eq_def]
  exact .inl (isSome_sourceOf_expr h)

theorem carries_exprs {ns : List Node} {o : Origin} (h : Node.areTainted symbols reg env ns = true)
    (hns : ∀ m ∈ ns, m.isTainted symbols reg env = true →
      Carries symbols reg reads (m.expr path symbols)) :
    Carries symbols reg reads (.compound (Node.exprs path symbols ns) o) := by
  obtain ⟨m, hm, h⟩ := areTainted_iff.mp h
  rw [carries_compound, exprs_eq_map]
  exact ⟨_, List.mem_map_of_mem hm, hns m hm h⟩

/-- A tainted value in an f-string is one that is put into it, or is left out of its expression. -/
theorem areTainted_of_string {s : Span} {values formats : List Node}
    (hdrops : (Node.string s values formats).DropsNoTaint symbols reg env)
    (h : (Node.string s values formats).isTainted symbols reg env = true) :
    Node.areTainted symbols reg env values = true := by
  rw [Node.isTainted, Bool.or_eq_true] at h
  refine h.resolve_right fun hformats => ?_
  obtain ⟨m, hm, h⟩ := areTainted_iff.mp hformats
  cases (hdrops _ (self_mem_nodes _) m hm).symm.trans h

/-- A call carries what its receiver and its arguments do. -/
theorem carries_call_of_inside {s : Span} {func : Node} {args : List (ArgumentOf Node)}
    (hinside : ∀ m ∈ (Node.call s func args).parts, ∀ k ∈ m.nodes,
      k.isTainted symbols reg env = true → Carries symbols reg reads (k.expr path symbols))
    (h : (Node.call s func args).isTainted symbols reg env = true) :
    Carries symbols reg reads ((Node.call s func args).expr path symbols) := by
  rw [Node.isTainted, Bool.or_eq_true, Bool.and_eq_true, Bool.or_eq_true] at h
  rcases h with h | ⟨hkeeps, h⟩
  · exact carries_of_isSource h
  · rw [Node.expr, carries_call, callee_expr]
    refine .inr ⟨?_, ?_⟩
    · cases hp : func.canonical? symbols <;> simp_all
    · rcases h with h | h
      · rw [hasTaintedReceiver_eq, Option.any_eq_true] at h
        obtain ⟨object, hobject, h⟩ := h
        refine .inl ⟨object.expr path symbols, ?_, ?_⟩
        · rw [receiver?_expr, hobject, Option.map_some]
        · exact hinside func List.mem_cons_self object (mem_nodes_of_receiver hobject) h
      · obtain ⟨arg, harg, h⟩ := argumentsTainted_iff.mp h
        have hmem : arg.value ∈ (Node.call s func args).parts :=
          List.mem_cons_of_mem _ (List.mem_map_of_mem harg)
        rw [arguments_eq_map]
        exact .inr ⟨_, List.mem_map_of_mem harg, hinside _ hmem _ (self_mem_nodes _) h⟩

/-- A node carries what is tainted in it if the nodes inside of it do. -/
theorem carries_of_inside (hreads : ∀ s, n = .name s → s.text ∈ env → reads s.text s.pos)
    (hdrops : n.DropsNoTaint symbols reg env)
    (hinside : ∀ m ∈ n.parts, ∀ k ∈ m.nodes, k.isTainted symbols reg env = true →
      Carries symbols reg reads (k.expr path symbols))
    (h : n.isTainted symbols reg env = true) :
    Carries symbols reg reads (n.expr path symbols) := by
  have hpart : ∀ m ∈ n.parts, m.isTainted symbols reg env = true →
      Carries symbols reg reads (m.expr path symbols) :=
    fun m hm => hinside m hm m (self_mem_nodes m)
  cases n with
  | name s =>
    rw [Node.expr, carries_name]
    exact hreads s rfl (List.contains_iff_mem.mp h)
  | constant s => cases h
  | string s values formats =>
    have hvalues := areTainted_of_string hdrops h
    have hsome : ¬values.isEmpty = true := by
      intro hnone
      rw [List.isEmpty_iff.mp hnone] at hvalues
      cases hvalues
    rw [Node.expr, if_neg hsome]
    exact carries_exprs hvalues fun m hm => hpart m (List.mem_append_left _ hm)
  | strings s parts =>
    rw [Node.expr]
    exact carries_joinStrings (carries_exprs h hpart)
  | member s object attr =>
    rw [Node.isTainted, Bool.or_eq_true] at h
    rcases h with h | h
    · exact carries_of_isSource h
    · rw [Node.expr, carries_member]
      exact .inr (.inr (hpart object List.mem_cons_self h))
  | subscript s value indices =>
    rw [Node.isTainted, Bool.or_eq_true] at h
    rcases h with h | h
    · exact carries_of_isSource h
    · rw [Node.expr, carries_subscript]
      exact .inr (hpart value List.mem_cons_self h)
  | call s func args => exact carries_call_of_inside hinside h
  | paren s lead inner => exact hpart inner List.mem_cons_self h
  | starred s lead inner =>
    rw [Node.expr, carries_compound]
    exact ⟨_, List.mem_cons_self, hpart inner List.mem_cons_self h⟩
  | hidden comment inner =>
    cases (hdrops _ (self_mem_nodes _) inner List.mem_cons_self).symm.trans h
  | walrus s target value => exact hpart value List.mem_cons_self h
  | aliased s value targetSpan target =>
    rw [Node.isTainted, Bool.or_eq_true] at h
    rw [Node.expr, carries_compound]
    rcases h with h | h
    · exact ⟨_, List.mem_cons_self, hpart value List.mem_cons_self h⟩
    · have hmem : target ∈ (Node.aliased s value targetSpan target).parts :=
        List.mem_cons_of_mem _ List.mem_cons_self
      refine ⟨_, List.mem_cons_of_mem _ List.mem_cons_self, ?_⟩
      rw [carries_compound]
      exact ⟨_, List.mem_cons_self, hpart target hmem h⟩
  | lambda s params defaults body => cases h
  | comprehension s body clauses =>
    rw [Node.expr, carries_compound]
    exact ⟨_, List.mem_cons_self, hpart body List.mem_cons_self h⟩
  | test s parts => cases h
  | group s form parts =>
    rw [Node.expr]
    exact carries_exprs h hpart

/-- Where the reads of tainted names are tainted, a tainted node carries taint, unless it is tainted
by what its expression leaves out. -/
theorem carries_of_isTainted (hreads : ∀ s, .name s ∈ n.nodes → s.text ∈ env → reads s.text s.pos)
    (hdrops : n.DropsNoTaint symbols reg env) (h : n.isTainted symbols reg env = true) :
    Carries symbols reg reads (n.expr path symbols) := by
  -- on all nodes inside, as a call may be of a method of something deeper in its function
  induction n using Node.insideInd with
  | step n ih =>
    refine carries_of_inside (fun s hs => hreads s (hs ▸ self_mem_nodes _)) hdrops ?_ h
    intro m hm k hk hk'
    have hnodes : ∀ l ∈ k.nodes, l ∈ n.nodes :=
      fun l hl => mem_nodes_of_part hm (mem_nodes_trans hk hl)
    exact ih m hm k hk (fun s hs => hreads s (hnodes _ hs)) (hdrops.inside hnodes) hk'

end XPathTaint.Python
