import XPathTaint.Proofs.PlainLowering
import XPathTaint.Proofs.TaintedNames

-- The steps of a run of a body beside the lowering of that body: where the run stands, the
-- bindings behind it are those recorded so far, and every tainted name can be followed through
-- them. Values, assignments and branches, taken or passed, keep it so.

namespace XPathTaint.Python

/-! ## Where a run stands -/

/-- The bindings of the scope around stand in order before `lo`, in blocks with known numbers. -/
structure Settled (a : Around) (s : Lowered) (lo : Nat) : Prop where
  known : a.Known s
  ordered : (s.madeIn a.scope).Pairwise (·.pos < ·.pos)
  behind : ∀ b ∈ s.madeIn a.scope, b.pos ≤ lo
  blocks : ∀ b ∈ s.madeIn a.scope, ∀ k ∈ b.block, k ≤ s.blocks

/-- The facts found so far are facts of the whole, where all other bindings of the scope stand
behind `hi`. -/
structure Ahead (facts : FileFacts) (scope : ScopeId) (s : Lowered) (hi : Nat) : Prop where
  calls : s.calls <+: facts.calls
  bindings : ∃ later, facts.bindings.filter (·.scope == scope) = s.madeIn scope ++ later ∧
    ∀ b ∈ later, hi < b.pos

/-- A run stands at `lo`, and each of its tainted names can be followed. -/
structure Poised (facts : FileFacts) (reg : Registry) (a : Around) (s : Lowered) (lo : Nat)
    (env : List String) : Prop where
  path : a.path = facts.path
  symbols : a.symbols = facts.symbols
  settled : Settled a s lo
  followable : Followable facts reg a.scope (s.madeIn a.scope) a.block env

section

variable {facts : FileFacts} {reg : Registry} {a : Around} {s s' s₁ s₂ : Lowered} {lo mid hi : Nat}
  {scope : ScopeId} {env env' : List String} {cs : List CallNode}

theorem Settled.step (h : Settled a s lo) (hg : Grown a s s') (hp : Placed a.scope lo hi s s') :
    Settled a s' hi := by
  obtain ⟨hle, more, hmade, hord, hmore⟩ := hp
  obtain ⟨new, hb, hnew⟩ := hg.bindings
  refine ⟨hg.known h.known, ?_, ?_, ?_⟩
  · rw [hmade, List.pairwise_append]
    exact ⟨h.ordered, hord, fun b hb c hc => Nat.lt_of_le_of_lt (h.behind b hb) (hmore c hc).1⟩
  · intro b hb
    rw [hmade] at hb
    rcases List.mem_append.mp hb with hb | hb
    · exact Nat.le_trans (h.behind b hb) hle
    · exact (hmore b hb).2
  · intro b hbm k hk
    rw [Lowered.madeIn, hb, List.filter_append] at hbm
    rcases List.mem_append.mp hbm with hbm | hbm
    · exact Nat.le_trans (h.blocks b hbm k hk) hg.blocks
    · exact (hnew b (List.mem_filter.mp hbm).1).block k hk

theorem Ahead.back (h : Ahead facts scope s' hi) (hcalls : s.calls <+: s'.calls)
    (hp : Placed scope lo hi s s') : Ahead facts scope s lo := by
  obtain ⟨hle, more, hmade, _, hmore⟩ := hp
  obtain ⟨later, hall, hlater⟩ := h.bindings
  refine ⟨hcalls.trans h.calls, more ++ later, ?_, ?_⟩
  · rw [hall, hmade, List.append_assoc]
  · intro b hb
    rcases List.mem_append.mp hb with hb | hb
    · exact (hmore b hb).1
    · exact Nat.lt_of_le_of_lt hle (hlater b hb)

/-- What is read before the next binding is read behind exactly the bindings so far. -/
theorem Settled.before {more : List Binding} {pos : Nat} (h : Settled a s lo)
    (ha : Ahead facts a.scope s' hi) (hmade : s'.madeIn a.scope = s.madeIn a.scope ++ more)
    (hmore : ∀ b ∈ more, pos < b.pos) (hlo : lo ≤ pos) (hhi : pos ≤ hi) :
    Before facts a.scope (s.madeIn a.scope) pos := by
  obtain ⟨later, hall, hlater⟩ := ha.bindings
  refine ⟨h.ordered, fun b hb => Nat.le_trans (h.behind b hb) hlo, more ++ later, ?_, ?_⟩
  · rw [hall, hmade, List.append_assoc]
  · intro b hb
    rcases List.mem_append.mp hb with hb | hb
    · exact hmore b hb
    · exact Nat.lt_of_le_of_lt hhi (hlater b hb)

/-- A tainted value carries taint where the run stands. -/
theorem carries_of_followable {made : List Binding} {block : BlockPath} {n m : Node} {budget : Nat}
    (h : Followable facts reg scope made block env) (hn : n.Within lo hi)
    (hbefore : ∀ pos, lo ≤ pos → pos < hi → Before facts scope made pos)
    (hm : ∀ k ∈ m.nodes, k ∈ n.nodes) (hdrops : m.DropsNoTaint facts.symbols reg env)
    (htainted : m.isTainted facts.symbols reg env = true) (hbudget : made.length ≤ budget) :
    Carries facts.symbols reg (TaintsRead facts reg scope budget block)
      (m.expr facts.path facts.symbols) := by
  refine carries_of_isTainted (fun span hspan henv => ?_) hdrops htainted
  obtain ⟨hlo, hhi⟩ := hn _ (hm _ hspan) span rfl
  exact h.read (hbefore _ hlo hhi) henv hbudget

/-! ## Steps of a run -/

theorem grown_of_onlyCalls (h : OnlyCalls a cs s s') : Grown a s s' :=
  .of_bindings_eq h.scopes (h.calls ▸ List.prefix_append _ _) h.blocks h.bindings

/-- Values are evaluated. -/
theorem Poised.evaluate (h : Poised facts reg a s lo env) (honly : OnlyCalls a cs s s')
    (hle : lo ≤ hi) : Poised facts reg a s' hi env := by
  have hplaced : Placed a.scope lo hi s s' := .of_bindings_eq hle honly.bindings
  refine ⟨h.path, h.symbols, h.settled.step (grown_of_onlyCalls honly) hplaced, ?_⟩
  have hmade : s'.madeIn a.scope = s.madeIn a.scope := by rw [Lowered.madeIn, honly.bindings]; rfl
  rw [hmade]
  exact h.followable

/-- A block is entered. -/
theorem Poised.enter (h : Poised facts reg a s lo env) :
    Poised facts reg (a.branch s) s.numbered lo env := by
  have hs := h.settled
  refine ⟨h.path, h.symbols, ⟨hs.known.branch, hs.ordered, hs.behind, ?_⟩, ?_⟩
  · exact fun b hb k hk => Nat.le_succ_of_le (hs.blocks b hb k hk)
  · refine h.followable.enter fun b hb heq => ?_
    have hle := hs.blocks b hb (s.blocks + 1) (by simp [heq])
    omega

/-- A block is left. -/
theorem Poised.leave (h : Poised facts reg a s lo env)
    (h' : Poised facts reg (a.branch s) s' hi env') (hg : Grown (a.branch s) s.numbered s')
    (hp : Placed a.scope lo hi s s') : Poised facts reg a s' hi env' := by
  have hgrown : Grown a s s' := hg.of_inBlock rfl rfl rfl (Nat.le_succ s.blocks)
  exact ⟨h.path, h.symbols, h.settled.step hgrown hp, h'.followable.leave⟩

/-- A block is passed over. -/
theorem Poised.pass (h : Poised facts reg a s lo env) (hg : Grown (a.branch s) s.numbered s')
    (hp : Placed a.scope lo hi s s') : Poised facts reg a s' hi env := by
  have hgrown : Grown a s s' := hg.of_inBlock rfl rfl rfl (Nat.le_succ s.blocks)
  obtain ⟨new, hb, hnew⟩ := hg.bindings
  have hmade : s'.madeIn a.scope = s.madeIn a.scope ++ new.filter (·.scope == a.scope) := by
    rw [Lowered.madeIn, hb, List.filter_append]
    rfl
  refine ⟨h.path, h.symbols, h.settled.step hgrown hp, ?_⟩
  rw [hmade]
  refine h.followable.skip fun b hbm => ?_
  obtain ⟨hmem, hscope⟩ := List.mem_filter.mp hbm
  rw [beq_iff_eq] at hscope
  rcases (hnew b hmem).scope with hinner | hother
  · -- its block goes on from the one that is passed, so it is longer than the one around
    rw [Bool.eq_false_iff]
    intro hdom
    rw [dominates_iff_isPrefix] at hdom
    have hlen := (hinner.2.trans hdom).length_le
    rw [Around.branch, Around.inBlock, List.length_append, List.length_singleton] at hlen
    omega
  · rw [hscope] at hother
    exact absurd h.settled.known.scope (Nat.not_lt.mpr hother)

/-! ## Statements -/

/-- The value of an assignment is read behind the bindings before the assignment. -/
theorem Settled.before_assign {stop : Nat} {name : Span} {value : Node} (h : Settled a s lo)
    (hplain : value.IsPlain) (hstop : stop ≤ hi)
    (hahead : Ahead facts a.scope
      (lowerStmt a none (.assign stop [.name name] (some value)) s).2 hi) :
    ∀ pos, lo ≤ pos → pos < stop → Before facts a.scope (s.madeIn a.scope) pos := by
  intro pos hlo hlt
  refine h.before hahead (madeIn_assign none hplain) (fun b hb => ?_) hlo
    (Nat.le_trans (Nat.le_of_lt hlt) hstop)
  rw [List.mem_singleton.mp hb, pos_assignedBinding]
  exact hlt

theorem Poised.values {parts : List Node} (h : Poised facts reg a s lo env)
    (hplain : (Stmt.values parts).IsPlain) (hlaid : (Stmt.values parts).LaidOut lo hi) :
    Poised facts reg a (lowerStmt a none (.values parts) s).2 hi env :=
  h.evaluate (lowerStmt_values (o := ⟨[], default⟩) none hplain) hlaid.1

theorem Poised.assign {stop : Nat} {name : Span} {value : Node} (h : Poised facts reg a s lo env)
    (hplain : value.IsPlain) (hdrops : value.DropsNoTaint facts.symbols reg env)
    (hlaid : (Stmt.assign stop [.name name] (some value)).LaidOut lo hi)
    (hahead : Ahead facts a.scope
      (lowerStmt a none (.assign stop [.name name] (some value)) s).2 hi) :
    Poised facts reg a (lowerStmt a none (.assign stop [.name name] (some value)) s).2 hi
      (assigned env name.text (value.isTainted facts.symbols reg env)) := by
  obtain ⟨hlo, hhi, hwithin⟩ := hlaid
  have hplaced := placed_stmt (.assign stop [.name name] (some value)) a s none lo hi hplain
    ⟨hlo, hhi, hwithin⟩
  have hmade : (lowerStmt a none (.assign stop [.name name] (some value)) s).2.madeIn a.scope = _ :=
    madeIn_assign none hplain
  have hgrown := grown_lowerStmt ⟨[], default⟩ none (.assign stop [.name name] (some value))
    h.settled.known
  refine ⟨h.path, h.symbols, h.settled.step hgrown hplaced, ?_⟩
  have hbefore := h.settled.before_assign hplain hhi hahead
  obtain ⟨id, hb⟩ : ∃ id, assignedBinding a stop name value = _ :=
    FileFacts.numberBinding_eq a.path _
  rw [hmade, hb]
  refine h.followable.assign rfl fun htainted budget hbudget => ?_
  rw [h.path, h.symbols]
  exact carries_of_followable h.followable hwithin hbefore (fun _ hk => hk) hdrops htainted hbudget

/-! ## Branches -/

/-- The facts behind a branch. -/
def branchEnd (a : Around) (s : Lowered) (b : BranchOf Stmt) : Lowered :=
  (lowerStmts (a.branch s) b.body (lowerHead (a.branch s) b.head s.numbered).2).2

theorem lowerBranches_step (b : BranchOf Stmt) (rest : List (BranchOf Stmt)) :
    (lowerBranches a (b :: rest) s).2 = (lowerBranches a rest (branchEnd a s b)).2 :=
  lowerBranches_cons b.head b.body rest rfl rfl

/-- The body of a choice is a branch like the others. -/
theorem lowerStmt_choice_branches (condition : Node) (body : List Stmt)
    (branches : List (BranchOf Stmt)) (hs : (lowerNode a .value condition s).2 = s₁) :
    (lowerStmt a none (.choice condition body branches) s).2 =
      (lowerBranches a (⟨.plain, body⟩ :: branches) s₁).2 := by
  rw [lowerStmt_choice none condition body branches hs rfl, lowerBranches_step]
  rfl

theorem grown_branchEnd {b : BranchOf Stmt} (ha : a.Known s) (hhead : b.head.IsPlain) :
    Grown (a.branch s) s.numbered (branchEnd a s b) := by
  have hg := grown_of_onlyCalls
    (lowerHead_plain (a := a.branch s) (o := ⟨[], default⟩) (s := s.numbered) hhead)
  exact hg.trans (grown_lowerStmts ⟨[], default⟩ b.body (hg.known ha.branch))

theorem placed_branchEnd {b : BranchOf Stmt} {start : Nat} (hhead : b.head.IsPlain)
    (hbody : Stmt.ArePlain b.body) (hle : lo ≤ start) (hlaid : Stmt.AreLaidOut start hi b.body) :
    Placed a.scope lo hi s (branchEnd a s b) := by
  have honly := lowerHead_plain (a := a.branch s) (o := ⟨[], default⟩) (s := s.numbered) hhead
  have hstart : Placed a.scope lo start s (lowerHead (a.branch s) b.head s.numbered).2 :=
    .of_bindings_eq hle honly.bindings
  exact hstart.trans (placed_stmts (a := a.branch s) (fun t _ => placed_stmt t) hbody hlaid)

theorem Poised.passBranches {branches : List (BranchOf Stmt)} (h : Poised facts reg a s lo env)
    (hplain : Stmt.ArePlainBranches branches) (hlaid : Stmt.AreLaidOutBranches lo hi branches) :
    Poised facts reg a (lowerBranches a branches s).2 hi env := by
  induction branches generalizing s lo with
  | nil =>
    have honly : OnlyCalls a [] s s := ⟨rfl, rfl, rfl, (List.append_nil _).symm⟩
    exact h.evaluate honly hlaid
  | cons b rest ih =>
    obtain ⟨hhead, hbody, hrest⟩ := hplain
    obtain ⟨start, mid, hle, _, hlbody, hlrest⟩ := hlaid
    rw [lowerBranches_step]
    refine ih ?_ hrest hlrest
    exact h.pass (grown_branchEnd h.settled.known hhead) (placed_branchEnd hhead hbody hle hlbody)

/-- A run comes to a branch that ends at `mid`, and whatever it does there, it goes on to `hi`. -/
structure ComesTo (facts : FileFacts) (reg : Registry) (a : Around) (b : BranchOf Stmt)
    (env : List String) (s : Lowered) (lo start mid : Nat) (final : Lowered) (hi : Nat) : Prop where
  poised : Poised facts reg a s lo env
  head : b.head.IsPlain
  body : Stmt.ArePlain b.body
  le : lo ≤ start
  within : b.head.Within lo start
  laid : Stmt.AreLaidOut start mid b.body
  ahead : Ahead facts a.scope (branchEnd a s b) mid
  goesOn : ∀ env', Poised facts reg a (branchEnd a s b) mid env' → Poised facts reg a final hi env'

theorem Poised.comesTo {branches : List (BranchOf Stmt)} {b : BranchOf Stmt}
    (h : Poised facts reg a s lo env) (hb : b ∈ branches) (hplain : Stmt.ArePlainBranches branches)
    (hlaid : Stmt.AreLaidOutBranches lo hi branches)
    (hahead : Ahead facts a.scope (lowerBranches a branches s).2 hi) :
    ∃ s' lo' start mid,
      ComesTo facts reg a b env s' lo' start mid (lowerBranches a branches s).2 hi := by
  induction branches generalizing s lo with
  | nil => simp at hb
  | cons first rest ih =>
    obtain ⟨hhead, hbody, hrest⟩ := hplain
    obtain ⟨start, mid, hle, hwithin, hlbody, hlrest⟩ := hlaid
    rw [lowerBranches_step] at hahead ⊢
    have hpassed : Poised facts reg a (branchEnd a s first) mid env :=
      h.pass (grown_branchEnd h.settled.known hhead) (placed_branchEnd hhead hbody hle hlbody)
    rcases List.mem_cons.mp hb with rfl | hb
    · refine ⟨s, lo, start, mid, h, hhead, hbody, hle, hwithin, hlbody, ?_, fun env' h' => ?_⟩
      · have hg := grown_lowerBranches ⟨[], default⟩ rest hpassed.settled.known
        exact hahead.back hg.calls (placed_branches (fun _ _ t _ => placed_stmt t) hrest hlrest)
      · exact h'.passBranches hrest hlrest
    · exact ih hpassed hb hrest hlrest hahead

/-- The run stands at the body of the branch that it comes to. -/
theorem ComesTo.poised_body {b : BranchOf Stmt} {final : Lowered} {start : Nat}
    (h : ComesTo facts reg a b env s lo start mid final hi) :
    Poised facts reg (a.branch s) (lowerHead (a.branch s) b.head s.numbered).2 start env :=
  h.poised.enter.evaluate (lowerHead_plain (o := ⟨[], default⟩) h.head) h.le

theorem ComesTo.leave {b : BranchOf Stmt} {final : Lowered} {start : Nat}
    (h : ComesTo facts reg a b env s lo start mid final hi)
    (h' : Poised facts reg (a.branch s) (branchEnd a s b) mid env') :
    Poised facts reg a final hi env' := by
  refine h.goesOn env' (h.poised.leave h' ?_ ?_)
  · exact grown_branchEnd h.poised.settled.known h.head
  · exact placed_branchEnd h.head h.body h.le h.laid

end

end XPathTaint.Python
