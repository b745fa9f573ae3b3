import XPathTaint.Proofs.BodySteps
import XPathTaint.Proofs.RoutineEntry
import XPathTaint.Python.Source

-- What a run of a body taints is found by the search. The run and the lowering go through the
-- body side by side, so where the run comes to a call, each tainted argument can be followed
-- back through the bindings that the lowering has recorded.

namespace XPathTaint.Python

section

variable {facts : FileFacts} {reg : Registry} {a : Around} {s s' s₁ s₂ : Lowered} {lo mid hi : Nat}
  {scope : ScopeId} {env env' : List String} {cs : List CallNode}

/-! ## Runs -/

/-- Behind its condition, a choice is a list of branches. -/
theorem Poised.choose {condition : Node} {body : List Stmt} {branches : List (BranchOf Stmt)}
    (h : Poised facts reg a s lo env) (hplain : (Stmt.choice condition body branches).IsPlain)
    (hlaid : (Stmt.choice condition body branches).LaidOut lo hi) :
    ∃ start, condition.Within lo start ∧
      Poised facts reg a (lowerNode a .value condition s).2 start env ∧
      Stmt.ArePlainBranches (⟨.plain, body⟩ :: branches) ∧
      Stmt.AreLaidOutBranches start hi (⟨.plain, body⟩ :: branches) := by
  obtain ⟨hcondition, hbody, hbranches⟩ := hplain
  obtain ⟨start, mid, hle, hwithin, hlbody, hlbranches⟩ := hlaid
  have honly := (yields_node (a := a) (o := ⟨[], default⟩) condition hcondition s).2
  exact ⟨start, hwithin, h.evaluate honly hle, ⟨trivial, hbody, hbranches⟩,
    start, mid, Nat.le_refl _, trivial, hlbody, hlbranches⟩

/-- A run comes to each branch of a choice, its body among them. -/
theorem Poised.comesToBranch {condition : Node} {body : List Stmt}
    {branches : List (BranchOf Stmt)} {b : BranchOf Stmt} (h : Poised facts reg a s lo env)
    (hb : b ∈ (⟨.plain, body⟩ :: branches : List (BranchOf Stmt)))
    (hplain : (Stmt.choice condition body branches).IsPlain)
    (hlaid : (Stmt.choice condition body branches).LaidOut lo hi)
    (hahead : Ahead facts a.scope (lowerStmt a none (.choice condition body branches) s).2 hi) :
    ∃ s' lo' start mid, ComesTo facts reg a b env s' lo' start mid
      (lowerStmt a none (.choice condition body branches) s).2 hi := by
  obtain ⟨start, _, hcondition, hbranches, hlbranches⟩ := h.choose hplain hlaid
  rw [lowerStmt_choice_branches _ _ _ rfl] at hahead ⊢
  exact hcondition.comesTo hb hbranches hlbranches hahead

/-- A choice of which one branch is run through leaves the run behind it. -/
theorem Poised.takeBranch {condition : Node} {body : List Stmt} {branches : List (BranchOf Stmt)}
    {b : BranchOf Stmt} (h : Poised facts reg a s lo env)
    (hb : b ∈ (⟨.plain, body⟩ :: branches : List (BranchOf Stmt)))
    (hplain : (Stmt.choice condition body branches).IsPlain)
    (hlaid : (Stmt.choice condition body branches).LaidOut lo hi)
    (hahead : Ahead facts a.scope (lowerStmt a none (.choice condition body branches) s).2 hi)
    (hrun : ∀ {a s lo hi}, Stmt.ArePlain b.body → Stmt.AreLaidOut lo hi b.body →
      Ahead facts a.scope (lowerStmts a b.body s).2 hi → Poised facts reg a s lo env →
      Poised facts reg a (lowerStmts a b.body s).2 hi env') :
    Poised facts reg a (lowerStmt a none (.choice condition body branches) s).2 hi env' := by
  obtain ⟨s', lo', start, mid, hcomes⟩ := h.comesToBranch hb hplain hlaid hahead
  exact hcomes.leave (hrun hcomes.body hcomes.laid hcomes.ahead hcomes.poised_body)

/-- A choice of which no branch is run leaves the run as it is. -/
theorem Poised.passChoice {condition : Node} {body : List Stmt} {branches : List (BranchOf Stmt)}
    (h : Poised facts reg a s lo env) (hplain : (Stmt.choice condition body branches).IsPlain)
    (hlaid : (Stmt.choice condition body branches).LaidOut lo hi) :
    Poised facts reg a (lowerStmt a none (.choice condition body branches) s).2 hi env := by
  obtain ⟨start, _, hcondition, hbranches, hlbranches⟩ := h.choose hplain hlaid
  rw [lowerStmt_choice_branches _ _ _ rfl]
  exact hcondition.passBranches hbranches hlbranches

/-- Where a body stands one statement behind the other, its first one stands before the rest. -/
theorem Poised.split {t : Stmt} {rest : List Stmt} (h : Poised facts reg a s lo env)
    (hplain : Stmt.ArePlain (t :: rest)) (hlaid : Stmt.AreLaidOut lo hi (t :: rest))
    (hahead : Ahead facts a.scope (lowerStmts a (t :: rest) s).2 hi) :
    ∃ mid, t.LaidOut lo mid ∧ Stmt.AreLaidOut mid hi rest ∧
      Ahead facts a.scope (lowerStmt a none t s).2 mid := by
  obtain ⟨mid, hfirst, hrest⟩ := hlaid
  have hgrown := grown_lowerStmt ⟨[], default⟩ none t h.settled.known
  have hgrownRest := grown_lowerStmts ⟨[], default⟩ rest (hgrown.known h.settled.known)
  refine ⟨mid, hfirst, hrest, hahead.back hgrownRest.calls ?_⟩
  exact placed_stmts (fun t _ => placed_stmt t) hplain.2 hrest

/-- A run through a body leaves every tainted name to be followed. -/
theorem Poised.run {ts : List Stmt}
    (hruns : Runs (Node.isTainted facts.symbols reg) (Node.DropsNoTaint facts.symbols reg) env ts env')
    (hplain : Stmt.ArePlain ts) (hlaid : Stmt.AreLaidOut lo hi ts)
    (hahead : Ahead facts a.scope (lowerStmts a ts s).2 hi) (h : Poised facts reg a s lo env) :
    Poised facts reg a (lowerStmts a ts s).2 hi env' := by
  -- on the run, with all that the lowering knows free: inside a branch the block is another one
  induction hruns generalizing a s lo hi with
  | nil =>
    have honly : OnlyCalls a [] s s := ⟨rfl, rfl, rfl, (List.append_nil _).symm⟩
    exact h.evaluate honly hlaid
  | values _ ih =>
    obtain ⟨mid, hfirst, hrest⟩ := hlaid
    exact ih hplain.2 hrest hahead (h.values hplain.1 hfirst)
  | assign hdrops _ ih =>
    obtain ⟨mid, hfirst, hrest, hmid⟩ := h.split hplain hlaid hahead
    exact ih hplain.2 hrest hahead (h.assign hplain.1 hdrops hfirst hmid)
  | body _ _ ihb ih =>
    obtain ⟨mid, hfirst, hrest, hmid⟩ := h.split hplain hlaid hahead
    have hchosen := h.takeBranch List.mem_cons_self hplain.1 hfirst hmid ihb
    exact ih hplain.2 hrest hahead hchosen
  | branch hb _ _ ihb ih =>
    obtain ⟨mid, hfirst, hrest, hmid⟩ := h.split hplain hlaid hahead
    have hchosen := h.takeBranch (List.mem_cons_of_mem _ hb) hplain.1 hfirst hmid ihb
    exact ih hplain.2 hrest hahead hchosen
  | neither _ _ ih =>
    obtain ⟨mid, hfirst, hrest⟩ := hlaid
    have hpassed := h.passChoice hplain.1 hfirst
    exact ih hplain.2 hrest hahead hpassed

/-! ## Evaluated nodes -/

/-- A node between `lo` and `hi` is evaluated in a scope and block: its reads stand behind the
bindings `made`, through which the tainted names can be followed, and its calls are recorded. -/
structure EvaluatedBehind (facts : FileFacts) (reg : Registry) (o : Owner) (scope : ScopeId)
    (env : List String) (node : Node) (block : BlockPath) (made : List Binding) (lo hi : Nat) :
    Prop where
  within : node.Within lo hi
  before : ∀ pos, lo ≤ pos → pos < hi → Before facts scope made pos
  length : made.length ≤ facts.bindings.length
  followable : Followable facts reg scope made block env
  calls : ∀ c ∈ node.calls o.value, c.isRead = true → ∃ a : Around, a.path = facts.path ∧
    a.symbols = facts.symbols ∧ a.scope = scope ∧ a.block = block ∧ c.site a ∈ facts.calls

/-- A node is evaluated somewhere in a scope. -/
def Evaluated (facts : FileFacts) (reg : Registry) (o : Owner) (scope : ScopeId)
    (env : List String) (node : Node) : Prop :=
  ∃ block made lo hi, EvaluatedBehind facts reg o scope env node block made lo hi

theorem Ahead.length_le {more : List Binding} (h : Ahead facts scope s' hi)
    (hmade : s'.madeIn scope = s.madeIn scope ++ more) :
    (s.madeIn scope).length ≤ facts.bindings.length := by
  obtain ⟨later, hall, _⟩ := h.bindings
  have hle := List.length_filter_le (·.scope == scope) facts.bindings
  rw [hall, hmade, List.length_append, List.length_append] at hle
  omega

theorem mem_calls_of_onlyCalls {c : CallNode} (h : OnlyCalls a cs s s')
    (hcalls : s'.calls <+: facts.calls) (hc : c ∈ cs) (hread : c.isRead = true) :
    c.site a ∈ facts.calls := by
  refine hcalls.subset ?_
  rw [h.calls]
  exact List.mem_append_right _ (List.mem_map_of_mem (List.mem_filter.mpr ⟨hc, hread⟩))

variable {o : Owner} {node : Node}

theorem Poised.evaluated (h : Poised facts reg a s lo env) (honly : OnlyCalls a cs s s')
    (hahead : Ahead facts a.scope s' hi) (hwithin : node.Within lo hi)
    (hcalls : ∀ c ∈ node.calls o.value, c ∈ cs) : Evaluated facts reg o a.scope env node := by
  have hmade : s'.madeIn a.scope = s.madeIn a.scope ++ [] := by
    rw [Lowered.madeIn, honly.bindings, List.append_nil]
    rfl
  refine ⟨a.block, s.madeIn a.scope, lo, hi, hwithin, fun pos hlo hlt => ?_, ?_, h.followable, ?_⟩
  · exact h.settled.before hahead hmade (by simp) hlo (Nat.le_of_lt hlt)
  · exact hahead.length_le hmade
  · intro c hc hread
    exact ⟨a, h.path, h.symbols, rfl, rfl,
      mem_calls_of_onlyCalls honly hahead.calls (hcalls c hc) hread⟩

/-- The condition of a choice is evaluated before its branches. -/
theorem Poised.evaluated_condition {condition : Node} {body : List Stmt}
    {branches : List (BranchOf Stmt)} (h : Poised facts reg a s lo env)
    (hplain : (Stmt.choice condition body branches).IsPlain)
    (hlaid : (Stmt.choice condition body branches).LaidOut lo hi)
    (hahead : Ahead facts a.scope (lowerStmt a none (.choice condition body branches) s).2 hi) :
    Evaluated facts reg o a.scope env condition := by
  obtain ⟨start, hwithin, hcondition, hbranches, hlbranches⟩ := h.choose hplain hlaid
  rw [lowerStmt_choice_branches _ _ _ rfl] at hahead
  have hgrown := grown_lowerBranches ⟨[], default⟩ (⟨.plain, body⟩ :: branches)
    hcondition.settled.known
  have hstart := hahead.back hgrown.calls
    (placed_branches (fun _ _ t _ => placed_stmt t) hbranches hlbranches)
  exact h.evaluated (yields_node condition hplain.1 s).2 hstart hwithin fun _ hc => hc

/-- The condition of a branch is evaluated inside its block. -/
theorem ComesTo.evaluated_head {b : BranchOf Stmt} {final : Lowered} {start : Nat}
    (h : ComesTo facts reg a b env s lo start mid final hi) (hhead : b.head = .condition node) :
    Evaluated facts reg o a.scope env node := by
  have honly := lowerHead_plain (a := a.branch s) (o := o) (s := s.numbered) h.head
  have hknown := h.poised_body.settled.known
  have hahead := h.ahead.back (grown_lowerStmts ⟨[], default⟩ b.body hknown).calls
    (placed_stmts (a := a.branch s) (fun t _ => placed_stmt t) h.body h.laid)
  have hwithin := h.within
  rw [hhead] at hwithin
  refine h.poised.enter.evaluated honly hahead hwithin fun c hc => ?_
  rw [hhead]
  exact hc

/-- Every node that a run comes to is evaluated. -/
theorem Poised.lead {ts : List Stmt}
    (hleads : Leads (Node.isTainted facts.symbols reg) (Node.DropsNoTaint facts.symbols reg) env ts
      env' node)
    (hplain : Stmt.ArePlain ts) (hlaid : Stmt.AreLaidOut lo hi ts)
    (hahead : Ahead facts a.scope (lowerStmts a ts s).2 hi) (h : Poised facts reg a s lo env) :
    Evaluated facts reg o a.scope env' node := by
  induction hleads generalizing a s lo hi with
  | values hn =>
    obtain ⟨mid, hfirst, hrest, hmid⟩ := h.split hplain hlaid hahead
    exact h.evaluated (lowerStmt_values (o := o) none hplain.1) hmid (hfirst.2 _ hn)
      fun c hc => mem_callsOfAll hn hc
  | assign =>
    obtain ⟨mid, hfirst, hrest, hmid⟩ := h.split hplain hlaid hahead
    obtain ⟨name, v, rfl, hv, hvalue⟩ := plain_assign hplain.1
    obtain rfl := Option.some.inj hv
    obtain ⟨hlo, hstop, hwithin⟩ := hfirst
    obtain ⟨s₁, honly, hs⟩ := lowerStmt_assign (o := o) (s := s) none hvalue
    have hcalls := hmid.calls
    rw [hs] at hcalls
    refine ⟨a.block, s.madeIn a.scope, lo, _, hwithin, ?_, ?_, h.followable, fun c hc hread => ?_⟩
    · exact h.settled.before_assign hvalue hstop hmid
    · exact hmid.length_le (madeIn_assign none hvalue)
    · exact ⟨a, h.path, h.symbols, rfl, rfl, mem_calls_of_onlyCalls honly hcalls hc hread⟩
  | condition =>
    obtain ⟨mid, hfirst, hrest, hmid⟩ := h.split hplain hlaid hahead
    exact h.evaluated_condition hplain.1 hfirst hmid
  | body _ ih =>
    obtain ⟨mid, hfirst, hrest, hmid⟩ := h.split hplain hlaid hahead
    obtain ⟨s', lo', start, mid', hcomes⟩ := h.comesToBranch List.mem_cons_self hplain.1 hfirst hmid
    exact ih (a := a.branch s') hcomes.body hcomes.laid hcomes.ahead hcomes.poised_body
  | head hb hhead =>
    obtain ⟨mid, hfirst, hrest, hmid⟩ := h.split hplain hlaid hahead
    obtain ⟨s', lo', start, mid', hcomes⟩ :=
      h.comesToBranch (List.mem_cons_of_mem _ hb) hplain.1 hfirst hmid
    exact hcomes.evaluated_head hhead
  | branch hb _ ih =>
    obtain ⟨mid, hfirst, hrest, hmid⟩ := h.split hplain hlaid hahead
    obtain ⟨s', lo', start, mid', hcomes⟩ :=
      h.comesToBranch (List.mem_cons_of_mem _ hb) hplain.1 hfirst hmid
    exact ih (a := a.branch s') hcomes.body hcomes.laid hcomes.ahead hcomes.poised_body
  | later hruns _ ih =>
    obtain ⟨mid, hfirst, hrest, hmid⟩ := h.split hplain hlaid hahead
    have hrun := h.run hruns ⟨hplain.1, trivial⟩ ⟨mid, hfirst, Nat.le_refl mid⟩ hmid
    exact ih hplain.2 hrest hahead hrun

/-! ## Routines -/

/-- When a routine starts, its tainted names are the parameters of its route. -/
theorem Enters.poised {r : Routine} {final : Lowered} (h : Enters r a s final)
    (hpath : a.path = facts.path) (hsymbols : a.symbols = facts.symbols)
    (hscopes : final.scopes = facts.scopes) : Poised facts reg a s 0 r.entry := by
  refine ⟨hpath, hsymbols, ⟨h.known, ?_, ?_, ?_⟩, fun x hx => Or.inr ⟨?_, ?_⟩⟩
  · simp [h.fresh]
  · simp [h.fresh]
  · simp [h.fresh]
  · rw [h.fresh]
    rfl
  · obtain ⟨f, hf, _, _, hparams, hroute⟩ := h.scope
    rw [hscopes] at hf
    unfold Routine.entry at hx
    split at hx
    · have hentry : f.isEntrypoint && f.params.contains x := by
        rw [Scope.isEntrypoint, hroute, hparams, Bool.and_eq_true, List.contains_iff_mem]
        exact ⟨‹_›, hx⟩
      rw [routeParam, FileFacts.scope?, hf]
      dsimp only
      rw [if_pos hentry]
      rfl
    · simp at hx

theorem Enters.ahead {r : Routine} {final : Lowered} (h : Enters r a s final)
    (hcalls : final.calls = facts.calls) (hbindings : final.bindings = facts.bindings) :
    Ahead facts a.scope (lowerStmts a r.body s).2 hi := by
  refine ⟨hcalls ▸ h.calls, [], ?_, by simp⟩
  rw [List.append_nil, ← h.made, Lowered.madeIn, hbindings]

/-- The arguments of the calls in an evaluated node carry the taint that they have in the run. -/
theorem EvaluatedBehind.carries {block : BlockPath} {made : List Binding} {c : CallNode}
    {arg : ArgumentOf Node} (h : EvaluatedBehind facts reg o scope env node block made lo hi)
    (hc : c ∈ node.calls o.value) (harg : arg ∈ c.args)
    (hdrops : arg.value.DropsNoTaint facts.symbols reg env)
    (htainted : arg.value.isTainted facts.symbols reg env = true) {maxHops : Nat}
    (hhops : facts.bindings.length ≤ maxHops) :
    Carries facts.symbols reg (TaintsRead facts reg scope maxHops block)
      (arg.value.expr facts.path facts.symbols) := by
  have hpart : arg.value ∈ (Node.call c.span c.func c.args).parts :=
    List.mem_cons_of_mem _ (List.mem_map_of_mem harg)
  have hnodes : ∀ k ∈ arg.value.nodes, k ∈ node.nodes := fun k hk =>
    mem_nodes_of_calls node hc k (mem_nodes_of_part hpart hk)
  exact carries_of_followable h.followable h.within h.before hnodes hdrops htainted
    (Nat.le_trans h.length hhops)

end

/-- The search finds what a run taints: if a run through the body of a function or module comes
to a call with a tainted argument, then the call is recorded, if it is read, and a flow into its
argument is found in the scope and block where it is recorded. Only what the expressions leave out
of the text makes a difference: the values that the run assigns and the argument must not be tainted
by such a part. The parts of the body stand one behind the other, as a parser reads them. -/
theorem what_a_run_taints_is_found (path text : String) (marker : Option String) (p : Program)
    (reg : Registry) (maxHops : Nat) (facts : FileFacts)
    (hfacts : (FileFacts.ofProgram path text marker p).1 = facts) (hids : DistinctIds facts)
    (hhops : facts.bindings.length ≤ maxHops) (r : Routine) (hr : r ∈ p.routines facts.symbols)
    (hplain : Stmt.ArePlain r.body) (hlaid : ∃ stop, Stmt.AreLaidOut 0 stop r.body)
    (env : List String) (node : Node)
    (hleads : Leads (Node.isTainted facts.symbols reg) (Node.DropsNoTaint facts.symbols reg)
      r.entry r.body env node) :
    ∃ scope block f, facts.scope? scope = some f ∧ f.name = r.owner.name ∧
      f.place = placeIn path r.owner.start ∧
      ∀ c ∈ node.calls r.owner.value, c.isRead = true →
        ∃ site ∈ facts.calls, site.scope = scope ∧ site.block = block ∧
          site.pos = c.span.pos ∧ site.text = c.span.text ∧
          List.Forall₂ (fun arg recorded =>
            recorded.keyword = arg.keyword ∧ recorded.splat = arg.splat ∧
              (arg.value.DropsNoTaint facts.symbols reg env →
                arg.value.isTainted facts.symbols reg env = true →
                (taintOf facts reg maxHops recorded.value scope block).1.isSome))
            c.args site.args := by
  have hpath : facts.path = path := by rw [← hfacts]; rfl
  have hfound : facts.scopes = (lowerProgram path facts.symbols p).scopes ∧
      facts.calls = (lowerProgram path facts.symbols p).calls ∧
      facts.bindings = (lowerProgram path facts.symbols p).bindings := by
    rw [← hfacts]
    exact ⟨rfl, rfl, rfl⟩
  obtain ⟨hscopes, hcalls, hbindings⟩ := hfound
  subst hpath
  obtain ⟨stop, hlaid⟩ := hlaid
  obtain ⟨a, s, hapath, hasymbols, henters⟩ := enters_routine facts.path p hr
  have hpoised : Poised facts reg a s 0 r.entry := henters.poised hapath hasymbols hscopes.symm
  have hahead : Ahead facts a.scope (lowerStmts a r.body s).2 stop :=
    henters.ahead hcalls.symm hbindings.symm
  obtain ⟨block, made, lo, hi, hevaluated⟩ := hpoised.lead (o := r.owner) hleads hplain hlaid hahead
  obtain ⟨f, hf, hname, hplace, _⟩ := henters.scope
  rw [hapath] at hplace
  rw [← hscopes] at hf
  refine ⟨a.scope, block, f, hf, hname, hplace, fun c hc hread => ?_⟩
  obtain ⟨b, hbpath, hbsymbols, hbscope, hbblock, hsite⟩ := hevaluated.calls c hc hread
  refine ⟨c.site b, hsite, hbscope, hbblock, rfl, rfl, ?_⟩
  have hargs : (c.site b).args = c.args.map fun arg =>
      ⟨arg.keyword, arg.splat, arg.value.expr facts.path facts.symbols⟩ := by
    rw [← arguments_eq_map, ← hbpath, ← hbsymbols]
    rfl
  rw [hargs, List.forall₂_map_right_iff, List.forall₂_same]
  intro arg harg
  refine ⟨rfl, rfl, fun hdrops htainted => ?_⟩
  exact (taintOf_isSome_iff hids _).mpr (hevaluated.carries hc harg hdrops htainted hhops)

/-! ## A routed function -/

/-- A piece of a line of the text below. -/
def pieceAt (pos line column : Nat) (text : String) : Span :=
  { pos, stop := pos + text.length, line, column, text }

/-- The last statement of the function below. -/
def searchCall : Node :=
  .call (pieceAt 76 7 5 "g(q)") (.name (pieceAt 76 7 5 "g"))
    [⟨none, .none, .name (pieceAt 78 7 7 "q")⟩]

/-- The statements of the function below. -/
def branchedBody : List Stmt :=
  [.choice (.name (pieceAt 31 3 8 "x"))
    [.assign 47 [.name (pieceAt 42 4 9 "q")] (some (.name (pieceAt 46 4 13 "x")))]
    [⟨.plain, [.assign 71 [.name (pieceAt 66 6 9 "q")] (some (.constant (pieceAt 70 6 13 "1")))]⟩],
   .values [searchCall]]

/-- A function whose parameter reaches a call through one of two branches. -/
def branchedText : String :=
  "@app.get(\"/\")\ndef f(x):\n    if x:\n        q = x\n    else:\n        q = 1\n    g(q)\n"

/-- What is read of the text. -/
def branchedProgram : Program :=
  { start := pieceAt 0 1 1 branchedText, isPartial := false,
    body := [.decorated
      [.call (pieceAt 1 1 2 "app.get(\"/\")")
        (.member (pieceAt 1 1 2 "app.get") (.name (pieceAt 1 1 2 "app")) "get")
        [⟨none, .none, .string (pieceAt 9 1 10 "\"/\"") [] []⟩]]
      (.functionDef (pieceAt 14 2 1 "def f(x): ...") "f" ["x"] [] branchedBody)] }

/-- The facts of the text. -/
def branchedFacts : FileFacts := (FileFacts.ofProgram "app.py" branchedText none branchedProgram).1

theorem what_a_run_taints_is_found_of_a_branch :
    DistinctIds branchedFacts ∧
      Leads (Node.isTainted branchedFacts.symbols .builtin)
        (Node.DropsNoTaint branchedFacts.symbols .builtin) ["x"] branchedBody ["q", "x"]
        searchCall ∧
      ∃ scope block f, branchedFacts.scope? scope = some f ∧ f.name = "f" ∧
        ∃ site ∈ branchedFacts.calls, site.scope = scope ∧ site.block = block ∧ site.pos = 76 ∧
          ∃ q, site.args.map (·.value) = [q] ∧
            (taintOf branchedFacts .builtin 2 q scope block).1.isSome := by
  have hids : DistinctIds branchedFacts := by
    unfold DistinctIds
    decide +kernel
  have hplain : Stmt.ArePlain branchedBody := by
    simp [branchedBody, searchCall, Stmt.ArePlain, Stmt.IsPlain, Stmt.ArePlainBranches,
      Head.IsPlain, Node.IsPlain, Node.nodes, Node.nodesOfArguments, Node.isBinder]
  have hlaid : ∃ stop, Stmt.AreLaidOut 0 stop branchedBody := by
    refine ⟨80, 75, ⟨32, 47, ?_, ?_, ⟨47, ?_, ?_⟩, ⟨60, 71, ?_, ?_, ⟨71, ?_, ?_⟩, ?_⟩⟩,
      ⟨80, ?_, ?_⟩⟩ <;>
      simp [searchCall, Stmt.AreLaidOut, Stmt.LaidOut, Stmt.AreLaidOutBranches, Head.Within,
        Node.Within, Node.nodes, Node.nodesOfArguments, Node.nameSpan?, pieceAt]
  have hdrops : ∀ env span, (Node.name span).DropsNoTaint branchedFacts.symbols .builtin env := by
    intro env span m hm k hk
    rw [List.mem_singleton.mp hm] at hk
    cases hk
  let r : Routine := ⟨⟨["f"], pieceAt 14 2 1 "def f(x): ..."⟩, ["x"], some ⟨"app.get", some "/"⟩,
    branchedBody⟩
  have hr : r ∈ branchedProgram.routines branchedFacts.symbols :=
    List.mem_cons_of_mem _ List.mem_cons_self
  have hruns : Runs (Node.isTainted branchedFacts.symbols .builtin)
      (Node.DropsNoTaint branchedFacts.symbols .builtin) ["x"] branchedBody.dropLast ["q", "x"] :=
    .body (.assign (hdrops _ _) .nil) .nil
  have hleads : Leads (Node.isTainted branchedFacts.symbols .builtin)
      (Node.DropsNoTaint branchedFacts.symbols .builtin) ["x"] branchedBody ["q", "x"]
      searchCall := .later hruns (.values List.mem_cons_self)
  obtain ⟨scope, block, f, hf, hname, _, hcalls⟩ := what_a_run_taints_is_found "app.py" branchedText
    none branchedProgram .builtin 2 branchedFacts rfl hids (by decide +kernel) r hr hplain hlaid
    ["q", "x"] searchCall hleads
  obtain ⟨site, hmem, hscope, hblock, hpos, _, hargs⟩ := hcalls _ List.mem_cons_self rfl
  obtain ⟨q, rest, ⟨_, _, htaint⟩, hnone, hsite⟩ := List.forall₂_cons_left_iff.mp hargs
  obtain rfl := List.forall₂_nil_left_iff.mp hnone
  refine ⟨hids, hleads, scope, block, f, hf, hname, site, hmem, hscope, hblock, hpos, q.value, ?_,
    htaint (hdrops _ _) rfl⟩
  rw [hsite]
  rfl

/-! ## Parts that are left out -/

/-- `sink(f"{0:{q}}")`, where the format of a number is tainted. -/
def formatCall : Node :=
  .call (pieceAt 22 2 1 "sink(f\"\x7b0:\x7bq\x7d\x7d\")") (.name (pieceAt 22 2 1 "sink"))
    [⟨none, .none, .string (pieceAt 27 2 6 "f\"\x7b0:\x7bq\x7d\x7d\"")
      [.constant (pieceAt 30 2 9 "0")] [.name (pieceAt 33 2 12 "q")]⟩]

/-- `sink(*  # note` and `q)`, where a comment stands before a tainted value. -/
def splatCall : Node :=
  .call (pieceAt 39 3 1 "sink(*  # note\nq)") (.name (pieceAt 39 3 1 "sink"))
    [⟨none, .list, .hidden (pieceAt 47 3 9 "# note") (.name (pieceAt 54 4 1 "q"))⟩]

/-- `request.args['q']` -/
def itemOfInput : Node :=
  .subscript (pieceAt 4 1 5 "request.args['q']")
    (.member (pieceAt 4 1 5 "request.args") (.name (pieceAt 4 1 5 "request")) "args")
    [.string (pieceAt 17 1 18 "'q'") [] []]

/-- A tainted name and two calls with it. -/
def droppingBody : List Stmt :=
  [.assign 21 [.name (pieceAt 0 1 1 "q")] (some itemOfInput), .values [formatCall],
    .values [splatCall]]

def droppingText : String :=
  "q = request.args['q']\nsink(f\"\x7b0:\x7bq\x7d\x7d\")\nsink(*  # note\nq)\n"

def droppingProgram : Program :=
  { start := pieceAt 0 1 1 droppingText, isPartial := false, body := droppingBody }

def droppingFacts : FileFacts := (FileFacts.ofProgram "app.py" droppingText none droppingProgram).1

/-- A run of the module comes to two calls with a tainted argument, and no flow into it is found. -/
theorem what_is_left_out_of_an_expression_is_not_found :
    DistinctIds droppingFacts ∧ droppingFacts.bindings.length ≤ 5 ∧ Stmt.ArePlain droppingBody ∧
      ∀ node ∈ [formatCall, splatCall],
        Leads (Node.isTainted droppingFacts.symbols .builtin) (fun _ _ => True) [] droppingBody
            ["q"] node ∧
          ∃ span func arg, node = .call span func [arg] ∧
            arg.value.isTainted droppingFacts.symbols .builtin ["q"] = true ∧
            ∃ site ∈ droppingFacts.calls, site.pos = span.pos ∧ ∀ a ∈ site.args,
              (taintOf droppingFacts .builtin 5 a.value site.scope site.block).1.isSome = false := by
  have hids : DistinctIds droppingFacts := by
    unfold DistinctIds
    decide +kernel
  have hplain : Stmt.ArePlain droppingBody := by
    simp [droppingBody, formatCall, splatCall, itemOfInput, Stmt.ArePlain, Stmt.IsPlain,
      Node.IsPlain, Node.nodes, Node.nodesOfArguments, Node.nodesOfAll, Node.isBinder]
  have htainted : itemOfInput.isTainted droppingFacts.symbols .builtin [] = true := by
    decide +kernel
  have hassign : Runs (Node.isTainted droppingFacts.symbols .builtin) (fun _ _ => True) []
      [.assign 21 [.name (pieceAt 0 1 1 "q")] (some itemOfInput)] ["q"] := by
    refine .assign trivial ?_
    rw [htainted]
    exact .nil
  refine ⟨hids, by decide +kernel, hplain, ?_⟩
  rw [List.forall_mem_cons, List.forall_mem_singleton]
  refine ⟨⟨.later hassign (.values List.mem_cons_self), _, _, _, rfl, ?_, ?_⟩,
    ⟨.later hassign (.later (.values .nil) (.values List.mem_cons_self)), _, _, _, rfl, ?_, ?_⟩⟩ <;>
    decide +kernel

end XPathTaint.Python
