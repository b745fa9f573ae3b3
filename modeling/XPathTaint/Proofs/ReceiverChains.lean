import XPathTaint.Proofs.BindingChains
import XPathTaint.Proofs.BudgetMemory
import XPathTaint.Proofs.TaintReads
import XPathTaint.Sink.Receiver

-- What a receiver is: a document or an evaluator exactly when a chain of bindings within the hops
-- leads from it to a call that makes one. The memory of budgets never changes the answer.

namespace XPathTaint

/-! ## Values that count -/

/-- What is left of an expression when some `getroot()` calls are taken off. -/
inductive UnderRoots (r : Expr) : Expr → Prop
  | self : UnderRoots r r
  | root {object : Expr} {callee : Option String} {args : List Argument} {o o' : Origin} :
      UnderRoots r object → UnderRoots r (.call (.member object "getroot" o) callee args o')

/-- A call of one of some members of a registered library. -/
def MadeBy (reg : Registry) (members : List String) (e : Expr) : Prop :=
  ∃ func path member args o, e = .call func (some path) args o ∧
    reg.xmlMember? path = some member ∧ member ∈ members

/-- A part of the expression is made as wanted. -/
def HasMade (parts : Expr → Expr → Prop) (made : Expr → Prop) (e : Expr) : Prop :=
  ∃ r, parts r e ∧ made r

/-- A test of values that passes a value when a part of it is made as wanted, and otherwise asks
how the one part of it resolves that may be a name or path. -/
structure LooksThrough (test : Resolve → Resolve) (parts : Expr → Expr → Prop)
    (made : Expr → Prop) : Prop where
  passes : ∀ {e}, HasMade parts made e → ∀ resolve seen, test resolve e seen = (true, seen)
  resolves : ∀ {e}, ¬ HasMade parts made e → ∃ r, parts r e ∧
    (∀ r', parts r' e → r'.dotted.isSome → r' = r) ∧
    ∀ resolve : Resolve, (r.dotted = none → ∀ seen, resolve r seen = (false, seen)) →
      ∀ seen, test resolve e seen = resolve r seen

theorem isLibraryMember_iff {reg : Registry} {members : List String} {func : Expr}
    {callee : Option String} {args : List Argument} {o : Origin} :
    isLibraryMember reg members callee = true ↔ MadeBy reg members (.call func callee args o) := by
  unfold isLibraryMember MadeBy
  constructor
  · intro h
    split at h
    · rename_i member hm
      obtain ⟨path, rfl, hm⟩ := Option.bind_eq_some_iff.mp hm
      exact ⟨func, path, member, args, o, rfl, hm, List.contains_iff_mem.mp h⟩
    · cases h
  · rintro ⟨_, path, member, _, _, he, hm, hmem⟩
    cases he
    simp [hm, hmem]

theorem looksThrough_isEvaluatorBy (reg : Registry) :
    LooksThrough (isEvaluatorBy reg) (· = ·) (MadeBy reg Registry.evaluatorFactories) where
  passes := by
    rintro e ⟨_, rfl, hmade⟩ resolve seen
    obtain ⟨func, path, member, args, o, rfl, _⟩ := id hmade
    rw [isEvaluatorBy, isLibraryMember_iff.mpr hmade]
  resolves := by
    intro e hmade
    refine ⟨e, rfl, fun r' hr' _ => hr', fun resolve hnone seen => ?_⟩
    cases e with
    | call func callee args o =>
      have hn : isLibraryMember reg Registry.evaluatorFactories callee = false := by
        rw [← Bool.not_eq_true]
        exact fun h => hmade ⟨.call func callee args o, rfl, isLibraryMember_iff.mp h⟩
      rw [isEvaluatorBy, hn, hnone rfl]
    | _ => rfl

section

variable {reg : Registry} {resolve : Resolve} {func object : Expr} {callee : Option String}
  {args : List Argument} {o o' : Origin} {seen : Explored}

theorem isDocumentBy_made (h : MadeBy reg Registry.documentProducers (.call func callee args o)) :
    isDocumentBy reg resolve (.call func callee args o) seen = (true, seen) := by
  rw [isDocumentBy.eq_def]
  simp [isLibraryMember_iff.mpr h]

theorem isDocumentBy_getroot
    (h : ¬ MadeBy reg Registry.documentProducers
      (.call (.member object "getroot" o) callee args o')) :
    isDocumentBy reg resolve (.call (.member object "getroot" o) callee args o') seen =
      isDocumentBy reg resolve object seen := by
  rw [isDocumentBy]
  simp [mt isLibraryMember_iff.mp h]

theorem isDocumentBy_other
    (h : ¬ MadeBy reg Registry.documentProducers (.call func callee args o))
    (hroot : ∀ object o', func ≠ .member object "getroot" o') :
    isDocumentBy reg resolve (.call func callee args o) seen = (false, seen) := by
  rw [isDocumentBy.eq_def]
  simp only [mt isLibraryMember_iff.mp h]
  cases func with
  | member object attr o' =>
    have hattr : attr ≠ "getroot" := fun hattr => hroot object o' (by rw [hattr])
    simp [hattr]
  | _ => rfl

end

theorem looksThrough_isDocumentBy (reg : Registry) :
    LooksThrough (isDocumentBy reg) UnderRoots (MadeBy reg Registry.documentProducers) where
  passes := by
    rintro e ⟨r, hr, hmade⟩ resolve seen
    induction hr with
    | self =>
      obtain ⟨func, path, member, args, o, rfl, _⟩ := id hmade
      exact isDocumentBy_made hmade
    | @root object callee args o o' _ ih =>
      by_cases hcall : MadeBy reg Registry.documentProducers
          (.call (.member object "getroot" o) callee args o')
      · exact isDocumentBy_made hcall
      · rw [isDocumentBy_getroot hcall]
        exact ih
  resolves := by
    intro e hmade
    have hself : ¬ MadeBy reg Registry.documentProducers e := fun h => hmade ⟨e, .self, h⟩
    induction e using Expr.ind with
    | call func callee args o ihf _ =>
      by_cases hroot : ∃ object o', func = .member object "getroot" o'
      · obtain ⟨object, o', rfl⟩ := hroot
        have hinner : ¬ HasMade UnderRoots (MadeBy reg Registry.documentProducers) object :=
          fun ⟨r, hr, h⟩ => hmade ⟨r, .root hr, h⟩
        obtain ⟨r, hr, honly, hresolves⟩ := ihf.2 object "getroot" o' rfl hinner
          fun h => hinner ⟨object, .self, h⟩
        refine ⟨r, .root hr, fun r' hr' hd => ?_, fun resolve hnone seen => ?_⟩
        · cases hr' with
          | self => cases hd
          | root hr' => exact honly r' hr' hd
        · rw [isDocumentBy_getroot hself]
          exact hresolves resolve hnone seen
      · refine ⟨_, .self, fun r' hr' _ => ?_, fun resolve hnone seen => ?_⟩
        · cases hr' with
          | self => rfl
          | root => exact absurd ⟨_, _, rfl⟩ hroot
        · rw [isDocumentBy_other hself fun object o' h => hroot ⟨object, o', h⟩, hnone rfl]
    | _ =>
      refine ⟨_, .self, fun r' hr' _ => ?_, fun resolve _ seen => rfl⟩
      cases hr'
      rfl

/-! ## The search without memory -/

/-- How a name or path resolves, given how the bindings that may reach it are checked. -/
def resolveThrough (facts : FileFacts) (scope : ScopeId) (block : BlockPath)
    (checkAll : List Binding → Explored → Bool × Explored) : Resolve := fun e seen =>
  match e.dotted with
  | none => (false, seen)
  | some path => checkAll (reachingBindings facts path scope block e.pos) seen

/-- Checks every binding, whatever was checked before. -/
def anyAnew (check : Binding → Explored → Bool × Explored) (bs : List Binding) (seen : Explored) :
    Bool × Explored :=
  (bs.any fun b => (check b seen).1, seen)

/-- What a value is, by a test that checks the bindings of each name again while the budget
lasts. -/
def resolveAnew (facts : FileFacts) (scope : ScopeId) (test : Resolve → Resolve) :
    (budget : Nat) → BlockPath → Resolve
  | 0, _ => test fun _ seen => (false, seen)
  | budget + 1, block => test (resolveThrough facts scope block (anyAnew fun b =>
      resolveAnew facts scope test budget b.block b.value))

def isDocumentAnew (facts : FileFacts) (reg : Registry) (scope : ScopeId) (block : BlockPath)
    (maxHops : Nat) (e : Expr) : Bool :=
  (resolveAnew facts scope (isDocumentBy reg) maxHops block e []).1

def isEvaluatorAnew (facts : FileFacts) (reg : Registry) (scope : ScopeId) (block : BlockPath)
    (maxHops : Nat) (e : Expr) : Bool :=
  (resolveAnew facts scope (isEvaluatorBy reg) maxHops block e []).1

/-! ## One hop -/

section

variable {facts : FileFacts} {scope : ScopeId} {test : Resolve → Resolve}
  {parts : Expr → Expr → Prop} {made : Expr → Prop} {budget : Nat} {block : BlockPath} {e : Expr}
  {seen seen' : Explored}

/-- A test asks of a value that it does not pass how the bindings that are read in it are
checked. -/
theorem LooksThrough.through (hlooks : LooksThrough test parts made) (facts : FileFacts)
    (scope : ScopeId) (block : BlockPath) (hmade : ¬ HasMade parts made e) :
    ∃ bs, (∀ b, b ∈ bs ↔ Reads facts scope parts block e b) ∧
      ∀ checkAll, (∀ seen, checkAll [] seen = (false, seen)) → ∀ seen,
        test (resolveThrough facts scope block checkAll) e seen = checkAll bs seen := by
  obtain ⟨r, hr, honly, hresolves⟩ := hlooks.resolves hmade
  rcases hd : r.dotted with _ | path
  · refine ⟨[], fun b => ⟨by simp, ?_⟩, fun checkAll hnil seen => ?_⟩
    · rintro ⟨r', hr', hd', _⟩
      obtain rfl : r' = r := honly r' hr' (by simp [hd'])
      cases hd.symm.trans hd'
    · rw [hresolves, resolveThrough, hd, hnil]
      intro hnone seen
      rw [resolveThrough, hd]
  · refine ⟨reachingBindings facts path scope block r.pos, fun b => ⟨.of_dotted hr hd, ?_⟩,
      fun checkAll _ seen => ?_⟩
    · rintro ⟨r', hr', hd', hb⟩
      obtain rfl : r' = r := honly r' hr' (by simp [hd'])
      obtain rfl : path = b.name := Option.some.inj (hd.symm.trans hd')
      exact hb
    · rw [hresolves, resolveThrough, hd]
      intro hnone
      rw [hd] at hnone
      cases hnone

/-- Without a hop left only what is passed at once counts. -/
theorem LooksThrough.at_end (hlooks : LooksThrough test parts made) :
    test (fun _ seen => (false, seen)) e seen = (true, seen) ∧ HasMade parts made e ∨
      test (fun _ seen => (false, seen)) e seen = (false, seen) ∧ ¬ HasMade parts made e := by
  by_cases hmade : HasMade parts made e
  · exact Or.inl ⟨hlooks.passes hmade _ seen, hmade⟩
  · obtain ⟨r, _, _, hresolves⟩ := hlooks.resolves hmade
    exact Or.inr ⟨hresolves _ (fun _ _ => rfl) seen, hmade⟩

/-! ## The search without memory is exact -/

theorem LooksThrough.resolveAnew_iff (hlooks : LooksThrough test parts made) :
    (resolveAnew facts scope test budget block e seen).1 = true ↔
      LeadsWithin facts scope parts (fun _ _ => HasMade parts made) budget block e := by
  induction budget generalizing block e seen with
  | zero =>
    rw [leadsWithin_zero, resolveAnew]
    rcases hlooks.at_end with ⟨h, hmade⟩ | ⟨h, hmade⟩ <;> rw [h] <;> simpa using hmade
  | succ budget ih =>
    rw [leadsWithin_succ, resolveAnew]
    by_cases hmade : HasMade parts made e
    · rw [hlooks.passes hmade]
      exact iff_of_true rfl (Or.inl hmade)
    · obtain ⟨bs, hbs, hthrough⟩ := hlooks.through facts scope block hmade
      rw [hthrough _ fun _ => rfl, anyAnew]
      simp [hmade, hbs, ih]

/-! ## The search with memory is exact -/

theorem exists_of_anyBinding {check : Binding → Explored → Bool × Explored} {bs : List Binding}
    (h : (anyBinding budget check bs seen).1 = true) :
    ∃ b ∈ bs, ∃ seen, (check b seen).1 = true := by
  induction bs generalizing seen with
  | nil => cases h
  | cons b rest ih =>
    have hrest {seen : Explored} (h : (anyBinding budget check rest seen).1 = true) :
        ∃ b' ∈ b :: rest, ∃ seen, (check b' seen).1 = true := by
      obtain ⟨b', hm, hchecked⟩ := ih h
      exact ⟨b', List.mem_cons_of_mem _ hm, hchecked⟩
    rw [anyBinding] at h
    split at h
    · exact hrest h
    · split at h
      · rename_i seen₁ hb
        exact ⟨b, by simp, _, by rw [hb]⟩
      · exact hrest h

/-- A value that is not passed at once is what one of the bindings is that are read in it. -/
theorem LooksThrough.resolveWithin_succ (hlooks : LooksThrough test parts made)
    (hmade : ¬ HasMade parts made e) :
    ∃ bs, (∀ b, b ∈ bs ↔ Reads facts scope parts block e b) ∧
      ∀ seen, resolveWithin facts scope test (budget + 1) block e seen =
        anyBinding (budget + 1) (fun b => resolveWithin facts scope test budget b.block b.value)
          bs seen := by
  obtain ⟨bs, hbs, hthrough⟩ := hlooks.through facts scope block hmade
  exact ⟨bs, hbs, fun seen => hthrough _ (fun _ => rfl) seen⟩

/-- What the search finds has a chain, whatever it remembers. -/
theorem LooksThrough.leadsWithin_of_resolveWithin (hlooks : LooksThrough test parts made)
    (h : (resolveWithin facts scope test budget block e seen).1 = true) :
    LeadsWithin facts scope parts (fun _ _ => HasMade parts made) budget block e := by
  induction budget generalizing block e seen with
  | zero =>
    rw [resolveWithin] at h
    rw [leadsWithin_zero]
    rcases hlooks.at_end with ⟨_, hmade⟩ | ⟨hfalse, _⟩
    · exact hmade
    · rw [hfalse] at h
      cases h
  | succ budget ih =>
    rw [leadsWithin_succ]
    by_cases hmade : HasMade parts made e
    · exact Or.inl hmade
    · obtain ⟨bs, hbs, hsearch⟩ := hlooks.resolveWithin_succ hmade
      rw [hsearch] at h
      obtain ⟨b, hb, seen₁, hfound⟩ := exists_of_anyBinding h
      exact Or.inr ⟨b, (hbs b).mp hb, ih hfound⟩

/-- A value was checked in vain when it is not made as wanted and each binding that is read in it
was entered with what is left of the budget. -/
def CheckedInVain (facts : FileFacts) (scope : ScopeId) (parts : Expr → Expr → Prop)
    (made : Expr → Prop) (left : Nat) (block : BlockPath) (e : Expr) (seen : Explored) : Prop :=
  ¬ HasMade parts made e ∧
    (0 < left → ∀ b, Reads facts scope parts block e b → seen.Holds b.id left)

/-- The same of the value of a binding. -/
def BindingInVain (facts : FileFacts) (scope : ScopeId) (parts : Expr → Expr → Prop)
    (made : Expr → Prop) (left : Nat) (b : Binding) (seen : Explored) : Prop :=
  CheckedInVain facts scope parts made left b.block b.value seen

theorem keeps_bindingInVain : Explored.Keeps (BindingInVain facts scope parts made) := by
  intro left b seen seen' hsub h
  exact ⟨h.1, fun hleft c hc => (h.2 hleft c hc).mono hsub⟩

theorem CheckedInVain.anti {less : Nat} (hle : less ≤ budget)
    (h : CheckedInVain facts scope parts made budget block e seen) :
    CheckedInVain facts scope parts made less block e seen :=
  ⟨h.1, fun hless b hb => (h.2 (by omega) b hb).anti hle⟩

theorem passedInVain_of_anyBinding {check : Binding → Explored → Bool × Explored}
    {bs : List Binding} (h : anyBinding budget check bs seen = (false, seen')) :
    Explored.PassedInVain (fun b seen seen' => check b seen = (false, seen')) budget bs seen
      seen' := by
  induction bs generalizing seen with
  | nil =>
    cases h
    exact .nil
  | cons b rest ih =>
    rw [anyBinding] at h
    split at h
    · exact .covered ‹_› (ih h)
    · split at h
      · cases h
      · rename_i seen₁ hb
        exact .entered hb (ih h)

theorem LooksThrough.checkedInVain (hlooks : LooksThrough test parts made)
    (hids : DistinctIds facts)
    (h : resolveWithin facts scope test budget block e seen = (false, seen')) :
    seen.GrowsSpent facts (BindingInVain facts scope parts made) seen' ∧
      CheckedInVain facts scope parts made budget block e seen' := by
  induction budget generalizing block e seen seen' with
  | zero =>
    rw [resolveWithin] at h
    rcases hlooks.at_end with ⟨htrue, _⟩ | ⟨hfalse, hmade⟩
    · cases htrue.symm.trans h
    · cases hfalse.symm.trans h
      exact ⟨.refl, hmade, by simp⟩
  | succ budget ih =>
    by_cases hmade : HasMade parts made e
    · rw [resolveWithin, hlooks.passes hmade] at h
      cases h
    · obtain ⟨bs, hbs, hsearch⟩ := hlooks.resolveWithin_succ hmade
      rw [hsearch] at h
      obtain ⟨hgrows, hall⟩ := (passedInVain_of_anyBinding h).growsSpent hids keeps_bindingInVain
        (Nat.succ_pos budget) (fun b hb => ((hbs b).mp hb).mem.1) fun b _ _ hb => ih hb
      exact ⟨hgrows, hmade, fun _ b hb => hall b ((hbs b).mpr hb)⟩

/-- Once all entries of the memory are spent, no chain leads from a value that was checked in vain.
The induction is on the budget: an entry with more budget than is asked for says more. -/
theorem not_leadsWithin_of_checkedInVain
    (hspent : ∀ e ∈ seen, seen.Spent facts (BindingInVain facts scope parts made) e.1 e.2)
    (h : CheckedInVain facts scope parts made budget block e seen) :
    ¬ LeadsWithin facts scope parts (fun _ _ => HasMade parts made) budget block e := by
  induction budget generalizing block e with
  | zero =>
    rw [leadsWithin_zero]
    exact h.1
  | succ budget ih =>
    rw [leadsWithin_succ]
    rintro (hmade | ⟨b, hread, hleads⟩)
    · exact h.1 hmade
    · obtain ⟨k, hk, hm⟩ := h.2 (Nat.succ_pos budget) b hread
      have hvain : CheckedInVain facts scope parts made (k - 1) b.block b.value seen :=
        (hspent _ hm).2 b hread.mem.1 rfl
      exact ih (hvain.anti (by omega)) hleads

/-- With ids of their own for all bindings, a value passes exactly when a chain leads from it to one
that is made as wanted. -/
theorem LooksThrough.resolveWithin_iff (hlooks : LooksThrough test parts made)
    (hids : DistinctIds facts) :
    (resolveWithin facts scope test budget block e []).1 = true ↔
      LeadsWithin facts scope parts (fun _ _ => HasMade parts made) budget block e := by
  rcases h : resolveWithin facts scope test budget block e [] with ⟨_ | _, seen'⟩
  · obtain ⟨hgrows, hvain⟩ := hlooks.checkedInVain hids h
    exact iff_of_false (by simp) (not_leadsWithin_of_checkedInVain hgrows.all_spent hvain)
  · exact iff_of_true rfl (hlooks.leadsWithin_of_resolveWithin (by rw [h]))

end

/-! ## Documents and evaluators -/

/-- A receiver is a document exactly when a chain of at most `maxHops` bindings, with `getroot()`
calls taken off anywhere on the way, leads to a call that makes one, and an evaluator exactly when
such a chain without `getroot()` leads to a call that makes one. The memory of budgets changes
neither answer. -/
theorem a_receiver_is_what_a_chain_makes_it (facts : FileFacts) (hids : DistinctIds facts)
    (reg : Registry) (scope : ScopeId) (block : BlockPath) (maxHops : Nat) (e : Expr) :
    (isDocument facts reg scope block maxHops e = true ↔
      ∃ bs last v, Chain facts scope UnderRoots block e bs last v ∧ bs.length ≤ maxHops ∧
        ∃ r, UnderRoots r v ∧ MadeBy reg Registry.documentProducers r) ∧
    (isEvaluator facts reg scope block maxHops e = true ↔
      ∃ bs last v, Chain facts scope (· = ·) block e bs last v ∧ bs.length ≤ maxHops ∧
        MadeBy reg Registry.evaluatorFactories v) ∧
    isDocument facts reg scope block maxHops e = isDocumentAnew facts reg scope block maxHops e ∧
    isEvaluator facts reg scope block maxHops e =
      isEvaluatorAnew facts reg scope block maxHops e := by
  have hdocument := looksThrough_isDocumentBy reg
  have hevaluator := looksThrough_isEvaluatorBy reg
  refine ⟨hdocument.resolveWithin_iff hids, ?_, ?_, ?_⟩
  · rw [isEvaluator, hevaluator.resolveWithin_iff hids]
    simp [LeadsWithin, HasMade]
  · rw [Bool.eq_iff_iff, isDocument, isDocumentAnew, hdocument.resolveWithin_iff hids,
      hdocument.resolveAnew_iff]
  · rw [Bool.eq_iff_iff, isEvaluator, isEvaluatorAnew, hevaluator.resolveWithin_iff hids,
      hevaluator.resolveAnew_iff]

/-! ## A root of a parsed document -/

/-- The value of `etree.parse(f)`. -/
def parseCall : Expr :=
  .call (.member (.name "etree" ⟨"etree", 7, default⟩) "parse" ⟨"etree.parse", 7, default⟩)
    (some "lxml.etree.parse") [] ⟨"etree.parse(f)", 7, default⟩

/-- The value of `tree.getroot()`, which reads the name of the document. -/
def rootCall : Expr :=
  .call (.member (.name "tree" ⟨"tree", 29, default⟩) "getroot" ⟨"tree.getroot", 29, default⟩)
    (some "tree.getroot") [] ⟨"tree.getroot()", 29, default⟩

def treeBinding : Binding :=
  { id := 1, name := "tree", value := parseCall, scope := moduleScope, block := [], pos := 21,
    place := default }

def rootBinding : Binding :=
  { id := 2, name := "root", value := rootCall, scope := moduleScope, block := [], pos := 43,
    place := default }

def parsedFacts : FileFacts :=
  { FileFacts.empty "app.py" "python" with bindings := [treeBinding, rootBinding] }

theorem a_receiver_is_what_a_chain_makes_it_of_a_root :
    DistinctIds parsedFacts ∧
      isDocument parsedFacts .builtin moduleScope [] 2 (.name "root" ⟨"root", 44, default⟩) =
        true := by
  have hids : DistinctIds parsedFacts := by decide
  have htree : reachingBindings parsedFacts "tree" moduleScope [] 29 = [treeBinding] := by cbv
  have hroot : reachingBindings parsedFacts "root" moduleScope [] 44 = [rootBinding] := by cbv
  have hchain : Chain parsedFacts moduleScope UnderRoots [] (.name "root" ⟨"root", 44, default⟩)
      (([] ++ [treeBinding]) ++ [rootBinding]) [] parseCall := by
    refine .snoc ⟨_, .self, rfl, hroot ▸ List.mem_singleton_self _⟩ (.snoc ?_ .nil)
    exact ⟨_, .root .self, rfl, htree ▸ List.mem_singleton_self _⟩
  have hmade : MadeBy .builtin Registry.documentProducers parseCall :=
    ⟨_, "lxml.etree.parse", "parse", _, _, rfl, by cbv, by decide⟩
  have h := a_receiver_is_what_a_chain_makes_it parsedFacts hids .builtin moduleScope [] 2
    (.name "root" ⟨"root", 44, default⟩)
  exact ⟨hids, h.1.mpr ⟨_, _, _, hchain, by decide, parseCall, .self, hmade⟩⟩

end XPathTaint
