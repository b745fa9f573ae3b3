import XPathTaint.Proofs.LoweringSteps
import XPathTaint.Python.Statement

-- Which calls become call sites: those that are read, each of them once, in order, with its
-- place and text and in the scope of the definition that owns it. So every call of a program
-- is recorded exactly when none of them stands where the lowering does not look.

namespace XPathTaint.Python

/-! ## Sites -/

/-- Where a call stands and what it looks like, and the definition around it. -/
structure SiteView where
  pos : Nat
  place : Place
  text : String
  ownerName : String
  ownerPlace : Place
  deriving DecidableEq

/-- What a call of a program should be recorded as. -/
def CallNode.view (path : String) (c : CallNode) : SiteView :=
  ⟨c.span.pos, placeIn path c.span, c.span.text, c.owner.name, placeIn path c.owner.start⟩

/-- What a call site says of its call, given the recorded scopes. -/
def viewOf (scopes : List Scope) (c : CallSite) : Option SiteView :=
  scopes[c.scope]?.map fun s => ⟨c.pos, c.place, c.text, s.name, s.place⟩

/-- The scope around is recorded, with the name and place of the owner. -/
def Owned (o : Owner) (a : Around) (s : Lowered) : Prop :=
  o.names = a.qualifiers ∧
    ∃ scope, s.scopes[a.scope]? = some scope ∧ scope.name = o.name ∧
      scope.place = placeIn a.path o.start

/-- The calls that are read are recorded, in order, whatever scopes are recorded later. -/
def Records (path : String) (o : Owner) (a : Around) (cs : List CallNode) (s s' : Lowered) : Prop :=
  a.path = path → Owned o a s →
    ∃ calls scopes, s'.calls = s.calls ++ calls ∧ s'.scopes = s.scopes ++ scopes ∧
      ∀ later, calls.map (viewOf (s'.scopes ++ later)) =
        (cs.filter (·.isRead)).map fun c => some (c.view path)

section

variable {path : String} {o : Owner} {a : Around} {s s' : Lowered} {cs : List CallNode}

theorem filter_read_eq_nil (h : NoneRead cs) : cs.filter (·.isRead) = [] := by
  rw [List.filter_eq_nil_iff]
  intro c hc
  simp [h c hc]

theorem viewOf_numberCall (scopes : List Scope) (c : CallSite) :
    viewOf scopes (FileFacts.numberCall path c) = viewOf scopes c := by
  unfold FileFacts.numberCall
  split <;> rfl

theorem Owned.grow {scopes : List Scope} (h : Owned o a s) (hs : s'.scopes = s.scopes ++ scopes) :
    Owned o a s' := by
  obtain ⟨hnames, scope, hscope, hname, hplace⟩ := h
  refine ⟨hnames, scope, ?_, hname, hplace⟩
  obtain ⟨hlt, _⟩ := List.getElem?_eq_some_iff.mp hscope
  rw [hs, List.getElem?_append_left hlt, hscope]

/-- Steps that record neither calls nor scopes. -/
theorem Records.silent (hc : s'.calls = s.calls) (hs : s'.scopes = s.scopes) :
    Records path o a [] s s' := by
  intro _ _
  exact ⟨[], [], by rw [hc, List.append_nil], by rw [hs, List.append_nil], fun _ => rfl⟩

/-- A body in a scope of its own is owned by its definition. -/
theorem Owned.inside {scope : Scope} {name : String} {span : Span} (h : Owned o a s)
    (hname : scope.name = a.qualify name) (hplace : scope.place = a.place span) :
    Owned (o.inside name span) (a.within s.scopes.length name)
      { s with scopes := s.scopes ++ [scope] } := by
  refine ⟨?_, scope, ?_, ?_, ?_⟩
  · rw [Owner.inside, Around.within, h.1]
  · exact List.getElem?_concat_length
  · rw [hname, Around.qualify, Owner.name, Owner.inside, h.1]
    simp
  · exact hplace

theorem records_stepInvariant : StepInvariant (Records path) where
  skip := by
    intro o a cs s h _ _
    refine ⟨[], [], by simp, by simp, ?_⟩
    rw [filter_read_eq_nil h]
    exact fun _ => rfl
  trans := by
    intro o a cs cs' s₁ s₂ s₃ h₁ h₂ hpath howned
    obtain ⟨calls₁, scopes₁, hc₁, hs₁, hv₁⟩ := h₁ hpath howned
    obtain ⟨calls₂, scopes₂, hc₂, hs₂, hv₂⟩ := h₂ hpath (howned.grow hs₁)
    refine ⟨calls₁ ++ calls₂, scopes₁ ++ scopes₂, ?_, ?_, ?_⟩
    · rw [hc₂, hc₁, List.append_assoc]
    · rw [hs₂, hs₁, List.append_assoc]
    · intro later
      have hv := hv₁ (scopes₂ ++ later)
      rw [← List.append_assoc, ← hs₂] at hv
      rw [List.map_append, hv, hv₂ later, List.filter_append, List.map_append]
  log := fun _ => Records.silent rfl rfl
  bind := fun _ _ _ _ => Records.silent rfl rfl
  call := by
    intro o a s c span func args hscope _ hpos hplace htext hpath howned
    have hs : (Lowering.recordCall a c s).2.scopes = s.scopes := rfl
    refine ⟨[FileFacts.numberCall a.path c], [], rfl, by rw [hs, List.append_nil], ?_⟩
    intro later
    obtain ⟨_, scope, hown, hname, hown'⟩ := howned
    obtain ⟨hlt, _⟩ := List.getElem?_eq_some_iff.mp hown
    have hview : viewOf (s.scopes ++ later) c = some ⟨span.pos, placeIn path span, span.text,
        o.name, placeIn path o.start⟩ := by
      subst hpath
      rw [viewOf, hscope, List.getElem?_append_left hlt, hown, hpos, hplace, htext]
      simp [hname, hown', placeIn, Around.place]
    rw [hs, List.map_singleton, viewOf_numberCall, hview]
    rfl
  branch := by
    intro o a cs s s' h hpath howned
    exact h hpath howned
  scope := by
    intro o a cs s s' scope name span _ hname _ hplace h hpath howned
    obtain ⟨calls, scopes, hc, hs, hv⟩ := h hpath (howned.inside hname hplace)
    exact ⟨calls, scope :: scopes, hc, by simp [hs], hv⟩

/-! ## Programs -/

theorem owned_module (path : String) (symbols : Symbols) (p : Program) :
    Owned p.owner (Around.ofModule path symbols) (Lowered.ofModule path p) :=
  ⟨rfl, _, rfl, rfl, rfl⟩

theorem recorded_views (path : String) (symbols : Symbols) (p : Program) :
    (lowerProgram path symbols p).calls.map (viewOf (lowerProgram path symbols p).scopes) =
      (p.calls.filter (·.isRead)).map fun c => some (c.view path) := by
  have h := records_stepInvariant.lowerProgram (R := Records path) path symbols p
  obtain ⟨calls, scopes, hc, _, hv⟩ := h rfl (owned_module path symbols p)
  have hcalls : (lowerProgram path symbols p).calls = calls := hc
  have hview := hv []
  rw [List.append_nil] at hview
  rw [hcalls, hview]

/-- The call sites are the calls that are read, each once and in order, with their places, texts
and owners; they are all calls exactly if every call is read. -/
theorem every_call_that_is_read_is_recorded_once (path : String) (symbols : Symbols)
    (p : Program) :
    let found := lowerProgram path symbols p
    found.calls.map (viewOf found.scopes) =
        ((p.calls.filter (·.isRead)).map fun c => some (c.view path)) ∧
      ((found.calls.map (viewOf found.scopes)).Perm (p.calls.map fun c => some (c.view path)) ↔
        ∀ c ∈ p.calls, c.isRead = true) := by
  intro found
  have hviews := recorded_views path symbols p
  refine ⟨hviews, ?_⟩
  rw [hviews]
  constructor
  · intro h
    have hlen := h.length_eq
    rw [List.length_map, List.length_map] at hlen
    exact List.length_filter_eq_length_iff.mp hlen
  · intro h
    rw [List.filter_eq_self.mpr h]

/-- Of two indices only the first is read, so a call in the second is lost. -/
theorem a_call_in_a_second_index_is_lost :
    let p := Program.read "a[0, f(x)]\n"
    let found := lowerProgram "a.py" [] p
    ¬ (found.calls.map (viewOf found.scopes)).Perm (p.calls.map fun c => some (c.view "a.py")) := by
  intro p found h
  have hfound : found.calls.length = 0 := by decide +kernel
  have hcalls : p.calls.length = 1 := by decide +kernel
  have hlen := h.length_eq
  rw [List.length_map, List.length_map, hfound, hcalls] at hlen
  exact absurd hlen (by decide)

end

end XPathTaint.Python
