import XPathTaint.Python.Tree

-- Induction over syntax trees. A tree holds lists of trees, of arguments, of clauses and of
-- branches; what holds of all parts of a tree holds of the members of those lists.

namespace XPathTaint.Python

/-! ## Nodes -/

/-- What holds of all nodes in a part of a comprehension. -/
def ClauseOf.Holds (motive : Node → Prop) : ClauseOf Node → Prop
  | .loop target sources => motive target ∧ ∀ n ∈ sources, motive n
  | .guard condition => motive condition

@[elab_as_elim]
theorem Node.ind {motive : Node → Prop} (name : ∀ s, motive (.name s))
    (constant : ∀ s, motive (.constant s))
    (string : ∀ s values formats, (∀ n ∈ values, motive n) → (∀ n ∈ formats, motive n) →
      motive (.string s values formats))
    (strings : ∀ s parts, (∀ n ∈ parts, motive n) → motive (.strings s parts))
    (member : ∀ s object attr, motive object → motive (.member s object attr))
    (subscript : ∀ s value indices, motive value → (∀ n ∈ indices, motive n) →
      motive (.subscript s value indices))
    (call : ∀ s func args, motive func → (∀ a ∈ args, motive a.value) → motive (.call s func args))
    (paren : ∀ s lead inner, motive inner → motive (.paren s lead inner))
    (starred : ∀ s lead inner, motive inner → motive (.starred s lead inner))
    (hidden : ∀ comment inner, motive inner → motive (.hidden comment inner))
    (walrus : ∀ s target value, motive value → motive (.walrus s target value))
    (aliased : ∀ s value targetSpan target, motive value → motive target →
      motive (.aliased s value targetSpan target))
    (lambda : ∀ s params defaults body, (∀ n ∈ defaults, motive n) → motive body →
      motive (.lambda s params defaults body))
    (comprehension : ∀ s body clauses, motive body → (∀ c ∈ clauses, c.Holds motive) →
      motive (.comprehension s body clauses))
    (test : ∀ s parts, (∀ n ∈ parts, motive n) → motive (.test s parts))
    (group : ∀ s form parts, (∀ n ∈ parts, motive n) → motive (.group s form parts))
    (n : Node) : motive n := by
  refine @Node.rec motive (fun ns => ∀ n ∈ ns, motive n) (fun args => ∀ a ∈ args, motive a.value)
    (fun clauses => ∀ c ∈ clauses, c.Holds motive) (fun a => motive a.value)
    (fun c => c.Holds motive) name constant string strings member subscript call paren starred
    hidden walrus aliased lambda comprehension test group ?noNode ?node ?noArgument ?argument
    ?noClause ?clause ?value ?loop ?guard n
  case noNode => simp
  case node => exact fun n rest h hs => by simpa using ⟨h, hs⟩
  case noArgument => simp
  case argument => exact fun a rest h hs => by simpa using ⟨h, hs⟩
  case noClause => simp
  case clause => exact fun c rest h hs => by simpa using ⟨h, hs⟩
  case value => exact fun _ _ _ h => h
  case loop => exact fun _ _ h hs => ⟨h, hs⟩
  case guard => exact fun _ h => h

def ClauseOf.parts : ClauseOf Node → List Node
  | .loop target sources => target :: sources
  | .guard condition => [condition]

/-- The nodes right below a node. -/
def Node.parts : Node → List Node
  | .name _ => []
  | .constant _ => []
  | .string _ values formats => values ++ formats
  | .strings _ parts => parts
  | .member _ object _ => [object]
  | .subscript _ value indices => value :: indices
  | .call _ func args => func :: args.map (·.value)
  | .paren _ _ inner => [inner]
  | .starred _ _ inner => [inner]
  | .hidden _ inner => [inner]
  | .walrus _ _ value => [value]
  | .aliased _ value _ target => [value, target]
  | .lambda _ _ defaults body => defaults ++ [body]
  | .comprehension _ body clauses => body :: clauses.flatMap (·.parts)
  | .test _ parts => parts
  | .group _ _ parts => parts

/-- What holds of a node when it holds of the nodes right below it holds of all nodes. -/
@[elab_as_elim]
theorem Node.partsInd {motive : Node → Prop}
    (step : ∀ n : Node, (∀ m ∈ n.parts, motive m) → motive n) (n : Node) : motive n := by
  induction n using Node.ind with
  | name s => exact step _ (by simp [Node.parts])
  | constant s => exact step _ (by simp [Node.parts])
  | string s values formats ihv ihf =>
    refine step _ fun m hm => ?_
    rcases List.mem_append.mp hm with hm | hm
    · exact ihv m hm
    · exact ihf m hm
  | strings s parts ih => exact step _ ih
  | member s object attr ih => exact step _ (by simpa [Node.parts] using ih)
  | subscript s value indices ihv ihi => exact step _ (by simpa [Node.parts] using ⟨ihv, ihi⟩)
  | call s func args ihf iha => exact step _ (by simpa [Node.parts] using ⟨ihf, iha⟩)
  | paren s lead inner ih => exact step _ (by simpa [Node.parts] using ih)
  | starred s lead inner ih => exact step _ (by simpa [Node.parts] using ih)
  | hidden comment inner ih => exact step _ (by simpa [Node.parts] using ih)
  | walrus s target value ih => exact step _ (by simpa [Node.parts] using ih)
  | aliased s value targetSpan target ihv iht =>
    exact step _ (by simpa [Node.parts] using ⟨ihv, iht⟩)
  | lambda s params defaults body ihd ihb =>
    refine step _ fun m hm => ?_
    rcases List.mem_append.mp hm with hm | hm
    · exact ihd m hm
    · rw [List.mem_singleton.mp hm]
      exact ihb
  | comprehension s body clauses ihb ihc =>
    refine step _ fun m hm => ?_
    rcases List.mem_cons.mp hm with rfl | hm
    · exact ihb
    · obtain ⟨c, hc, hm⟩ := List.mem_flatMap.mp hm
      have h := ihc c hc
      cases c with
      | loop target sources =>
        rcases List.mem_cons.mp hm with rfl | hm
        · exact h.1
        · exact h.2 m hm
      | guard condition =>
        rw [List.mem_singleton.mp hm]
        exact h
  | test s parts ih => exact step _ ih
  | group s form parts ih => exact step _ ih

/-! ## Statements -/

@[elab_as_elim]
theorem Stmt.ind {motive : Stmt → Prop} (values : ∀ parts, motive (.values parts))
    (assign : ∀ stop targets value, motive (.assign stop targets value))
    (augmented : ∀ s target value, motive (.augmented s target value))
    (imports : ∀ clauses, motive (.imports clauses))
    (choice : ∀ condition body branches, (∀ t ∈ body, motive t) →
      (∀ b ∈ branches, ∀ t ∈ b.body, motive t) → motive (.choice condition body branches))
    (whileLoop : ∀ condition body branches, (∀ t ∈ body, motive t) →
      (∀ b ∈ branches, ∀ t ∈ b.body, motive t) → motive (.whileLoop condition body branches))
    (forLoop : ∀ target source body branches, (∀ t ∈ body, motive t) →
      (∀ b ∈ branches, ∀ t ∈ b.body, motive t) → motive (.forLoop target source body branches))
    (attempt : ∀ body branches final, (∀ t ∈ body, motive t) →
      (∀ b ∈ branches, ∀ t ∈ b.body, motive t) → (∀ t ∈ final, motive t) →
      motive (.attempt body branches final))
    (withItems : ∀ items body, (∀ t ∈ body, motive t) → motive (.withItems items body))
    (cases : ∀ subjects branches, (∀ b ∈ branches, ∀ t ∈ b.body, motive t) →
      motive (.cases subjects branches))
    (functionDef : ∀ s name params defaults body, (∀ t ∈ body, motive t) →
      motive (.functionDef s name params defaults body))
    (classDef : ∀ s name bases body, (∀ t ∈ body, motive t) →
      motive (.classDef s name bases body))
    (decorated : ∀ decorators definition, motive definition →
      motive (.decorated decorators definition))
    (t : Stmt) : motive t := by
  refine @Stmt.rec motive (fun ts => ∀ t ∈ ts, motive t)
    (fun branches => ∀ b ∈ branches, ∀ t ∈ b.body, motive t) (fun b => ∀ t ∈ b.body, motive t)
    values assign augmented imports choice whileLoop forLoop attempt withItems cases functionDef
    classDef decorated ?noStmt ?stmt ?noBranch ?branch ?body t
  case noStmt => simp
  case stmt => exact fun t rest h hs => by simpa using ⟨h, hs⟩
  case noBranch => simp
  case branch => exact fun b rest h hs => by simpa using ⟨h, hs⟩
  case body => exact fun _ _ h => h

end XPathTaint.Python
