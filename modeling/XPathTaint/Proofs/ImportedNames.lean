import Mathlib.Data.List.Induction
import Mathlib.Tactic.Common
import XPathTaint.Python.Imports

-- What names stand for behind the imports of a program. Every clause binds one name, to a path or
-- to itself. The table of aliases keeps the last path that a name was bound to: a clause behind it
-- that binds the name to itself does not take the alias away.

namespace XPathTaint

/-! ## Tables of symbols -/

namespace Symbols

variable {symbols : Symbols} {name other : String} {symbol : Symbol}

theorem get?_insert_self : (symbols.insert name symbol).get? name = some symbol := by
  have hold : (symbols.filter fun entry => entry.1 != name).find? (fun entry => entry.1 == name) =
      none := by
    rw [List.find?_eq_none]
    intro entry hentry
    simpa using (List.mem_filter.mp hentry).2
  simp [get?, insert, List.find?_append, hold]

theorem get?_insert_other (h : other ≠ name) :
    (symbols.insert name symbol).get? other = symbols.get? other := by
  have hold : (symbols.filter fun entry => entry.1 != name).find? (fun entry => entry.1 == other) =
      symbols.find? (fun entry => entry.1 == other) := by
    rw [List.find?_filter]
    congr 1
    funext entry
    by_cases hentry : entry.1 = other
    · simp [hentry, h]
    · simp [hentry]
  simp [get?, insert, List.find?_append, hold, h.symm]

end Symbols

namespace Python

/-! ## Clauses -/

/-- The name that a path starts with. -/
def firstName (path : String) : String := String.ofList (wordOf path.toList)

namespace ImportClause

/-- The local name that a clause binds, and what it binds it to. The plain import of a module binds
the first name of its path, to itself. -/
def binds : ImportClause → String × String
  | .module path => (firstName path, firstName path)
  | .moduleAs path newName => (newName, path)
  | .member source name => (name, qualified source name)
  | .memberAs source name newName => (newName, qualified source name)

/-- What a clause binds a name to, unless that is the name itself. -/
def aliasOf? (name : String) (c : ImportClause) : Option String :=
  if c.binds.1 = name ∧ c.binds.2 ≠ name then some c.binds.2 else none

end ImportClause

/-- What a name stands for behind clauses: the last one that binds it decides. -/
def standsFor (clauses : List ImportClause) (name : String) : Option String :=
  (clauses.reverse.find? fun c => c.binds.1 == name).bind (·.aliasOf? name)

-- A name that is bound to itself at last stands for itself.
example : standsFor [.member "lxml" "etree", .module "etree.ElementTree"] "etree" = none := by
  decide +kernel

section

variable {symbols : Symbols} {clauses : List ImportClause} {c : ImportClause} {name path : String}

theorem aliasOf?_of_other (h : c.binds.1 ≠ name) : c.aliasOf? name = none := by
  simp [ImportClause.aliasOf?, h]

/-- A clause that binds a name to something else sets its symbol, and no other one does. -/
theorem get?_addAlias : (addAlias symbols c).get? name =
    ((c.aliasOf? name).map fun path => ⟨name, some path⟩).or (symbols.get? name) := by
  have hset : ∀ new path, c.alias? = some (new, path) → c.binds = (new, path) →
      (addAlias symbols c).get? name =
        ((c.aliasOf? name).map fun path => ⟨name, some path⟩).or (symbols.get? name) := by
    intro new path halias hbinds
    simp only [addAlias, halias, ImportClause.aliasOf?, hbinds]
    by_cases hself : new = path
    · subst hself
      by_cases hname : new = name <;> simp [hname]
    · by_cases hname : new = name
      · subst hname
        simp [hself, Ne.symm hself, Symbols.get?_insert_self]
      · simp [hself, hname, Symbols.get?_insert_other (Ne.symm hname)]
  cases c with
  | module path =>
    have hnone : (ImportClause.module path).aliasOf? name = none := by
      simp [ImportClause.aliasOf?, ImportClause.binds]
    rw [hnone]
    rfl
  | moduleAs path newName => exact hset _ _ rfl rfl
  | member source name => exact hset _ _ rfl rfl
  | memberAs source name newName => exact hset _ _ rfl rfl

/-- The last alias of a name stays. -/
theorem get?_foldl_addAlias (clauses : List ImportClause) (name : String) :
    (clauses.foldl addAlias []).get? name =
      (clauses.filterMap (·.aliasOf? name)).getLast?.map fun path => ⟨name, some path⟩ := by
  -- a clause more is the one that the fold reads last
  induction clauses using List.reverseRecOn with
  | nil => rfl
  | append_singleton front c ih =>
    rw [List.foldl_append, List.foldl_cons, List.foldl_nil, get?_addAlias, ih,
      List.filterMap_append]
    cases h : c.aliasOf? name with
    | none => simp [h]
    | some path => simp [h]

theorem standsFor_concat : standsFor (clauses ++ [c]) name =
    if c.binds.1 = name then c.aliasOf? name else standsFor clauses name := by
  unfold standsFor
  rw [List.reverse_append, List.reverse_singleton, List.singleton_append]
  by_cases h : c.binds.1 = name
  · rw [List.find?_cons_of_pos (by simpa using h), if_pos h, Option.bind_some]
  · rw [List.find?_cons_of_neg (by simpa using h), if_neg h]

/-- What the last clause of a name gives is the last alias, if it gives one. -/
theorem getLast?_of_standsFor (h : standsFor clauses name = some path) :
    (clauses.filterMap (·.aliasOf? name)).getLast? = some path := by
  induction clauses using List.reverseRecOn with
  | nil => cases h
  | append_singleton front c ih =>
    rw [standsFor_concat] at h
    split at h
    · simp [h]
    · rename_i hother
      simpa [aliasOf?_of_other hother] using ih h

end

/-! ## Programs -/

/-- Behind all imports of a program, wherever they stand, a name is an alias for the last path that
a clause binds it to. This is what the name stands for exactly if it stands for a path, or if no
clause makes an alias of it. -/
theorem the_last_alias_of_a_name_stays (stmts : List Stmt) (name : String) :
    let clauses := importsOfAll stmts
    let symbols := symbolsOf stmts
    symbols.get? name =
        ((clauses.filterMap (·.aliasOf? name)).getLast?.map fun path => ⟨name, some path⟩) ∧
      (symbols.target? name = standsFor clauses name ↔
        ((standsFor clauses name).isSome ∨ ∀ c ∈ clauses, c.aliasOf? name = none)) := by
  intro clauses symbols
  have hget : symbols.get? name = _ := get?_foldl_addAlias clauses name
  have htarget : symbols.target? name = (clauses.filterMap (·.aliasOf? name)).getLast? := by
    rw [Symbols.target?, hget, Option.bind_map]
    exact Option.bind_fun_some _
  refine ⟨hget, ?_⟩
  rw [htarget]
  cases hstands : standsFor clauses name with
  | some path => simp [getLast?_of_standsFor hstands]
  | none => simp

/-- An import of a module by its own name behind an alias of that name leaves the alias. -/
theorem an_alias_outlives_the_import_of_its_own_name :
    let stmts : List Stmt :=
      [.imports [.member "lxml" "etree"], .imports [.module "etree"]]
    standsFor (importsOfAll stmts) "etree" = none ∧
      (symbolsOf stmts).target? "etree" = some "lxml.etree" := by
  decide +kernel

end Python

end XPathTaint
