import Mathlib.Data.List.Induction
import XPathTaint.Proofs.DottedPaths
import XPathTaint.Proofs.FindingOrder

-- Paths that go on from another one by names. Each name is one more component, whatever the path
-- looks like that they go on from: so different names give different paths, and the paths in one
-- directory stand in the order of their last names.

namespace XPathTaint.Path

open Files (IsName)

section

variable {path name other : String} {within within' : List String}

/-! ## Components -/

theorem componentsOf_append (first : Bool) (pieces more : List String) :
    componentsOf first (pieces ++ more) =
      componentsOf first pieces ++ componentsOf (first && pieces.all String.isEmpty) more := by
  induction pieces generalizing first with
  | nil => simp [componentsOf]
  | cons piece pieces ih =>
    by_cases hempty : piece.isEmpty = true
    · simp [componentsOf, hempty, ih]
    · have hall : (first && (piece :: pieces).all String.isEmpty) = false := by simp [hempty]
      have hrest := ih false
      rw [Bool.false_and] at hrest
      rw [hall, List.cons_append, componentsOf, componentsOf, if_neg hempty, if_neg hempty, hrest]
      split
      · split <;> rfl
      · split <;> rfl

theorem componentsOf_name (first : Bool) (h : IsName name) :
    componentsOf first [name] = [.name name] := by
  rw [componentsOf, if_neg (by simpa using h.filled), if_neg h.notHere, if_neg h.notParent]
  rfl

theorem isAbsolute_append (h : path ≠ "") (rest : String) :
    isAbsolute (path ++ rest) = isAbsolute path := by
  obtain ⟨c, hc⟩ : ∃ c, path.toList.head? = some c :=
    Option.ne_none_iff_exists'.mp (by simpa using h)
  simp [isAbsolute, List.head?_append, hc]

theorem join_ne_empty (hpath : path ≠ "") (hname : IsName name) : join path name ≠ "" := by
  rw [Files.join_name hpath hname]
  split <;> simp [hpath]

/-- The pieces of a path that goes on by a name: an empty last piece gives way to it. -/
theorem pieces_join (hpath : path ≠ "") (hname : IsName name) :
    ∃ front, Path.pieces (join path name) = front ++ [name] ∧
      (Path.pieces path = front ∨ Path.pieces path = front ++ [""]) := by
  rw [Files.join_name hpath hname]
  split
  · rename_i hslash
    obtain ⟨front, hfront⟩ := List.getLast?_eq_some_iff.mp hslash
    refine ⟨(Text.splitAtChar '/' front).map String.ofList, ?_, .inr ?_⟩
    · have htext : (path ++ name).toList = front ++ '/' :: name.toList := by simp [hfront]
      rw [Path.pieces, htext, Text.splitAtChar_at_mark, Text.splitAtChar_plain hname.plain]
      simp
    · rw [Path.pieces, hfront, Text.splitAtChar_at_mark]
      simp [Text.splitAtChar]
  · refine ⟨Path.pieces path, ?_, .inl rfl⟩
    have htext : (path ++ "/" ++ name).toList = path.toList ++ '/' :: name.toList := by simp
    rw [Path.pieces, htext, Text.splitAtChar_at_mark, Text.splitAtChar_plain hname.plain]
    simp [Path.pieces]

/-- A name is one component more. -/
theorem components_join (hpath : path ≠ "") (hname : IsName name) :
    components (join path name) = components path ++ [.name name] := by
  obtain ⟨front, hjoined, hpieces⟩ := pieces_join hpath hname
  have habsolute : isAbsolute (join path name) = isAbsolute path := by
    rw [Files.join_name hpath hname]
    split
    · exact isAbsolute_append hpath name
    · rw [String.append_assoc]
      exact isAbsolute_append hpath ("/" ++ name)
  have hsame : ∀ first, componentsOf first (Path.pieces (join path name)) =
      componentsOf first (Path.pieces path) ++ [.name name] := by
    intro first
    rw [hjoined, componentsOf_append, componentsOf_name _ hname]
    rcases hpieces with hpieces | hpieces
    · rw [hpieces]
    · rw [hpieces, componentsOf_append]
      simp [componentsOf]
  unfold components
  rw [habsolute, hsame, hsame]
  split <;> rfl

/-! ## Paths below a path -/

/-- The path that goes on from a path by names. -/
def below (path : String) (within : List String) : String := within.foldl join path

theorem below_concat (path : String) (within : List String) (name : String) :
    below path (within ++ [name]) = join (below path within) name := by
  simp [below]

theorem below_ne_empty (hpath : path ≠ "") (hwithin : ∀ n ∈ within, IsName n) :
    below path within ≠ "" := by
  induction within using List.reverseRecOn with
  | nil => exact hpath
  | append_singleton within name ih =>
    obtain ⟨hwithin, hname⟩ := List.forall_mem_append.mp hwithin
    rw [below_concat]
    exact join_ne_empty (ih hwithin) (hname name (List.mem_singleton_self name))

theorem components_below (hpath : path ≠ "") (hwithin : ∀ n ∈ within, IsName n) :
    components (below path within) = components path ++ within.map Component.name := by
  induction within using List.reverseRecOn with
  | nil => simp [below]
  | append_singleton within name ih =>
    obtain ⟨hwithin, hname⟩ := List.forall_mem_append.mp hwithin
    rw [below_concat, components_join (below_ne_empty hpath hwithin)
      (hname name (List.mem_singleton_self name)), ih hwithin]
    simp

/-- From a path of names one goes on to the path of all names. -/
theorem below_pathOf {names : List String} (h : ∀ n ∈ names, IsName n)
    (hwithin : ∀ n ∈ within, IsName n) :
    below (Files.Tree.pathOf names) within = Files.Tree.pathOf (names ++ within) := by
  induction within using List.reverseRecOn with
  | nil => rw [List.append_nil, below, List.foldl_nil]
  | append_singleton within name ih =>
    obtain ⟨hwithin, hname⟩ := List.forall_mem_append.mp hwithin
    rw [below_concat, ih hwithin, Files.join_pathOf (List.forall_mem_append.mpr ⟨h, hwithin⟩)
      (hname name (List.mem_singleton_self name)), List.append_assoc]

/-- Different names lead on to different paths. -/
theorem below_inj (hpath : path ≠ "") (h : ∀ n ∈ within, IsName n) (h' : ∀ n ∈ within', IsName n)
    (heq : below path within = below path within') : within = within' := by
  have hcomponents := congrArg components heq
  rw [components_below hpath h, components_below hpath h'] at hcomponents
  exact (List.map_inj_right fun _ _ => Component.name.inj).mp
    (List.append_cancel_left hcomponents)

/-! ## Order -/

theorem compareComponents_append_left (cs as bs : List Component) :
    compareComponents (cs ++ as) (cs ++ bs) = compareComponents as bs := by
  induction cs with
  | nil => rfl
  | cons c cs ih =>
    have hself : c.compare c = .eq := Std.ReflCmp.compare_self
    rw [List.cons_append, List.cons_append, compareComponents, hself, ih]
    rfl

/-- In one directory the order of paths is that of the last names. -/
theorem compare_siblings (hpath : path ≠ "") (hname : IsName name) (hother : IsName other) :
    Path.compare (join path name) (join path other) = Ord.compare name other := by
  unfold Path.compare
  rw [components_join hpath hname, components_join hpath hother, compareComponents_append_left]
  simp [compareComponents, Component.compare]

end

end XPathTaint.Path
