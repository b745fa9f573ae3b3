import XPathTaint.Files.Walk
import XPathTaint.Proofs.TreeWriting

-- The path of names from the root and back: its pieces are the names, it goes on with one name
-- more, and it leads to what the names lead to.

namespace XPathTaint

/-! ## Pieces -/

namespace Text

variable {mark : Char} {piece rest : List Char}

theorem splitAtChar_plain (h : mark ∉ piece) : splitAtChar mark piece = [piece] := by
  induction piece with
  | nil => rfl
  | cons c piece ih =>
    obtain ⟨hc, hpiece⟩ : mark ≠ c ∧ mark ∉ piece := by simpa using h
    rw [splitAtChar, if_neg hc.symm, ih hpiece]

theorem splitAtChar_append (h : mark ∉ piece) :
    splitAtChar mark (piece ++ mark :: rest) = piece :: splitAtChar mark rest := by
  induction piece with
  | nil => simp [splitAtChar]
  | cons c piece ih =>
    obtain ⟨hc, hpiece⟩ : mark ≠ c ∧ mark ∉ piece := by simpa using h
    rw [List.cons_append, splitAtChar, if_neg hc.symm, ih hpiece]

end Text

namespace Files

/-- A text that paths take for the name of an entry. -/
structure IsName (s : String) : Prop where
  filled : s ≠ ""
  notHere : s ≠ "."
  notParent : s ≠ ".."
  plain : '/' ∉ s.toList

instance (s : String) : Decidable (IsName s) :=
  decidable_of_iff (s ≠ "" ∧ s ≠ "." ∧ s ≠ ".." ∧ '/' ∉ s.toList)
    ⟨fun h => ⟨h.1, h.2.1, h.2.2.1, h.2.2.2⟩, fun h => ⟨h.1, h.2, h.3, h.4⟩⟩

section

variable {name : String} {names : List String}

/-! ## Texts of paths -/

theorem toList_pathOf_cons (name : String) (names : List String) :
    (Tree.pathOf (name :: names)).toList = (name :: names).flatMap fun n => '/' :: n.toList := by
  induction names generalizing name with
  | nil => simp [Tree.pathOf]
  | cons next names ih =>
    have hrest := ih next
    simp only [Tree.pathOf, String.toList_append] at hrest ⊢
    rw [String.intercalate_cons_cons, String.toList_append, String.toList_append,
      List.append_assoc, hrest]
    simp

theorem toList_pathOf (h : names ≠ []) :
    (Tree.pathOf names).toList = names.flatMap fun n => '/' :: n.toList := by
  cases names with
  | nil => exact absurd rfl h
  | cons name names => exact toList_pathOf_cons name names

theorem isAbsolute_pathOf (names : List String) : Path.isAbsolute (Tree.pathOf names) = true := by
  simp [Path.isAbsolute, Tree.pathOf]

theorem pathOf_ne_empty (names : List String) : (Tree.pathOf names).isEmpty = false := by
  rw [← Bool.not_eq_true, String.isEmpty_iff]
  intro h
  simpa [Tree.pathOf] using congrArg String.toList h

theorem splitAtChar_names (h : ∀ n ∈ name :: names, IsName n) :
    Text.splitAtChar '/' ((name :: names).flatMap fun n => '/' :: n.toList) =
      [] :: (name :: names).map String.toList := by
  induction names generalizing name with
  | nil =>
    rw [List.flatMap_cons, List.flatMap_nil, List.append_nil, Text.splitAtChar, if_pos rfl,
      Text.splitAtChar_plain (h name List.mem_cons_self).plain]
    rfl
  | cons next names ih =>
    have hrest := ih fun n hn => h n (List.mem_cons_of_mem name hn)
    rw [List.flatMap_cons, List.flatMap_cons, List.cons_append, List.cons_append,
      Text.splitAtChar, if_pos rfl, Text.splitAtChar_append (h name List.mem_cons_self).plain]
    rw [List.flatMap_cons, List.cons_append, Text.splitAtChar, if_pos rfl, List.cons.injEq] at hrest
    rw [hrest.2]
    rfl

/-- The pieces of a path are its names, behind an empty one. -/
theorem pieces_pathOf (h : ∀ n ∈ names, IsName n) (hne : names ≠ []) :
    Path.pieces (Tree.pathOf names) = "" :: names := by
  cases names with
  | nil => exact absurd rfl hne
  | cons name names =>
    unfold Path.pieces
    rw [toList_pathOf_cons, splitAtChar_names h]
    simp [Function.comp_def]

theorem componentsOf_names (h : ∀ n ∈ names, IsName n) :
    Path.componentsOf false names = names.map Path.Component.name := by
  induction names with
  | nil => rfl
  | cons name names ih =>
    have hname := h name List.mem_cons_self
    rw [Path.componentsOf, if_neg (by simpa using hname.filled), if_neg hname.notHere,
      if_neg hname.notParent, ih fun n hn => h n (List.mem_cons_of_mem name hn)]
    rfl

/-- A file has the last of its names. -/
theorem fileName?_pathOf (h : ∀ n ∈ names, IsName n) :
    Path.fileName? (Tree.pathOf names) = names.getLast? := by
  rcases List.eq_nil_or_concat names with rfl | ⟨front, last, rfl⟩
  · decide +kernel
  · unfold Path.fileName? Path.components
    rw [isAbsolute_pathOf, if_pos rfl, pieces_pathOf h (by simp), Path.componentsOf,
      if_pos (by rfl), componentsOf_names h]
    simp [List.getLast?_cons]

/-- A name goes on from a path behind a slash, which may be there already. -/
theorem join_name {path : String} (hpath : path ≠ "") (hname : IsName name) :
    Path.join path name =
      if path.toList.getLast? = some '/' then path ++ name else path ++ "/" ++ name := by
  have hrelative : Path.isAbsolute name = false := by
    unfold Path.isAbsolute
    rw [beq_eq_false_iff_ne]
    intro hhead
    exact hname.plain (List.mem_of_mem_head? hhead)
  have hfilled : path.isEmpty = false := by simpa using hpath
  simp [Path.join, hrelative, hfilled]

/-- A path goes on with one name more. -/
theorem join_pathOf (h : ∀ n ∈ names, IsName n) (hname : IsName name) :
    Path.join (Tree.pathOf names) name = Tree.pathOf (names ++ [name]) := by
  rw [join_name (by simpa using pathOf_ne_empty names) hname]
  rcases List.eq_nil_or_concat names with rfl | ⟨front, last, rfl⟩
  · rw [if_pos (by simp [Tree.pathOf])]
    simp [Tree.pathOf]
  · have hends : (Tree.pathOf (front ++ [last])).toList.getLast? ≠ some '/' := by
      have hlast := h last (by simp)
      obtain ⟨c, hc⟩ : ∃ c, last.toList.getLast? = some c :=
        Option.ne_none_iff_exists'.mp (by simpa using hlast.filled)
      rw [toList_pathOf (by simp), List.flatMap_append, List.flatMap_singleton, List.append_cons,
        List.getLast?_append, hc]
      rintro ⟨⟩
      exact hlast.plain (List.mem_of_getLast? hc)
    rw [List.concat_eq_append, if_neg hends]
    apply String.toList_inj.mp
    simp only [String.toList_append]
    rw [toList_pathOf (by simp), toList_pathOf (by simp)]
    simp

end

/-! ## Proper trees -/

/-- An entry as file systems have them: in no directory are there two entries of one name, and
each has a name. -/
inductive Entry.IsProper : Entry → Prop
  | file {content : ByteArray} : IsProper (.file content)
  | link {target : String} : IsProper (.link target)
  | dir {children : List (String × Entry)} : (children.map (·.1)).Nodup →
      (∀ c ∈ children, IsName c.1) → (∀ c ∈ children, c.2.IsProper) → IsProper (.dir children)

namespace Entry

variable {e inner : Entry} {names : List String} {name : String} {children : List (String × Entry)}

theorem mem_of_find? (h : find? children name = some inner) : (name, inner) ∈ children := by
  obtain ⟨⟨other, child⟩, hfound, rfl⟩ := Option.map_eq_some_iff.mp h
  obtain rfl : other = name := by simpa using List.find?_some hfound
  exact List.mem_of_find?_eq_some hfound

/-- Where no two children have one name, each is found by its own. -/
theorem find?_of_mem (hnodup : (children.map (·.1)).Nodup) (h : (name, inner) ∈ children) :
    find? children name = some inner := by
  induction children with
  | nil => cases h
  | cons c children ih =>
    rw [List.map_cons, List.nodup_cons] at hnodup
    unfold find?
    rw [List.find?_cons]
    rcases List.mem_cons.mp h with rfl | h
    · simp
    · have hother : c.1 ≠ name := by
        rintro rfl
        exact hnodup.1 (List.mem_map.mpr ⟨_, h, rfl⟩)
      rw [beq_false_of_ne hother]
      exact ih hnodup.2 h

/-- What names lead to is proper too, and the names are names. -/
theorem IsProper.at? (he : e.IsProper) (h : e.at? names = some inner) :
    inner.IsProper ∧ ∀ n ∈ names, IsName n := by
  induction names generalizing e with
  | nil =>
    obtain rfl : e = inner := Option.some.inj h
    exact ⟨he, by simp⟩
  | cons name names ih =>
    cases he with
    | file => cases h
    | link => cases h
    | @dir children hnodup hnames hchildren =>
      obtain ⟨child, hfound, hinner⟩ := Option.bind_eq_some_iff.mp h
      have hmem := mem_of_find? hfound
      obtain ⟨hproper, hrest⟩ := ih (hchildren _ hmem) hinner
      exact ⟨hproper, List.forall_mem_cons.mpr ⟨hnames _ hmem, hrest⟩⟩

/-- Only from a directory do names lead on. -/
theorem exists_dir_of_at? (h : e.at? (names ++ [name]) = some inner) :
    ∃ children, e.at? names = some (.dir children) ∧ find? children name = some inner := by
  rw [at?_append] at h
  obtain ⟨parent, hparent, hlast⟩ := Option.bind_eq_some_iff.mp h
  cases parent with
  | file content => cases hlast
  | link target => cases hlast
  | dir children =>
    refine ⟨children, hparent, ?_⟩
    rw [at?] at hlast
    obtain ⟨child, hfound, hinner⟩ := Option.bind_eq_some_iff.mp hlast
    obtain rfl : child = inner := Option.some.inj hinner
    exact hfound

end Entry

/-! ## Leading on -/

section

variable {root e : Entry} {follow : Bool} {names more rest : List String} {name : String}
  {children : List (String × Entry)} {t : Tree}

/-- Through directories a path goes on as its names do. -/
theorem locateFrom_append (links : Nat) (names rest : List String) (hmore : ∀ n ∈ more, IsName n)
    (h : root.at? (names ++ more) = some e) (he : ∀ target, e ≠ .link target) :
    Tree.locateFrom root follow links names (more ++ rest) =
      Tree.locateFrom root follow links (names ++ more) rest := by
  induction more generalizing names with
  | nil => simp
  | cons name more ih =>
    have hname := hmore name List.mem_cons_self
    have hfront : (root.at? (names ++ [name])).bind (·.at? more) = some e := by
      rw [← Entry.at?_append, List.append_assoc]
      exact h
    obtain ⟨child, hchild, hinner⟩ := Option.bind_eq_some_iff.mp hfront
    have hkind : ∀ target, child ≠ .link target := by
      rintro target rfl
      cases more with
      | nil => exact he target (Option.some.inj hinner).symm
      | cons next more => cases hinner
    obtain ⟨children, hdir, _⟩ := Entry.exists_dir_of_at? hchild
    rw [List.cons_append, locateFrom_child links hdir
      (by simpa using ⟨hname.filled, hname.notHere⟩) (by simpa using hname.notParent) hchild hkind,
      ih (names ++ [name]) (fun n hn => hmore n (List.mem_cons_of_mem name hn)) (by simpa using h)]
    simp

/-- The path of names goes on from the root along the names. -/
theorem locate_pathOf (hroot : t.root = .dir children) (hnames : ∀ n ∈ names, IsName n) :
    t.locate follow (Tree.pathOf names) = Tree.locateFrom t.root follow maxLinks [] names := by
  have hdir : t.root.at? [] = some (.dir children) := by
    rw [hroot]
    rfl
  unfold Tree.locate
  rw [pathOf_ne_empty, if_neg Bool.false_ne_true, isAbsolute_pathOf, if_pos rfl]
  cases names with
  | nil =>
    have hpieces : Path.pieces (Tree.pathOf []) = ["", ""] := by decide +kernel
    rw [hpieces, locateFrom_skip maxLinks hdir rfl, locateFrom_skip maxLinks hdir rfl]
  | cons name names =>
    rw [pieces_pathOf hnames (by simp), locateFrom_skip maxLinks hdir rfl]

/-- Names that lead to no link lead where their path does. -/
theorem locate_of_at? (hproper : t.root.IsProper) (hroot : t.root = .dir children)
    (h : t.root.at? names = some e) (he : ∀ target, e ≠ .link target) :
    t.locate follow (Tree.pathOf names) = .found names e := by
  have hnames := (hproper.at? h).2
  have hend : Tree.locateFrom t.root follow maxLinks [] (names ++ []) = .found names e := by
    rw [locateFrom_append maxLinks [] [] hnames h he, List.nil_append, Tree.locateFrom, h]
  rw [locate_pathOf hroot hnames, ← hend, List.append_nil]

theorem get?_of_at? (hproper : t.root.IsProper) (hroot : t.root = .dir children)
    (h : t.root.at? names = some e) (he : ∀ target, e ≠ .link target) :
    t.get? (Tree.pathOf names) = some e := by
  unfold Tree.get?
  rw [locate_of_at? hproper hroot h he]

/-- A name that a directory does not have leads to nothing. -/
theorem get?_of_missing {top : List (String × Entry)} (hproper : t.root.IsProper)
    (hroot : t.root = .dir top) (h : t.root.at? names = some (.dir children)) (hname : IsName name)
    (hmissing : Entry.find? children name = none) :
    t.get? (Tree.pathOf (names ++ [name])) = none := by
  have hnames := (hproper.at? h).2
  unfold Tree.get?
  rw [locate_pathOf hroot (List.forall_mem_append.mpr ⟨hnames, by simpa using hname⟩),
    locateFrom_append maxLinks [] [name] hnames h (by simp), List.nil_append, Tree.locateFrom, h]
  simp [hname.filled, hname.notHere, hname.notParent, hmissing]

end

end Files

end XPathTaint
