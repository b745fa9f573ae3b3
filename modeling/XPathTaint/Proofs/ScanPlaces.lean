import XPathTaint.Proofs.PatternMatches
import XPathTaint.Proofs.WalkOrder
import XPathTaint.Scan.Run

-- Where a scanned directory lies, and what that does to the files a scan collects in it. Patterns
-- of ignore files match at any depth, and they are asked about whole paths: so they see the names
-- on the way to the directory and its own as well as the names in it. The files collected are
-- those that the patterns leave within the directory, less what is caught from a name outside.

namespace XPathTaint

open Files (Entry Tree IsClear)

/-! ## Patterns of ignore files -/

namespace Pattern

/-- A pattern that matches at any depth of a tree. -/
def IsAnywhere (p : Pattern) : Prop := ∃ body, p = .run :: .char '/' :: body

theorem isAnywhere_of_ofExclusion? {text : String} {p : Pattern} {rest : List Char}
    (htext : text.toList = '*' :: '*' :: '/' :: rest) (h : ofExclusion? text = some p) :
    p.IsAnywhere := by
  have hglob : ∀ glob more, glob.toList = '*' :: '*' :: '/' :: more → ofGlob? glob = some p →
      p.IsAnywhere := by
    intro glob more hchars hp
    unfold ofGlob? at hp
    dsimp only at hp
    split at hp
    · cases hp
    · obtain rfl := Option.some.inj hp
      rw [hchars]
      exact ⟨ofGlobChars more, rfl⟩
  unfold ofExclusion? at h
  split at h
  · exact hglob (text ++ "**") (rest ++ ['*', '*']) (by simp [htext]) h
  · exact hglob text rest htext h

theorem isAnywhere_of_mem_ignorePatterns {text : String} {p : Pattern}
    (h : p ∈ Files.ignorePatterns text) : p.IsAnywhere := by
  obtain ⟨line, _, hline⟩ := List.mem_filterMap.mp h
  obtain ⟨exclusion, hexclusion, hp⟩ := Option.bind_eq_some_iff.mp hline
  unfold Files.ignoreLine? at hexclusion
  split at hexclusion
  · cases hexclusion
  · cases hexclusion
  · cases hexclusion
  · dsimp only at hexclusion
    split at hexclusion
    · rename_i hprefix
      obtain rfl := Option.some.inj hexclusion
      obtain ⟨rest, hrest⟩ := List.isPrefixOf_iff_prefix.mp hprefix
      exact isAnywhere_of_ofExclusion? (by rw [String.toList_ofList]; exact hrest.symm) hp
    · obtain rfl := Option.some.inj hexclusion
      exact isAnywhere_of_ofExclusion? (by rw [String.toList_append, String.toList_ofList]; rfl) hp

end Pattern

namespace Scan

/-! ## Texts of names -/

/-- The text of names as patterns see it: each behind a slash, and backslashes as slashes too. -/
def textOf (names : List String) : List Char :=
  (names.flatMap fun n => '/' :: n.toList).map fun c => if c = '\\' then '/' else c

/-- What patterns see of the names on the way to a directory, before the names within it. -/
def textAround (names within : List String) : List Char :=
  if within = [] then (Files.Exclusion.slashed (Tree.pathOf names)).toList else textOf names

theorem toList_slashed_pathOf {names : List String} (h : names ≠ []) :
    (Files.Exclusion.slashed (Tree.pathOf names)).toList = textOf names := by
  unfold Files.Exclusion.slashed textOf
  rw [String.toList_ofList, Files.toList_pathOf h]

theorem textOf_append (names more : List String) :
    textOf (names ++ more) = textOf names ++ textOf more := by
  simp [textOf]

/-- A path is seen in two parts. -/
theorem toList_slashed_append (names within : List String) :
    (Files.Exclusion.slashed (Tree.pathOf (names ++ within))).toList =
      textAround names within ++ textOf within := by
  unfold textAround
  split
  · rename_i hroot
    subst hroot
    simp [textOf]
  · rename_i hinner
    rw [toList_slashed_pathOf (by simp [hinner]), textOf_append]

theorem lineFeed_textAround (names within : List String) :
    '\n' ∈ textAround names within ↔ '\n' ∈ textOf names := by
  unfold textAround
  split
  · by_cases hnames : names = []
    · subst hnames
      decide +kernel
    · rw [toList_slashed_pathOf hnames]
  · rfl

/-! ## What lies in a directory -/

/-- The patterns of the ignore files among the children of a directory. -/
def ownPatterns (children : List (String × Entry)) : List Pattern :=
  Files.ignoreFiles.flatMap fun name =>
    match Entry.find? children name with
    | some (.file content) => ((String.fromUTF8? content).map Files.ignorePatterns).getD []
    | _ => []

/-- Whether names lead to a file that is too large. -/
def isTooLarge (maxSize : Nat) (children : List (String × Entry)) (names : List String) : Bool :=
  match (Entry.dir children).at? names with
  | some (.file content) => decide (0 < maxSize ∧ maxSize < content.size)
  | _ => false

/-- Whether a walk within a directory passes over names: they match a pattern or lead to a file that
is too large. -/
def passesOver (maxSize : Nat) (patterns : List Pattern) (children : List (String × Entry))
    (within : List String) : Bool :=
  patterns.any (fun p => p.Matches (textOf within)) || isTooLarge maxSize children within

/-- The source files in a directory that patterns leave, which see the names within it alone. -/
def sourcesWithin (maxSize : Nat) (patterns : List Pattern) (children : List (String × Entry)) :
    List (List String) :=
  (Files.walkNames (passesOver maxSize patterns children) [([], .dir children)]).filter
    fun within => Path.isPython (Tree.pathOf within)

/-- Whether what lies at names within a directory is caught from a name on the way to it. -/
def isCaught (patterns : List Pattern) (around within : List String) : Bool :=
  patterns.any fun p => p.CatchesFrom (textAround around within) (textOf within)

/-- A directory lies at names in a tree, and its ignore files are its own: no links. -/
structure LiesAt (t : Tree) (names : List String) (children : List (String × Entry)) : Prop where
  proper : t.root.IsProper
  place : t.root.at? names = some (.dir children)
  own : ∀ name ∈ Files.ignoreFiles, ∀ target, Entry.find? children name ≠ some (.link target)

namespace LiesAt

variable {t : Tree} {names : List String} {children : List (String × Entry)} {opts : Options}

theorem exists_root (h : LiesAt t names children) : ∃ top, t.root = .dir top := by
  have hplace := h.place
  cases hroot : t.root with
  | dir top => exact ⟨top, rfl⟩
  | file content =>
    rw [hroot] at hplace
    cases names <;> cases hplace
  | link target =>
    rw [hroot] at hplace
    cases names <;> cases hplace

theorem locate (h : LiesAt t names children) (follow : Bool) :
    t.locate follow (Tree.pathOf names) = .found names (.dir children) := by
  obtain ⟨top, hroot⟩ := h.exists_root
  exact Files.locate_of_at? h.proper hroot h.place (by simp)

theorem at?_append (h : LiesAt t names children) (within : List String) :
    t.root.at? (names ++ within) = (Entry.dir children).at? within := by
  rw [Entry.at?_append, h.place, Option.bind_some]

/-- The size of an entry does not depend on the place. -/
theorem isTooLarge_eq (h : LiesAt t names children) {patterns : List Pattern} {maxSize : Nat}
    {within : List String} {e : Entry} (he : (Entry.dir children).at? within = some e)
    (hkind : ∀ target, e ≠ .link target) :
    (Files.Exclusion.mk patterns maxSize).isTooLarge t (Tree.pathOf (names ++ within)) =
      isTooLarge maxSize children within := by
  obtain ⟨top, hroot⟩ := h.exists_root
  have hget := Files.get?_of_at? h.proper hroot ((h.at?_append within).trans he) hkind
  unfold Files.Exclusion.isTooLarge Tree.fileSize? isTooLarge
  rw [hget, he]
  cases e <;> rfl

/-- The patterns of the ignore files in the directory are read from its children. -/
theorem ignorePatterns_eq (h : LiesAt t names children) :
    t.ignorePatterns (Tree.pathOf names) = ownPatterns children := by
  obtain ⟨top, hroot⟩ := h.exists_root
  have hnames := (h.proper.at? h.place).2
  unfold Tree.ignorePatterns ownPatterns
  rw [List.flatMap_def, List.flatMap_def]
  refine congrArg List.flatten (List.map_congr_left fun name hname => ?_)
  have hisName : Files.IsName name := by
    have hall : ∀ name ∈ Files.ignoreFiles, Files.IsName name := by decide +kernel
    exact hall name hname
  rw [Files.join_pathOf hnames hisName]
  unfold Tree.readText?
  cases hchild : Entry.find? children name with
  | none => rw [Files.get?_of_missing h.proper hroot h.place hisName hchild]
  | some child =>
    have hat : t.root.at? (names ++ [name]) = some child := by
      rw [Entry.at?_concat h.place, hchild]
    have hkind : ∀ target, child ≠ .link target := by
      rintro target rfl
      exact h.own name hname target hchild
    rw [Files.get?_of_at? h.proper hroot hat hkind]
    cases child with
    | file content => cases hutf8 : String.fromUTF8? content <;> simp [hutf8]
    | dir inner => rfl
    | link target => exact absurd rfl (hkind target)

theorem exclusionOf_eq (h : LiesAt t names children) (hexclude : opts.exclude = [])
    (hdefault : opts.defaultExclusions = false) :
    exclusionOf t opts names = ⟨ownPatterns children, opts.maxFileSize⟩ := by
  have hdir : t.isDir (Tree.pathOf names) = true := by
    unfold Tree.isDir Tree.get?
    rw [h.locate]
  unfold exclusionOf
  simp only [hexclude, hdefault, hdir, if_true, h.ignorePatterns_eq]
  rfl

end LiesAt

theorem isAnywhere_of_mem_ownPatterns {children : List (String × Entry)} {p : Pattern}
    (h : p ∈ ownPatterns children) : p.IsAnywhere := by
  obtain ⟨name, _, hp⟩ := List.mem_flatMap.mp h
  split at hp
  · rename_i content _
    cases hutf8 : String.fromUTF8? content with
    | none =>
      rw [hutf8] at hp
      cases hp
    | some text =>
      rw [hutf8] at hp
      exact Pattern.isAnywhere_of_mem_ignorePatterns hp
  · cases hp

/-! ## What a place hides -/

/-- Patterns that match a path see it from a name on the way to a directory or from one within it,
and the second only where no line feed stands before. -/
theorem matchesPath_append {patterns : List Pattern} {maxSize : Nat}
    (h : ∀ p ∈ patterns, p.IsAnywhere) (names within : List String) :
    (Files.Exclusion.mk patterns maxSize).matchesPath (Tree.pathOf (names ++ within)) =
      ((if '\n' ∈ textOf names then [] else patterns).any (fun p => p.Matches (textOf within)) ||
        isCaught patterns names within) := by
  rw [Bool.eq_iff_iff, Bool.or_eq_true]
  unfold Files.Exclusion.matchesPath isCaught
  simp only [List.any_eq_true, decide_eq_true_eq, Pattern.matches?_iff, toList_slashed_append]
  have hone : ∀ p ∈ patterns, p.Matches (textAround names within ++ textOf within) ↔
      p.CatchesFrom (textAround names within) (textOf within) ∨
        ('\n' ∉ textOf names ∧ p.Matches (textOf within)) := by
    intro p hp
    obtain ⟨body, rfl⟩ := h p hp
    rw [Pattern.matches_append_iff, lineFeed_textAround]
  constructor
  · rintro ⟨p, hp, hmatches⟩
    rcases (hone p hp).mp hmatches with hcaught | ⟨hplain, hwithin⟩
    · exact .inr ⟨p, hp, hcaught⟩
    · rw [if_neg hplain]
      exact .inl ⟨p, hp, hwithin⟩
  · rintro (⟨p, hp, hwithin⟩ | ⟨p, hp, hcaught⟩)
    · split at hp
      · cases hp
      · rename_i hplain
        exact ⟨p, hp, (hone p hp).mpr (.inr ⟨hplain, hwithin⟩)⟩
    · exact ⟨p, hp, (hone p hp).mpr (.inl hcaught)⟩

variable {t t' : Tree} {names names' : List String} {children : List (String × Entry)}
  {opts : Options}

/-- Whether a file is a source file is said by its own name. -/
theorem isPython_pathOf_append {within : List String} (h : ∀ n ∈ names ++ within, Files.IsName n)
    (hinner : within ≠ []) :
    Path.isPython (Tree.pathOf (names ++ within)) = Path.isPython (Tree.pathOf within) := by
  have hlast : Path.fileName? (Tree.pathOf (names ++ within)) =
      Path.fileName? (Tree.pathOf within) := by
    rw [Files.fileName?_pathOf h,
      Files.fileName?_pathOf fun n hn => h n (List.mem_append_right names hn)]
    obtain ⟨last, hlast⟩ := Option.ne_none_iff_exists'.mp
      (mt List.getLast?_eq_none_iff.mp hinner)
    rw [List.getLast?_append, hlast, Option.some_or]
  unfold Path.isPython Path.extension?
  rw [hlast]

/-- The walk through a directory excludes what it passes over within it and what is caught. -/
theorem LiesAt.excludes_eq (h : LiesAt t names children) (hexclude : opts.exclude = [])
    (hdefault : opts.defaultExclusions = false) {within : List String} {e : Entry}
    (he : (Entry.dir children).at? within = some e) (hkind : ∀ target, e ≠ .link target) :
    (exclusionOf t opts names).excludes t (Tree.pathOf (names ++ within)) =
      (passesOver opts.maxFileSize (if '\n' ∈ textOf names then [] else ownPatterns children)
        children within || isCaught (ownPatterns children) names within) := by
  rw [h.exclusionOf_eq hexclude hdefault, Files.Exclusion.excludes,
    matchesPath_append (fun _ => isAnywhere_of_mem_ownPatterns), h.isTooLarge_eq he hkind]
  exact Bool.or_right_comm ..

/-- A walk from the directory goes as one by the names within it does. -/
theorem LiesAt.walk?_eq (h : LiesAt t names children) {shut : String → Bool}
    {excluded : List String → Bool}
    (hsame : ∀ within entry, (Entry.dir children).at? within = some entry →
      (∀ target, entry ≠ .link target) →
      shut (Tree.pathOf (names ++ within)) = excluded within) :
    t.walk? (Tree.pathOf names) shut = some
      ((Files.walkNames excluded [([], .dir children)]).map fun within =>
        Tree.pathOf (names ++ within)) := by
  obtain ⟨hdir, hnames⟩ := h.proper.at? h.place
  have hqueue := Files.inPlace_self (.dir children)
  have hbelow : ∀ within entry, (Entry.dir children).at? within = some entry →
      Path.below (Tree.pathOf names) within = Tree.pathOf (names ++ within) :=
    fun within entry hentry => Path.below_pathOf hnames (hdir.at? hentry).2
  have hnamed : Files.walkNames (fun within => shut (Path.below (Tree.pathOf names) within))
      [([], .dir children)] = Files.walkNames excluded [([], .dir children)] := by
    refine Files.walkNames_congr hdir hqueue fun within entry hentry hlink => ?_
    rw [hbelow within entry hentry]
    exact hsame within entry hentry hlink
  rw [Files.walk?_of_locate (h.locate false), hnamed]
  refine congrArg some (List.map_congr_left fun within hwithin => ?_)
  obtain ⟨content, hfile⟩ := Files.at?_of_mem_walkNames hdir hqueue hwithin
  exact hbelow within _ hfile

/-- What a scan collects: of the files that the patterns leave within the directory those that are
caught from no name on the way to it, nor a directory that they lie in. -/
theorem LiesAt.collect_eq (h : LiesAt t names children) (hexclude : opts.exclude = [])
    (hdefault : opts.defaultExclusions = false) :
    collect t opts names =
      ((sourcesWithin opts.maxFileSize
        (if '\n' ∈ textOf names then [] else ownPatterns children) children).filter fun within =>
          IsClear (isCaught (ownPatterns children) names) within).map fun within =>
            Tree.pathOf (names ++ within) := by
  have hdir : (Entry.dir children).IsProper := (h.proper.at? h.place).1
  have hwalk := h.walk?_eq fun _ _ he => h.excludes_eq hexclude hdefault he
  have hopen : Files.IsOpen (isCaught (ownPatterns children) names) [] := nofun
  have hor := Files.walkNames_or
    (passesOver opts.maxFileSize (if '\n' ∈ textOf names then [] else ownPatterns children)
      children) (isCaught (ownPatterns children) names) [([], .dir children)]
  rw [List.filter_cons_of_pos (by simpa using hopen), List.filter_nil] at hor
  unfold collect
  dsimp only
  rw [hwalk, Option.getD_some, hor, List.filter_map, sourcesWithin, List.filter_filter, List.filter_filter]
  refine congrArg (List.map _) (List.filter_congr fun within hwithin => ?_)
  obtain ⟨content, hfile⟩ := Files.at?_of_mem_walkNames hdir (Files.inPlace_self _) hwithin
  have hinner : within ≠ [] := by
    rintro rfl
    cases hfile
  have hnames : ∀ n ∈ names ++ within, Files.IsName n :=
    List.forall_mem_append.mpr ⟨(h.proper.at? h.place).2, (hdir.at? hfile).2⟩
  rw [Function.comp_apply, isPython_pathOf_append hnames hinner]
  exact Bool.and_comm ..

/-- A place hides just what is caught from its names. Of the files that the patterns leave within
the directory a scan collects those that are caught from no name on the way to it; and at two places
without line feeds in their names from which the same of them are caught, it collects the same
files. -/
theorem a_place_hides_only_what_its_names_catch (hexclude : opts.exclude = [])
    (hdefault : opts.defaultExclusions = false) (h : LiesAt t names children)
    (h' : LiesAt t' names' children) :
    collect t opts names =
      ((sourcesWithin opts.maxFileSize
        (if '\n' ∈ textOf names then [] else ownPatterns children) children).filter fun within =>
          IsClear (isCaught (ownPatterns children) names) within).map (fun within =>
            Tree.pathOf (names ++ within)) ∧
      ('\n' ∉ textOf names → '\n' ∉ textOf names' →
        (∀ within ∈ sourcesWithin opts.maxFileSize (ownPatterns children) children,
          IsClear (isCaught (ownPatterns children) names) within ↔
            IsClear (isCaught (ownPatterns children) names') within) →
        ∃ files : List (List String),
          collect t opts names = files.map (fun within => Tree.pathOf (names ++ within)) ∧
            collect t' opts names' = files.map fun within => Tree.pathOf (names' ++ within)) := by
  refine ⟨h.collect_eq hexclude hdefault, fun hplain hplain' hsame => ?_⟩
  refine ⟨_, h.collect_eq hexclude hdefault, ?_⟩
  rw [h'.collect_eq hexclude hdefault, if_neg hplain, if_neg hplain']
  exact congrArg (List.map _) (List.filter_congr fun within hwithin =>
    decide_eq_decide.mpr (hsame within hwithin).symm)

/-! ## A project that ignores what it builds -/

/-- A source file, what is built, and an ignore file that names it. -/
def projectChildren : List (String × Entry) :=
  [(".gitignore", .file "build\n".toUTF8), ("app.py", .file "x = 1\n".toUTF8),
    ("build", .dir [("app.py", .file "x = 1\n".toUTF8)])]

/-- The project at a name in the root directory. -/
def projectTree (name : String) : Tree := ⟨.dir [(name, .dir projectChildren)], []⟩

/-- The pattern of its ignore file. -/
def builtPattern : Pattern :=
  [.run, .char '/', .char 'b', .char 'u', .char 'i', .char 'l', .char 'd']

def projectOptions : Options := { Options.ofPath "." with defaultExclusions := false }

theorem isProper_projectChildren : (Entry.dir projectChildren).IsProper := by
  refine .dir (by decide) (by decide +kernel) ?_
  simp only [projectChildren, List.forall_mem_cons]
  refine ⟨.file, .file, .dir (by decide) (by decide +kernel) ?_, nofun⟩
  simpa using .file

theorem liesAt_projectTree {name : String} (h : Files.IsName name) :
    LiesAt (projectTree name) [name] projectChildren := by
  refine ⟨.dir (by simp) (by simpa using h) (by simpa using isProper_projectChildren), ?_, ?_⟩
  · simp [projectTree, Entry.at?, Entry.find?]
  · intro file hfile target
    have hall : ∀ file ∈ Files.ignoreFiles, file = ".gitignore" ∨
        Entry.find? projectChildren file = none := by decide +kernel
    rcases hall file hfile with rfl | hnone
    · simp [projectChildren, Entry.find?]
    · simp [hnone]

theorem ownPatterns_project : ownPatterns projectChildren = [builtPattern] := by
  have hread : String.fromUTF8? "build\n".toByteArray = some "build\n" :=
    Files.fromUTF8?_toUTF8 "build\n"
  have hpatterns : Files.ignorePatterns "build\n" = [builtPattern] := by decide +kernel
  simp [ownPatterns, Files.ignoreFiles, Entry.find?, projectChildren, hread, hpatterns]

theorem sourcesWithin_project :
    sourcesWithin projectOptions.maxFileSize (ownPatterns projectChildren) projectChildren =
      [["app.py"]] := by
  rw [ownPatterns_project]
  have hkept : ∀ within ∈ [[], [".gitignore"], ["app.py"]],
      passesOver projectOptions.maxFileSize [builtPattern] projectChildren within = false := by
    decide +kernel
  have hbuilt : passesOver projectOptions.maxFileSize [builtPattern] projectChildren ["build"] =
      true := by
    decide +kernel
  have hchildren : Files.namedChildren [] projectChildren =
      [([".gitignore"], .file "build\n".toUTF8), (["app.py"], .file "x = 1\n".toUTF8),
        (["build"], .dir [("app.py", .file "x = 1\n".toUTF8)])] := by
    have hsorted : projectChildren.Pairwise fun a b => decide (a.1 ≤ b.1) = true := by
      decide +kernel
    rw [Files.namedChildren, Files.sortByName, List.mergeSort_of_pairwise hsorted]
    rfl
  unfold sourcesWithin
  rw [Files.walkNames_dir (hkept [] (by simp)), List.nil_append, hchildren,
    Files.walkNames_file (hkept _ (by simp)), Files.walkNames_file (hkept _ (by simp)),
    Files.walkNames_excluded hbuilt, Files.walkNames]
  decide +kernel

theorem a_place_hides_only_what_its_names_catch_of_a_project :
    collect (projectTree "src") projectOptions ["src"] = ["/src/app.py"] ∧
      ∃ files : List (List String),
        collect (projectTree "src") projectOptions ["src"] =
            files.map (fun within => Tree.pathOf (["src"] ++ within)) ∧
          collect (projectTree "lib") projectOptions ["lib"] =
            files.map fun within => Tree.pathOf (["lib"] ++ within) := by
  have hexclude : projectOptions.exclude = [] := rfl
  obtain ⟨hcollect, hsame⟩ := a_place_hides_only_what_its_names_catch hexclude rfl
    (liesAt_projectTree (by decide : Files.IsName "src"))
    (liesAt_projectTree (by decide : Files.IsName "lib"))
  have hplain : '\n' ∉ textOf ["src"] ∧ '\n' ∉ textOf ["lib"] := by decide +kernel
  rw [if_neg hplain.1, sourcesWithin_project, ownPatterns_project] at hcollect
  refine ⟨hcollect.trans (by decide +kernel), hsame hplain.1 hplain.2 ?_⟩
  rw [sourcesWithin_project, ownPatterns_project]
  decide +kernel

/-- The same project under the name `build` is left out as a whole. -/
theorem a_directory_is_hidden_by_its_own_name :
    collect (projectTree "src") projectOptions ["src"] = ["/src/app.py"] ∧
      collect (projectTree "build") projectOptions ["build"] = [] := by
  have hcollect : ∀ name, Files.IsName name → '\n' ∉ textOf [name] →
      collect (projectTree name) projectOptions [name] =
        ([["app.py"]].filter fun within =>
          decide (IsClear (isCaught [builtPattern] [name]) within)).map fun within =>
            Tree.pathOf ([name] ++ within) := by
    intro name hname hplain
    rw [(liesAt_projectTree hname).collect_eq rfl rfl, if_neg hplain, sourcesWithin_project,
      ownPatterns_project]
  rw [hcollect "src" (by decide) (by decide +kernel),
    hcollect "build" (by decide) (by decide +kernel)]
  decide +kernel

end Scan

end XPathTaint
