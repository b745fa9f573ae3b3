import XPathTaint.Proofs.WalkOrder

-- The visits of a walk to its files. Each file that is wanted is visited once and in order, until a
-- visit fails; and a tree whose directories list their entries in another order is visited alike.

namespace XPathTaint.Files

/-! ## Listings -/

/-- The same entry, with the entries of its directories listed in any order. -/
inductive Entry.Relisted : Entry → Entry → Prop
  | refl (e : Entry) : Relisted e e
  | listed {children others : List (String × Entry)} (h : children.Perm others) :
      Relisted (.dir children) (.dir others)
  | inside {front rest : List (String × Entry)} {name : String} {e other : Entry}
      (h : Relisted e other) :
      Relisted (.dir (front ++ (name, e) :: rest)) (.dir (front ++ (name, other) :: rest))
  | trans {e middle other : Entry} (h : Relisted e middle) (h' : Relisted middle other) :
      Relisted e other

section

variable {e other top : Entry} {children others front rest : List (String × Entry)}
  {excluded : List String → Bool}

namespace Entry

theorem find?_perm (h : children.Perm others) (hnodup : (children.map (·.1)).Nodup)
    (name : String) : find? children name = find? others name := by
  have hnodup' : (others.map (·.1)).Nodup := (h.map _).nodup_iff.mp hnodup
  refine Option.ext fun inner => ⟨fun hfound => ?_, fun hfound => ?_⟩
  · exact find?_of_mem hnodup' (h.mem_iff.mp (mem_of_find? hfound))
  · exact find?_of_mem hnodup (h.mem_iff.mpr (mem_of_find? hfound))

/-- A child does not matter where another name is looked for. -/
theorem find?_middle {name wanted : String} (h : wanted ≠ name) (e other : Entry) :
    find? (front ++ (name, e) :: rest) wanted = find? (front ++ (name, other) :: rest) wanted := by
  simp [find?, h.symm]

/-- Names lead to the same files, in whatever order entries are listed. -/
theorem Relisted.keeps (h : e.Relisted other) (he : e.IsProper) :
    other.IsProper ∧ ∀ names content,
      e.at? names = some (.file content) ↔ other.at? names = some (.file content) := by
  induction h with
  | refl e => exact ⟨he, fun names content => Iff.rfl⟩
  | listed h =>
    cases he with
    | dir hnodup hnames hchildren =>
      refine ⟨.dir ((h.map _).nodup_iff.mp hnodup) (fun c hc => hnames c (h.mem_iff.mpr hc))
        fun c hc => hchildren c (h.mem_iff.mpr hc), fun names content => ?_⟩
      cases names with
      | nil => simp [at?]
      | cons name names => rw [at?, at?, find?_perm h hnodup]
  | @inside front rest name e other h ih =>
    cases he with
    | dir hnodup hnames hchildren =>
      obtain ⟨hother, hsame⟩ := ih (hchildren (name, e) (by simp))
      have hnodup' : ((front ++ (name, other) :: rest).map (·.1)).Nodup := by simpa using hnodup
      refine ⟨.dir hnodup' ?_ ?_, fun names content => ?_⟩
      · simpa [or_imp, forall_and] using hnames
      · simp only [List.forall_mem_append, List.forall_mem_cons] at hchildren ⊢
        exact ⟨hchildren.1, hother, hchildren.2.2⟩
      · cases names with
        | nil => simp [at?]
        | cons first names =>
          by_cases hfirst : first = name
          · subst hfirst
            have he : (first, e) ∈ front ++ (first, e) :: rest := by simp
            have hother : (first, other) ∈ front ++ (first, other) :: rest := by simp
            rw [at?, at?, find?_of_mem hnodup he, find?_of_mem hnodup' hother]
            exact hsame names content
          · rw [at?, at?, find?_middle hfirst e other]
  | trans _ _ ih ih' =>
    obtain ⟨hmiddle, hsame⟩ := ih he
    obtain ⟨hother, hsame'⟩ := ih' hmiddle
    exact ⟨hother, fun names content => (hsame names content).trans (hsame' names content)⟩

end Entry

/-- In what order entries are listed does not matter to a walk. -/
theorem walkNames_relisted (h : top.Relisted other) (hproper : top.IsProper) :
    walkNames excluded [([], other)] = walkNames excluded [([], top)] := by
  obtain ⟨hother, hsame⟩ := h.keeps hproper
  have horder : ∀ {e : Entry}, e.IsProper →
      (walkNames excluded [([], e)]).Pairwise (ComesBefore "/") := fun he =>
    pairwise_walkNames_top (by decide) he
  refine eq_of_pairwise_asymm (fun _ _ => ComesBefore.asymm) (horder hother) (horder hproper)
    fun within => ?_
  rw [mem_walkNames_iff hother, mem_walkNames_iff hproper, isWanted_iff, isWanted_iff]
  simp only [hsame]

end

/-! ## Visits -/

/-- A visit to a file: it may fail, as the files that were visited before and the new one tell. Each
visit is kept. -/
def visit {ε : Type} (fails : List String → String → Option ε) (_ : Unit) (file : String) :
    ExceptT ε (StateM (List String)) Unit := do
  let visited ← getModify (· ++ [file])
  match fails visited file with
  | some fault => throw fault
  | none => pure ()

/-- What comes of the visits to the files of a walk, and which files were visited. -/
def Tree.visits {ε : Type} (t : Tree) (path : String) (excluded : String → Bool) (missing : ε)
    (fails : List String → String → Option ε) : Except ε Unit × List String :=
  ((t.foldFilesM path excluded (throw missing) (visit fails) ()).run.run []).run

/-- No visit fails when files are visited one after the other. -/
def AllPass {ε : Type} (fails : List String → String → Option ε) (files : List String) : Prop :=
  ∀ front file rest, files = front ++ file :: rest → fails front file = none

section

variable {ε : Type} {fails : List String → String → Option ε} {files front rest visited : List String}
  {file : String} {fault : ε}

theorem run_visit (fails : List String → String → Option ε) (visited : List String)
    (file : String) : ((visit fails () file).run.run visited).run =
      (match fails visited file with
        | some fault => .error fault
        | none => .ok (), visited ++ [file]) := by
  show (StateT.run (ExceptT.run (match fails visited file with
    | some fault => throw fault
    | none => pure () : ExceptT ε (StateM (List String)) Unit)) (visited ++ [file])).run = _
  cases fails visited file <;> rfl

/-- The files behind one whose visit fails are not visited. -/
theorem run_visits_cons (fails : List String → String → Option ε) (visited : List String)
    (file : String) (files : List String) :
    (((file :: files).foldlM (visit fails) ()).run.run visited).run =
      match fails visited file with
      | some fault => (.error fault, visited ++ [file])
      | none => ((files.foldlM (visit fails) ()).run.run (visited ++ [file])).run := by
  rw [List.foldlM_cons]
  simp only [ExceptT.run_bind, StateT.run_bind, Id.run_bind]
  rw [run_visit]
  cases fails visited file <;> rfl

/-- Visits that pass lead on to the files behind. -/
theorem run_visits_append (visited rest : List String)
    (h : AllPass (fun before => fails (visited ++ before)) front) :
    (((front ++ rest).foldlM (visit fails) ()).run.run visited).run =
      ((rest.foldlM (visit fails) ()).run.run (visited ++ front)).run := by
  induction front generalizing visited with
  | nil => simp
  | cons file front ih =>
    have hfirst : fails visited file = none := by simpa using h [] file front rfl
    have hrest : AllPass (fun before => fails (visited ++ [file] ++ before)) front := by
      rintro before next after rfl
      simpa using h (file :: before) next after rfl
    rw [List.cons_append, run_visits_cons, hfirst]
    simpa using ih (visited ++ [file]) hrest

theorem run_visits_pass (h : AllPass fails files) :
    ((files.foldlM (visit fails) ()).run.run []).run = (.ok (), files) := by
  have hrun := run_visits_append [] [] h
  rwa [List.append_nil] at hrun

theorem run_visits_fault (rest : List String) (h : AllPass fails front)
    (hfault : fails front file = some fault) :
    (((front ++ file :: rest).foldlM (visit fails) ()).run.run []).run =
      (.error fault, front ++ [file]) := by
  rw [run_visits_append [] (file :: rest) h, List.nil_append, run_visits_cons, hfault]

end

/-! ## What a path leads to -/

section

variable {t : Tree} {root top : Entry} {follow : Bool} {path : String}
  {names pieces found : List String}

theorem at?_of_locateFrom {links : Nat}
    (h : Tree.locateFrom root follow links names pieces = .found found top) :
    root.at? found = some top := by
  fun_induction Tree.locateFrom root follow links names pieces with
  | case1 links names entry hentry =>
    cases h
    exact hentry
  | case2 => cases h
  | case3 links names piece rest children _ _ ih => exact ih h
  | case4 links names piece rest children _ _ _ ih => exact ih h
  | case5 => cases h
  | case6 => cases h
  | case7 names piece rest children hdir _ _ target left hlink _ =>
    cases h
    rw [Entry.at?_concat hdir, hlink]
  | case8 => cases h
  | case9 names piece rest children _ _ _ target _ _ left ih => exact ih (by simpa using h)
  | case10 names piece rest children _ _ _ child links _ _ ih => exact ih h
  | case11 => cases h

/-- What a path leads to has a place in the tree. -/
theorem at?_of_locate (h : t.locate follow path = .found found top) :
    t.root.at? found = some top := by
  unfold Tree.locate at h
  split at h
  · cases h
  · exact at?_of_locateFrom h

theorem ne_empty_of_locate (h : t.locate follow path = .found found top) : path ≠ "" := by
  rintro rfl
  cases h

end

section

variable {t : Tree} {path : String} {excluded : String → Bool} {names : List String} {top : Entry}

/-- A walk visits the files at and below a path that are wanted, and no others, each of them once:
those nearer to the path first, in a directory in the order of paths, and what lies in an earlier
directory before what lies in a later one. When the visit to one of them fails, that is the result
and it was the last visit. None of this depends on the order in which entries are listed. -/
theorem wanted_files_are_visited_once_and_in_order (hproper : t.root.IsProper)
    (hfound : t.locate false path = .found names top) :
    ∃ wanted : List (List String),
      (∀ within, within ∈ wanted ↔
        IsWanted top (fun within => excluded (Path.below path within)) within) ∧
      wanted.Pairwise (ComesBefore path) ∧ (wanted.map (Path.below path)).Nodup ∧
      ∀ (t' : Tree) (names' : List String) (top' : Entry),
        t'.locate false path = .found names' top' → top.Relisted top' →
        ∀ (ε : Type) (missing : ε) (fails : List String → String → Option ε),
          (AllPass fails (wanted.map (Path.below path)) →
            t'.visits path excluded missing fails = (.ok (), wanted.map (Path.below path))) ∧
          ∀ front file rest fault, wanted.map (Path.below path) = front ++ file :: rest →
            AllPass fails front → fails front file = some fault →
            t'.visits path excluded missing fails = (.error fault, front ++ [file]) := by
  have htop : top.IsProper := (hproper.at? (at?_of_locate hfound)).1
  have hpath : path ≠ "" := ne_empty_of_locate hfound
  have horder : (walkNames (fun within => excluded (Path.below path within))
      [([], top)]).Pairwise (ComesBefore path) := pairwise_walkNames_top hpath htop
  refine ⟨_, fun within => mem_walkNames_iff htop, horder, ?_, ?_⟩
  · refine List.pairwise_map.mpr (horder.imp_of_mem fun ha hb hbefore heq => hbefore.ne ?_)
    obtain ⟨_, hfile⟩ := ((mem_walkNames_iff htop).mp ha).file
    obtain ⟨_, hfile'⟩ := ((mem_walkNames_iff htop).mp hb).file
    exact Path.below_inj hpath (htop.at? hfile).2 (htop.at? hfile').2 heq
  · intro t' names' top' hfound' hlisted ε missing fails
    have hvisits : t'.visits path excluded missing fails =
        ((((walkNames (fun within => excluded (Path.below path within)) [([], top)]).map
          (Path.below path)).foldlM (visit fails) ()).run.run []).run := by
      unfold Tree.visits Tree.foldFilesM
      rw [walk?_of_locate hfound', walkNames_relisted hlisted htop]
    rw [hvisits]
    refine ⟨run_visits_pass, fun front file rest fault hfiles hpass hfault => ?_⟩
    rw [hfiles]
    exact run_visits_fault rest hpass hfault

end

/-! ### A link and a hidden directory -/

/-- A source file, one more in a directory, a link to that directory, and a hidden directory. -/
def linkedTree : Tree :=
  ⟨.dir [("l", .link "a"), ("a", .dir [("c.py", .file "x = 1\n".toUTF8)]),
    (".git", .dir [("d.py", .file "x = 1\n".toUTF8)]), ("b.py", .file "x = 1\n".toUTF8)], []⟩

theorem isProper_linkedTree : linkedTree.root.IsProper := by
  refine .dir (by decide) (by decide +kernel) ?_
  simp only [List.forall_mem_cons]
  refine ⟨.link, .dir (by decide) (by decide +kernel) ?_, .dir (by decide) (by decide +kernel) ?_,
    .file, nofun⟩
  · simpa using .file
  · simpa using .file

theorem wanted_files_are_visited_once_and_in_order_of_a_linked_directory :
    linkedTree.root.IsProper ∧ linkedTree.locate false "/" = .found [] linkedTree.root ∧
      ∃ files, linkedTree.visits "/" (· == "/.git") () (fun _ _ => none) = (.ok (), files) ∧
        "/b.py" ∈ files ∧ "/a/c.py" ∈ files ∧ files.Nodup := by
  have hlocate : linkedTree.locate false (Tree.pathOf []) = .found [] linkedTree.root :=
    locate_of_at? isProper_linkedTree rfl rfl (fun target => nofun)
  obtain ⟨wanted, hwanted, _, hnodup, hvisits⟩ :=
    wanted_files_are_visited_once_and_in_order isProper_linkedTree hlocate
  have hpass : linkedTree.visits "/" (· == "/.git") () (fun _ _ => none) =
      (.ok (), wanted.map (Path.below "/")) :=
    (hvisits linkedTree [] linkedTree.root hlocate (.refl _) Unit () fun _ _ => none).1
      fun _ _ _ _ => rfl
  have hmem : ∀ within content, linkedTree.root.at? within = some (.file content) →
      IsClear (fun within => Path.below "/" within == "/.git") within →
      Path.below "/" within ∈ wanted.map (Path.below "/") := fun within content hfile hclear =>
    List.mem_map_of_mem ((hwanted within).mpr (isWanted_iff.mpr ⟨⟨content, hfile⟩, hclear⟩))
  refine ⟨isProper_linkedTree, hlocate, _, hpass, ?_, ?_, hnodup⟩
  · exact hmem ["b.py"] _ rfl (by decide +kernel)
  · exact hmem ["a", "c.py"] _ rfl (by decide +kernel)

end XPathTaint.Files
