import Mathlib.Tactic.Common
import XPathTaint.Files.Tree

-- What a tree holds after a file was written: the path that it was written at leads to it, and
-- all that was there before still is there and of the same kind.

namespace XPathTaint.Files

/-! ## Children -/

section

variable {children : List (String × Entry)} {name other : String} {child : Entry}

namespace Entry

theorem find?_setChild_self : find? (setChild children name child) name = some child := by
  have hnone : (children.filter fun c => c.1 != name).find? (fun c => c.1 == name) = none := by
    rw [List.find?_eq_none]
    intro c hc
    simpa using (List.mem_filter.mp hc).2
  simp [find?, setChild, List.find?_append, hnone]

theorem find?_setChild_other (h : other ≠ name) :
    find? (setChild children name child) other = find? children other := by
  have hsame : (children.filter fun c => c.1 != name).find? (fun c => c.1 == other) =
      children.find? fun c => c.1 == other := by
    rw [List.find?_filter]
    congr 1
    funext c
    rw [Bool.eq_iff_iff]
    simp only [bne_iff_ne, ne_eq, beq_iff_eq, decide_eq_true_eq]
    constructor
    · exact fun hc => hc.2
    · rintro rfl
      exact ⟨h, rfl⟩
  simp [find?, setChild, List.find?_append, hsame, h.symm]

/-! ## Places -/

theorem at?_append (e : Entry) (names more : List String) :
    e.at? (names ++ more) = (e.at? names).bind (·.at? more) := by
  induction names generalizing e with
  | nil => rfl
  | cons name names ih =>
    cases e with
    | dir children =>
      rw [List.cons_append, at?, at?]
      cases find? children name with
      | none => rfl
      | some child => exact ih child
    | file content => rfl
    | link target => rfl

theorem at?_plant_self (new e : Entry) (names : List String) :
    (plant new names e).at? names = some new := by
  induction names generalizing e with
  | nil => rfl
  | cons name names ih =>
    cases e with
    | dir children => rw [plant, at?, find?_setChild_self, Option.bind_some, ih]
    | file content => simp [plant, at?, find?, ih]
    | link target => simp [plant, at?, find?, ih]

/-- What paths tell entries apart by. -/
inductive Kind where
  | file
  | dir
  | link (target : String)
  deriving DecidableEq

def kind : Entry → Kind
  | .file _ => .file
  | .dir _ => .dir
  | .link target => .link target

/-- Names at which a file can be put: they lead to a file, or to a name that a directory does not
have. -/
def CanHold : List String → Entry → Prop
  | [], e => e.kind = .file
  | name :: names, .dir children =>
    match find? children name with
    | none => names = []
    | some child => CanHold names child
  | _ :: _, _ => False

theorem canHold_of_file {e : Entry} {names : List String} {content : ByteArray}
    (h : e.at? names = some (.file content)) : CanHold names e := by
  induction names generalizing e with
  | nil =>
    obtain rfl : e = .file content := Option.some.inj h
    rfl
  | cons name names ih =>
    cases e with
    | dir children =>
      rw [at?] at h
      rw [CanHold]
      cases hchild : find? children name with
      | none => simp [hchild] at h
      | some child =>
        rw [hchild] at h
        exact ih h
    | file content => cases h
    | link target => cases h

theorem canHold_of_vacant {e : Entry} {parent : List String}
    (h : e.at? parent = some (.dir children)) (hname : find? children name = none) :
    CanHold (parent ++ [name]) e := by
  induction parent generalizing e with
  | nil =>
    obtain rfl : e = .dir children := Option.some.inj h
    rw [List.nil_append, CanHold, hname]
  | cons first parent ih =>
    cases e with
    | dir siblings =>
      rw [at?] at h
      rw [List.cons_append, CanHold]
      cases hchild : find? siblings first with
      | none => simp [hchild] at h
      | some child =>
        rw [hchild] at h
        exact ih h
    | file content => cases h
    | link target => cases h

/-- All that an entry has, another one has too, and of the same kind. -/
def Keeps (e e' : Entry) : Prop :=
  ∀ names inner, e.at? names = some inner → ∃ inner', e'.at? names = some inner' ∧
    inner'.kind = inner.kind

/-- To put a file where one can be loses nothing. -/
theorem keeps_plant (content : ByteArray) {e : Entry} {names : List String}
    (h : CanHold names e) : e.Keeps (plant (.file content) names e) := by
  induction names generalizing e with
  | nil =>
    intro others inner hinner
    cases e with
    | file old =>
      cases others with
      | nil =>
        obtain rfl : .file old = inner := Option.some.inj hinner
        exact ⟨.file content, rfl, rfl⟩
      | cons name names => cases hinner
    | dir children => cases h
    | link target => cases h
  | cons name names ih =>
    cases e with
    | dir children =>
      intro others inner hinner
      rw [plant]
      cases others with
      | nil =>
        obtain rfl : .dir children = inner := Option.some.inj hinner
        exact ⟨_, rfl, rfl⟩
      | cons other others =>
        rw [at?] at hinner ⊢
        by_cases hother : other = name
        · subst hother
          rw [find?_setChild_self]
          rw [CanHold] at h
          cases hchild : find? children other with
          | none => simp [hchild] at hinner
          | some child =>
            rw [hchild] at h hinner
            exact ih h others inner hinner
        · rw [find?_setChild_other hother]
          exact ⟨inner, hinner, rfl⟩
    | file content => cases h
    | link target => cases h

theorem Keeps.refl (e : Entry) : e.Keeps e := fun _ inner hinner => ⟨inner, hinner, rfl⟩

theorem Keeps.dir {e e' : Entry} (h : e.Keeps e') {names : List String}
    (hdir : e.at? names = some (.dir children)) :
    ∃ children', e'.at? names = some (.dir children') := by
  obtain ⟨inner, hinner, hkind⟩ := h names _ hdir
  cases inner with
  | dir children' => exact ⟨children', hinner⟩
  | file content => cases hkind
  | link target => cases hkind

theorem at?_concat {e : Entry} {names : List String} (h : e.at? names = some (.dir children)) :
    e.at? (names ++ [name]) = find? children name := by
  rw [at?_append, h, Option.bind_some, at?]
  cases find? children name <;> rfl

end Entry

end

/-! ## Paths -/

section

variable {root root' : Entry} {follow : Bool} {names rest : List String} {piece : String}
  {children : List (String × Entry)}

/-- What a path leads to once more was put there: to what it led to before, or to what was put at a
place that was vacant. -/
def Location.Kept (root root' : Entry) (before after : Location) : Prop :=
  match before with
  | .found names e => root.at? names = some e ∧
      ∃ e', root'.at? names = some e' ∧ e'.kind = e.kind ∧ after = .found names e'
  | .vacant parent name =>
      (∃ children, root.at? parent = some (.dir children) ∧ Entry.find? children name = none) ∧
        ∀ content, root'.at? (parent ++ [name]) = some (.file content) →
          after = .found (parent ++ [name]) (.file content)
  | .nowhere => True

theorem locateFrom_skip (links : Nat) (hdir : root.at? names = some (.dir children))
    (hskip : (piece.isEmpty || piece == ".") = true) :
    Tree.locateFrom root follow links names (piece :: rest) =
      Tree.locateFrom root follow links names rest := by
  rw [Tree.locateFrom, hdir]
  simp only [hskip, if_true]

theorem locateFrom_up (links : Nat) (hdir : root.at? names = some (.dir children))
    (hskip : ¬(piece.isEmpty || piece == ".") = true) (hup : (piece == "..") = true) :
    Tree.locateFrom root follow links names (piece :: rest) =
      Tree.locateFrom root follow links names.dropLast rest := by
  rw [Tree.locateFrom, hdir]
  simp only [hskip, hup, if_true]
  rfl

/-- A name that is no link leads to the child of that name. -/
theorem locateFrom_child (links : Nat) {child : Entry}
    (hdir : root.at? names = some (.dir children))
    (hskip : ¬(piece.isEmpty || piece == ".") = true) (hup : ¬(piece == "..") = true)
    (hchild : root.at? (names ++ [piece]) = some child) (hkind : ∀ target, child ≠ .link target) :
    Tree.locateFrom root follow links names (piece :: rest) =
      Tree.locateFrom root follow links (names ++ [piece]) rest := by
  rw [Entry.at?_concat hdir] at hchild
  rw [Tree.locateFrom, hdir]
  simp only [hskip, hup, hchild]
  cases child with
  | file content => rfl
  | dir children => rfl
  | link target => exact absurd rfl (hkind target)

/-- A link at the very end may be what is looked for; else its target comes next. -/
theorem locateFrom_link {target : String} (links : Nat)
    (hdir : root.at? names = some (.dir children))
    (hskip : ¬(piece.isEmpty || piece == ".") = true) (hup : ¬(piece == "..") = true)
    (hchild : root.at? (names ++ [piece]) = some (.link target)) :
    Tree.locateFrom root follow (links + 1) names (piece :: rest) =
      if rest.isEmpty && !follow then .found (names ++ [piece]) (.link target)
      else Tree.locateFrom root follow links (if Path.isAbsolute target then [] else names)
        (Path.pieces target ++ rest) := by
  rw [Entry.at?_concat hdir] at hchild
  rw [Tree.locateFrom, hdir]
  simp only [hskip, hup, hchild]
  rfl

/-- A tree that keeps all of another leads a path to the same place. -/
theorem locateFrom_kept (h : root.Keeps root') (follow : Bool) (links : Nat)
    (names pieces : List String) :
    Location.Kept root root' (Tree.locateFrom root follow links names pieces)
      (Tree.locateFrom root' follow links names pieces) := by
  fun_induction Tree.locateFrom root follow links names pieces with
  | case1 links names entry hentry =>
    obtain ⟨e', he', hkind⟩ := h names entry hentry
    refine ⟨hentry, e', he', hkind, ?_⟩
    rw [Tree.locateFrom, he']
  | case2 => trivial
  | case3 links names piece rest children hdir hskip ih =>
    obtain ⟨children', hdir'⟩ := h.dir hdir
    rw [locateFrom_skip links hdir' hskip]
    exact ih
  | case4 links names piece rest children hdir hskip hup ih =>
    obtain ⟨children', hdir'⟩ := h.dir hdir
    rw [locateFrom_up links hdir' hskip hup]
    exact ih
  | case5 links names piece rest children hdir hskip hup hnone hlast =>
    obtain ⟨children', hdir'⟩ := h.dir hdir
    obtain rfl : rest = [] := List.isEmpty_iff.mp hlast
    refine ⟨⟨children, hdir, hnone⟩, ?_⟩
    intro content hcontent
    rw [locateFrom_child links hdir' hskip hup hcontent (by simp), Tree.locateFrom, hcontent]
  | case6 => trivial
  | case7 names piece rest children hdir hskip hup target links hlink hstop =>
    obtain ⟨children', hdir'⟩ := h.dir hdir
    have hchild : root.at? (names ++ [piece]) = some (.link target) := by
      rw [Entry.at?_concat hdir, hlink]
    obtain ⟨e', he', hkind⟩ := h _ _ hchild
    cases e' with
    | file content => cases hkind
    | dir children => cases hkind
    | link other =>
      obtain rfl : other = target := by simpa [Entry.kind] using hkind
      refine ⟨hchild, _, he', rfl, ?_⟩
      rw [Entry.at?_concat hdir'] at he'
      rw [Tree.locateFrom, hdir']
      simp only [hskip, hup, he', hstop, if_true]
      rfl
  | case8 => trivial
  | case9 names piece rest children hdir hskip hup target hlink hgo left ih =>
    obtain ⟨children', hdir'⟩ := h.dir hdir
    have hchild : root.at? (names ++ [piece]) = some (.link target) := by
      rw [Entry.at?_concat hdir, hlink]
    obtain ⟨e', he', hkind⟩ := h _ _ hchild
    cases e' with
    | file content => cases hkind
    | dir children => cases hkind
    | link other =>
      obtain rfl : other = target := by simpa [Entry.kind] using hkind
      rw [locateFrom_link left hdir' hskip hup he', if_neg hgo]
      exact ih
  | case10 names piece rest children hdir hskip hup child links hchild hsome ih =>
    obtain ⟨children', hdir'⟩ := h.dir hdir
    have hinner : root.at? (names ++ [piece]) = some child := by
      rw [Entry.at?_concat hdir, hsome]
    obtain ⟨e', he', hkind⟩ := h _ _ hinner
    have hno : ∀ target, e' ≠ .link target := by
      rintro target rfl
      cases child with
      | file content => cases hkind
      | dir children => cases hkind
      | link other => exact hchild other rfl
    rw [locateFrom_child links hdir' hskip hup he' hno]
    exact ih
  | case11 => trivial

end

/-! ## Files -/

section

variable {t t' : Tree} {path : String} {content : ByteArray}

theorem Tree.locate_kept (u : Tree) (h : t.root.Keeps u.root) (hhere : u.here = t.here)
    (follow : Bool) (path : String) :
    Location.Kept t.root u.root (t.locate follow path) (u.locate follow path) := by
  unfold Tree.locate
  rw [hhere]
  split
  · trivial
  · exact locateFrom_kept h follow _ _ _

/-- Where a file was written, it is found, and nothing was lost. -/
theorem Tree.write?_eq_some (h : t.write? path content = some t') :
    t'.get? path = some (.file content) ∧ t.root.Keeps t'.root ∧ t'.here = t.here := by
  have hself := t.locate_kept t (Entry.Keeps.refl t.root) rfl true path
  unfold Tree.write? at h
  split at h
  · rename_i names old hfound
    obtain rfl := Option.some.inj h
    rw [hfound] at hself
    have hkeeps := Entry.keeps_plant content (Entry.canHold_of_file hself.1)
    have hkept := t.locate_kept { t with root := (Entry.file content).plant names t.root }
      hkeeps rfl true path
    rw [hfound] at hkept
    obtain ⟨_, e, he, _, hafter⟩ := hkept
    rw [Entry.at?_plant_self, Option.some.injEq] at he
    refine ⟨?_, hkeeps, rfl⟩
    unfold Tree.get?
    rw [hafter, he]
  · rename_i parent name hvacant
    obtain rfl := Option.some.inj h
    rw [hvacant] at hself
    obtain ⟨⟨children, hdir, hnone⟩, _⟩ := hself
    have hkeeps := Entry.keeps_plant content (Entry.canHold_of_vacant hdir hnone)
    have hkept := t.locate_kept
      { t with root := (Entry.file content).plant (parent ++ [name]) t.root } hkeeps rfl true path
    rw [hvacant] at hkept
    refine ⟨?_, hkeeps, rfl⟩
    unfold Tree.get?
    rw [hkept.2 content (Entry.at?_plant_self _ _ _)]
  · cases h

theorem fromUTF8?_toUTF8 (text : String) : String.fromUTF8? text.toUTF8 = some text :=
  dif_pos text.isValidUTF8

/-- A text that was written at a path is read from there. -/
theorem Tree.readText?_of_write? {text : String} (h : t.write? path text.toUTF8 = some t') :
    t'.readText? path = some text := by
  obtain ⟨hget, _⟩ := Tree.write?_eq_some h
  unfold Tree.readText?
  rw [hget]
  exact fromUTF8?_toUTF8 text

/-! ## Names at the top -/

variable {children : List (String × Entry)} {name : String} {follow : Bool}

/-- The path of a name at the top. -/
structure IsAtTop (path name : String) : Prop where
  absolute : Path.isAbsolute path = true
  pieces : Path.pieces path = ["", name]
  isName : name ≠ "" ∧ name ≠ "." ∧ name ≠ ".."

theorem IsAtTop.locate (h : IsAtTop path name) (t : Tree) (follow : Bool) :
    t.locate follow path = Tree.locateFrom t.root follow maxLinks [] ["", name] := by
  have hfilled : path.isEmpty = false := by
    rw [← Bool.not_eq_true, String.isEmpty_iff]
    rintro rfl
    cases h.absolute
  unfold Tree.locate
  rw [hfilled, h.absolute, h.pieces]
  rfl

/-- A file at the top is found there. -/
theorem IsAtTop.found (h : IsAtTop path name) (hroot : t.root = .dir children)
    (hchild : Entry.find? children name = some (.file content)) :
    t.locate follow path = .found [name] (.file content) := by
  have hdir : t.root.at? [] = some (.dir children) := by
    rw [hroot]
    rfl
  have hfile : t.root.at? ([] ++ [name]) = some (.file content) := by
    rw [Entry.at?_concat hdir, hchild]
  obtain ⟨hempty, hdot, hup⟩ := h.isName
  rw [h.locate, locateFrom_skip maxLinks hdir rfl,
    locateFrom_child maxLinks hdir (by simp [hempty, hdot]) (by simpa using hup) hfile (by simp),
    Tree.locateFrom, hfile]
  rfl

/-- A name that the top does not have is vacant. -/
theorem IsAtTop.vacant (h : IsAtTop path name) (hroot : t.root = .dir children)
    (hchild : Entry.find? children name = none) : t.locate follow path = .vacant [] name := by
  have hdir : t.root.at? [] = some (.dir children) := by
    rw [hroot]
    rfl
  obtain ⟨hempty, hdot, hup⟩ := h.isName
  rw [h.locate, locateFrom_skip maxLinks hdir rfl, Tree.locateFrom, hdir]
  simp [hempty, hdot, hup, hchild]

/-- There a file can be written. -/
theorem IsAtTop.write? (h : IsAtTop path name) (hroot : t.root = .dir children)
    (hchild : Entry.find? children name = none) (content : ByteArray) :
    t.write? path content =
      some { t with root := .dir (Entry.setChild children name (.file content)) } := by
  unfold Tree.write?
  rw [h.vacant hroot hchild]
  simp [hroot, Entry.plant]

end

end XPathTaint.Files
