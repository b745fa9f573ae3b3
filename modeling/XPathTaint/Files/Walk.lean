import XPathTaint.Files.Tree

-- Walks through a tree: all files below a path, those near it first, and in each directory
-- in the order of names. Links are never followed and excluded paths are pruned.

namespace XPathTaint.Files

/-! ## Weights -/

mutual

/-- The number of entries from an entry on. -/
def Entry.weight : Entry → Nat
  | .file _ => 1
  | .link _ => 1
  | .dir children => 1 + childWeight children

def childWeight : List (String × Entry) → Nat
  | [] => 0
  | (_, e) :: rest => e.weight + childWeight rest

end

theorem childWeight_append (as bs : List (String × Entry)) :
    childWeight (as ++ bs) = childWeight as + childWeight bs := by
  induction as with
  | nil => simp [childWeight]
  | cons a rest ih => simp [childWeight, ih, Nat.add_assoc]

/-- The order of entries does not matter for their weight. -/
theorem childWeight_perm {as bs : List (String × Entry)} (h : as.Perm bs) :
    childWeight as = childWeight bs := by
  induction h with
  | nil => rfl
  | cons a _ ih => simp only [childWeight, ih]
  | swap a b rest => simp only [childWeight, Nat.add_left_comm]
  | trans _ _ ih₁ ih₂ => exact ih₁.trans ih₂

/-- Nor do their names. -/
theorem childWeight_rename (rename : String → String) (es : List (String × Entry)) :
    childWeight (es.map fun e => (rename e.1, e.2)) = childWeight es := by
  induction es with
  | nil => rfl
  | cons e rest ih => simp only [List.map_cons, childWeight, ih]

theorem Entry.weight_pos (e : Entry) : 0 < e.weight := by
  cases e <;> unfold Entry.weight <;> omega

/-! ## The walk -/

/-- Entries in the order of their names. -/
def sortByName (children : List (String × Entry)) : List (String × Entry) :=
  children.mergeSort fun a b => decide (a.1 ≤ b.1)

/-- The children of the directory at a path, under their own paths. -/
def childrenAt (path : String) (children : List (String × Entry)) : List (String × Entry) :=
  (sortByName children).map fun c => (Path.join path c.1, c.2)

theorem childWeight_childrenAt (path : String) (children : List (String × Entry)) :
    childWeight (childrenAt path children) = childWeight children := by
  unfold childrenAt sortByName
  rw [childWeight_rename]
  exact childWeight_perm (List.mergeSort_perm children _)

/-- The paths of the files at and below the entries of a queue. -/
def filesBelow (excluded : String → Bool) : List (String × Entry) → List String
  | [] => []
  | (path, entry) :: queue =>
    if excluded path then filesBelow excluded queue
    else
      match entry with
      | .file _ => path :: filesBelow excluded queue
      | .link _ => filesBelow excluded queue
      | .dir children => filesBelow excluded (queue ++ childrenAt path children)
termination_by queue => childWeight queue
decreasing_by
  · have := entry.weight_pos; simp [childWeight]; omega
  · simp [childWeight, Entry.weight]
  · simp [childWeight, Entry.weight]
  · simp [childWeight, Entry.weight, childWeight_append, childWeight_childrenAt]; omega

/-- The files at and below a path; `none` when the path leads nowhere. Whether it is
excluded is asked first. -/
def Tree.walk? (t : Tree) (path : String) (excluded : String → Bool) : Option (List String) :=
  if excluded path then some []
  else
    match t.locate false path with
    | .found _ entry => some (filesBelow excluded [(path, entry)])
    | _ => none

/-- Goes on with the files at and below a path one after the other, as far as the steps succeed;
`missing` is what comes of a path that leads nowhere. -/
def Tree.foldFilesM {m : Type → Type} [Monad m] {σ : Type} (t : Tree) (path : String)
    (excluded : String → Bool) (missing : m σ) (step : σ → String → m σ) (init : σ) : m σ :=
  match t.walk? path excluded with
  | none => missing
  | some files => files.foldlM step init

end XPathTaint.Files
