import XPathTaint.Proofs.PathNames

-- The walk through a directory by names alone. A walk that starts at the path of a directory goes
-- the same way, whatever the names on the way to the directory are; and what is excluded in
-- addition is missing with all that lies below it, and nothing else is.

namespace XPathTaint.Files

/-! ## The walk -/

/-- The children of the directory at names, under their own names. -/
def namedChildren (names : List String) (children : List (String × Entry)) :
    List (List String × Entry) :=
  (sortByName children).map fun c => (names ++ [c.1], c.2)

/-- The number of entries from those of a queue on. -/
def namedWeight (queue : List (List String × Entry)) : Nat :=
  childWeight (queue.map fun q => ("", q.2))

theorem namedWeight_cons (names : List String) (e : Entry) (queue : List (List String × Entry)) :
    namedWeight ((names, e) :: queue) = e.weight + namedWeight queue := by
  simp [namedWeight, childWeight]

theorem namedWeight_append_children (names : List String) (children : List (String × Entry))
    (queue : List (List String × Entry)) :
    namedWeight (queue ++ namedChildren names children) =
      namedWeight queue + childWeight children := by
  have hperm := childWeight_perm (List.mergeSort_perm children fun a b => decide (a.1 ≤ b.1))
  simp only [namedWeight, namedChildren, List.map_append, List.map_map, childWeight_append,
    Function.comp_def]
  rw [childWeight_rename fun _ => "", sortByName, hperm]

/-- The names of the files at and below the entries of a queue. -/
def walkNames (excluded : List String → Bool) : List (List String × Entry) → List (List String)
  | [] => []
  | (names, entry) :: queue =>
    if excluded names then walkNames excluded queue
    else
      match entry with
      | .file _ => names :: walkNames excluded queue
      | .link _ => walkNames excluded queue
      | .dir children => walkNames excluded (queue ++ namedChildren names children)
termination_by queue => namedWeight queue
decreasing_by
  · have := entry.weight_pos
    rw [namedWeight_cons]
    omega
  · simp [namedWeight_cons, Entry.weight]
  · simp [namedWeight_cons, Entry.weight]
  · rw [namedWeight_cons, namedWeight_append_children, Entry.weight]
    omega

section

variable {excluded more : List String → Bool} {queue : List (List String × Entry)}
  {names : List String} {children : List (String × Entry)} {top : Entry}

theorem walkNames_excluded {entry : Entry} (h : excluded names = true) :
    walkNames excluded ((names, entry) :: queue) = walkNames excluded queue := by
  rw [walkNames.eq_def]
  exact if_pos h

theorem walkNames_file {content : ByteArray} (h : excluded names = false) :
    walkNames excluded ((names, .file content) :: queue) =
      names :: walkNames excluded queue := by
  rw [walkNames, h]
  rfl

theorem walkNames_link {target : String} :
    walkNames excluded ((names, .link target) :: queue) = walkNames excluded queue := by
  rw [walkNames]
  exact ite_self _

theorem walkNames_dir (h : excluded names = false) :
    walkNames excluded ((names, .dir children) :: queue) =
      walkNames excluded (queue ++ namedChildren names children) := by
  rw [walkNames, h]
  rfl

/-! ## Places -/

/-- The entries of a queue stand where their names lead from `top`. -/
def InPlace (top : Entry) (queue : List (List String × Entry)) : Prop :=
  ∀ q ∈ queue, top.at? q.1 = some q.2

theorem inPlace_self (top : Entry) : InPlace top [([], top)] := by
  intro q hq
  obtain rfl := List.mem_singleton.mp hq
  rfl

theorem inPlace_namedChildren (hproper : top.IsProper) (h : top.at? names = some (.dir children)) :
    InPlace top (namedChildren names children) := by
  cases (hproper.at? h).1 with
  | dir hnodup _ _ =>
    intro q hq
    obtain ⟨c, hc, rfl⟩ := List.mem_map.mp hq
    rw [Entry.at?_concat h]
    exact Entry.find?_of_mem hnodup (List.mem_mergeSort.mp hc)

/-- What comes next where a directory was first in the queue. -/
theorem InPlace.next (hproper : top.IsProper) (h : InPlace top ((names, .dir children) :: queue)) :
    InPlace top (queue ++ namedChildren names children) := by
  obtain ⟨hhead, hrest⟩ := List.forall_mem_cons.mp h
  exact List.forall_mem_append.mpr ⟨hrest, inPlace_namedChildren hproper hhead⟩

/-- A walk leads to files. -/
theorem at?_of_mem_walkNames (hproper : top.IsProper) (hqueue : InPlace top queue)
    (h : names ∈ walkNames excluded queue) : ∃ content, top.at? names = some (.file content) := by
  fun_induction walkNames excluded queue with
  | case1 => cases h
  | case2 first entry queue hexcluded ih => exact ih (List.forall_mem_cons.mp hqueue).2 h
  | case3 first queue hkept content ih =>
    obtain ⟨hfirst, hrest⟩ := List.forall_mem_cons.mp hqueue
    rcases List.mem_cons.mp h with rfl | h
    · exact ⟨content, hfirst⟩
    · exact ih hrest h
  | case4 first queue hkept target ih => exact ih (List.forall_mem_cons.mp hqueue).2 h
  | case5 first queue hkept children ih => exact ih (hqueue.next hproper) h

/-- A walk asks only about what its names lead to, and it does not matter what it hears of links. -/
theorem walkNames_congr (hproper : top.IsProper) (hqueue : InPlace top queue)
    (hsame : ∀ names entry, top.at? names = some entry → (∀ target, entry ≠ .link target) →
      more names = excluded names) :
    walkNames more queue = walkNames excluded queue := by
  fun_induction walkNames excluded queue with
  | case1 => rw [walkNames]
  | case2 names entry queue hexcluded ih =>
    obtain ⟨hhead, hrest⟩ := List.forall_mem_cons.mp hqueue
    rw [← ih hrest]
    cases entry with
    | link target => exact walkNames_link
    | file content =>
      exact walkNames_excluded ((hsame names _ hhead (by simp)).trans hexcluded)
    | dir children =>
      exact walkNames_excluded ((hsame names _ hhead (by simp)).trans hexcluded)
  | case3 names queue hkept content ih =>
    obtain ⟨hhead, hrest⟩ := List.forall_mem_cons.mp hqueue
    have hopen : more names = false := by simpa [hsame names _ hhead] using hkept
    rw [walkNames_file hopen, ih hrest]
  | case4 names queue hkept target ih =>
    rw [walkNames_link, ih (List.forall_mem_cons.mp hqueue).2]
  | case5 names queue hkept children ih =>
    obtain ⟨hhead, _⟩ := List.forall_mem_cons.mp hqueue
    have hopen : more names = false := by simpa [hsame names _ hhead] using hkept
    rw [walkNames_dir hopen, ih (hqueue.next hproper)]

/-! ## Exclusion -/

/-- Whether nothing is excluded on the way to names, themselves at the end. -/
def IsClear (excluded : List String → Bool) (names : List String) : Prop :=
  ∀ n ≤ names.length, excluded (names.take n) = false

instance (excluded : List String → Bool) (names : List String) :
    Decidable (IsClear excluded names) :=
  decidable_of_iff (∀ n < names.length + 1, excluded (names.take n) = false)
    ⟨fun h n hn => h n (by omega), fun h n hn => h n (by omega)⟩

/-- Whether nothing is excluded on the way to names, before their end. -/
def IsOpen (excluded : List String → Bool) (names : List String) : Prop :=
  ∀ n < names.length, excluded (names.take n) = false

instance (excluded : List String → Bool) (names : List String) :
    Decidable (IsOpen excluded names) :=
  inferInstanceAs (Decidable (∀ n < names.length, _))

theorem isClear_iff : IsClear excluded names ↔
    IsOpen excluded names ∧ excluded names = false := by
  constructor
  · intro h
    exact ⟨fun n hn => h n (by omega), by simpa using h names.length (Nat.le_refl _)⟩
  · rintro ⟨hopen, hself⟩ n hn
    rcases Nat.lt_or_eq_of_le hn with hlt | rfl
    · exact hopen n hlt
    · simpa using hself

theorem excluded_of_not_isClear (hopen : IsOpen excluded names) (h : ¬ IsClear excluded names) :
    excluded names = true := by
  by_contra hfalse
  exact h (isClear_iff.mpr ⟨hopen, Bool.eq_false_iff.mpr hfalse⟩)

/-- A child is reached where its directory is. -/
theorem isOpen_concat (name : String) :
    IsOpen excluded (names ++ [name]) ↔ IsClear excluded names := by
  unfold IsOpen IsClear
  rw [List.length_append, List.length_singleton]
  refine forall_congr' fun n => ?_
  constructor
  · intro h hn
    simpa [List.take_append_of_le_length hn] using h (by omega)
  · intro h hn
    have hle : n ≤ names.length := by omega
    simpa [List.take_append_of_le_length hle] using h hle

theorem filter_namedChildren_of_clear (h : IsClear excluded names) :
    (namedChildren names children).filter (fun q => decide (IsOpen excluded q.1)) =
      namedChildren names children := by
  rw [List.filter_eq_self]
  intro q hq
  obtain ⟨c, _, rfl⟩ := List.mem_map.mp hq
  exact decide_eq_true ((isOpen_concat c.1).mpr h)

theorem filter_namedChildren_of_not_clear (h : ¬ IsClear excluded names) :
    (namedChildren names children).filter (fun q => decide (IsOpen excluded q.1)) = [] := by
  rw [List.filter_eq_nil_iff]
  intro q hq hopen
  obtain ⟨c, _, rfl⟩ := List.mem_map.mp hq
  exact h ((isOpen_concat c.1).mp (of_decide_eq_true hopen))

/-- What more is excluded is missing with all below it; of the rest nothing is. -/
theorem walkNames_or (excluded more : List String → Bool) (queue : List (List String × Entry)) :
    walkNames (fun names => excluded names || more names)
        (queue.filter fun q => decide (IsOpen more q.1)) =
      (walkNames excluded queue).filter fun names => decide (IsClear more names) := by
  fun_induction walkNames excluded queue with
  | case1 => simp [walkNames]
  | case2 names entry queue hexcluded ih =>
    rw [List.filter_cons]
    split
    · rw [walkNames_excluded (by simp [hexcluded]), ih]
    · exact ih
  | case3 names queue hkept content ih =>
    by_cases hclear : IsClear more names
    · obtain ⟨hopen, hself⟩ := isClear_iff.mp hclear
      rw [List.filter_cons_of_pos (by simpa using hopen), walkNames_file (by simp [hkept, hself]),
        ih, List.filter_cons_of_pos (by simpa using hclear)]
    · rw [List.filter_cons_of_neg (a := names) (by simpa using hclear), ← ih, List.filter_cons]
      split
      · rename_i hopen
        have hself := excluded_of_not_isClear (of_decide_eq_true hopen) hclear
        exact walkNames_excluded (by simp [hself])
      · rfl
  | case4 names queue hkept target ih =>
    rw [List.filter_cons]
    split
    · rw [walkNames_link, ih]
    · exact ih
  | case5 names queue hkept children ih =>
    rw [List.filter_append] at ih
    by_cases hclear : IsClear more names
    · obtain ⟨hopen, hself⟩ := isClear_iff.mp hclear
      rw [filter_namedChildren_of_clear hclear] at ih
      rw [List.filter_cons_of_pos (by simpa using hopen), walkNames_dir (by simp [hkept, hself]), ih]
    · rw [filter_namedChildren_of_not_clear hclear, List.append_nil] at ih
      rw [← ih, List.filter_cons]
      split
      · rename_i hopen
        have hself := excluded_of_not_isClear (of_decide_eq_true hopen) hclear
        exact walkNames_excluded (by simp [hself])
      · rfl

end

end XPathTaint.Files
