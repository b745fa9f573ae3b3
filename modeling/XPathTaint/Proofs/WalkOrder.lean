import XPathTaint.Proofs.NameWalks
import XPathTaint.Proofs.PathsBelow

-- What a walk finds below a path, and in which order. It finds the files that no excluded entry and
-- no link is on the way to, each of them once: those nearer to the path first, in a directory in
-- the order of paths, and what lies in an earlier directory before what lies in a later one. In
-- what order the entries of a directory are listed does not matter.

namespace XPathTaint.Files

/-! ## Names and paths -/

/-- A walk by paths goes as one by names does, below any path. -/
theorem filesBelow_below (path : String) (excluded : String → Bool)
    (queue : List (List String × Entry)) :
    filesBelow excluded (queue.map fun q => (Path.below path q.1, q.2)) =
      (walkNames (fun within => excluded (Path.below path within)) queue).map
        (Path.below path) := by
  have hchildren : ∀ names children, childrenAt (Path.below path names) children =
      (namedChildren names children).map fun q => (Path.below path q.1, q.2) := by
    intro names children
    simp [childrenAt, namedChildren, Path.below_concat]
  fun_induction walkNames (fun within => excluded (Path.below path within)) queue with
  | case1 => rw [List.map_nil, filesBelow, List.map_nil]
  | case2 names entry queue hexcluded ih =>
    rw [List.map_cons, ← ih]
    cases entry with
    | file content => rw [filesBelow, if_pos hexcluded]
    | link target => rw [filesBelow, if_pos hexcluded]
    | dir children => rw [filesBelow, if_pos hexcluded]
  | case3 names queue hkept content ih =>
    rw [List.map_cons, filesBelow, if_neg hkept, ih]
    rfl
  | case4 names queue hkept target ih =>
    rw [List.map_cons, filesBelow, if_neg hkept, ih]
  | case5 names queue hkept children ih =>
    rw [List.map_cons, filesBelow, if_neg hkept, ← ih, List.map_append, hchildren]

section

variable {t : Tree} {path : String} {excluded : String → Bool} {names : List String} {top : Entry}

theorem walk?_of_locate (h : t.locate false path = .found names top) :
    t.walk? path excluded = some
      ((walkNames (fun within => excluded (Path.below path within)) [([], top)]).map
        (Path.below path)) := by
  rw [← filesBelow_below]
  show t.walk? path excluded = some (filesBelow excluded [(path, top)])
  unfold Tree.walk?
  split
  · rename_i hexcluded
    cases top <;> simp [filesBelow, hexcluded]
  · rw [h]

end

/-! ## What a walk finds -/

/-- A file that a walk from an entry is to find: names lead to it, and neither it nor a directory on
the way, the entry included, is excluded or a link. -/
structure IsWanted (top : Entry) (excluded : List String → Bool) (within : List String) :
    Prop where
  file : ∃ content, top.at? within = some (.file content)
  clear : IsClear excluded within
  unlinked : ∀ n ≤ within.length, ∀ target, top.at? (within.take n) ≠ some (.link target)

section

variable {top entry : Entry} {excluded : List String → Bool} {names within more : List String}
  {queue : List (List String × Entry)}

/-- Names lead through no link to a file. -/
theorem isWanted_iff : IsWanted top excluded within ↔
    (∃ content, top.at? within = some (.file content)) ∧ IsClear excluded within := by
  constructor
  · exact fun h => ⟨h.file, h.clear⟩
  · rintro ⟨⟨content, hfile⟩, hclear⟩
    refine ⟨⟨content, hfile⟩, hclear, fun n _ target hlink => ?_⟩
    rw [← List.take_append_drop n within, Entry.at?_append, hlink, Option.bind_some] at hfile
    cases hrest : within.drop n <;> rw [hrest] at hfile <;> cases hfile

/-- A walk that excludes nothing finds each file at and below the entries of its queue. -/
theorem mem_walkNames_of_at? {content : ByteArray} (hmem : (names, entry) ∈ queue)
    (hfile : entry.at? more = some (.file content)) :
    names ++ more ∈ walkNames (fun _ => false) queue := by
  fun_induction walkNames (fun _ => false) queue generalizing names entry more with
  | case1 => cases hmem
  | case2 first other queue hexcluded => cases hexcluded
  | case3 first queue _ found ih =>
    rcases List.mem_cons.mp hmem with heq | hmem
    · obtain ⟨rfl, rfl⟩ := Prod.mk.inj heq
      cases more with
      | nil => simp
      | cons name more => cases hfile
    · exact List.mem_cons_of_mem first (ih hmem hfile)
  | case4 first queue _ target ih =>
    rcases List.mem_cons.mp hmem with heq | hmem
    · obtain ⟨rfl, rfl⟩ := Prod.mk.inj heq
      cases more <;> cases hfile
    · exact ih hmem hfile
  | case5 first queue _ children ih =>
    rcases List.mem_cons.mp hmem with heq | hmem
    · obtain ⟨rfl, rfl⟩ := Prod.mk.inj heq
      cases more with
      | nil => cases hfile
      | cons name more =>
        obtain ⟨child, hchild, hinner⟩ := Option.bind_eq_some_iff.mp hfile
        have hqueued : (names ++ [name], child) ∈ queue ++ namedChildren names children := by
          refine List.mem_append_right queue (List.mem_map.mpr ⟨(name, child), ?_, rfl⟩)
          exact List.mem_mergeSort.mpr (Entry.mem_of_find? hchild)
        simpa using ih hqueued hinner
    · exact ih (List.mem_append_left _ hmem) hfile

/-- A walk finds just the files that are wanted. -/
theorem mem_walkNames_iff (hproper : top.IsProper) :
    within ∈ walkNames excluded [([], top)] ↔ IsWanted top excluded within := by
  have hopen : IsOpen excluded [] := nofun
  have hfilter := walkNames_or (fun _ => false) excluded [([], top)]
  simp only [Bool.false_or] at hfilter
  rw [List.filter_cons_of_pos (by simpa using hopen), List.filter_nil] at hfilter
  rw [hfilter, List.mem_filter, decide_eq_true_iff, isWanted_iff]
  refine and_congr_left' ⟨at?_of_mem_walkNames hproper (inPlace_self top), ?_⟩
  exact fun ⟨content, hfile⟩ => mem_walkNames_of_at? (List.mem_singleton_self _) hfile

/-- What a walk finds lies at or below an entry of its queue. -/
theorem exists_prefix_of_mem_walkNames (h : within ∈ walkNames excluded queue) :
    ∃ q ∈ queue, q.1 <+: within := by
  fun_induction walkNames excluded queue with
  | case1 => cases h
  | case2 first other queue _ ih =>
    obtain ⟨q, hq, hstarts⟩ := ih h
    exact ⟨q, List.mem_cons_of_mem _ hq, hstarts⟩
  | case3 first queue _ content ih =>
    rcases List.mem_cons.mp h with rfl | h
    · exact ⟨_, List.mem_cons_self, List.prefix_refl within⟩
    · obtain ⟨q, hq, hstarts⟩ := ih h
      exact ⟨q, List.mem_cons_of_mem _ hq, hstarts⟩
  | case4 first queue _ target ih =>
    obtain ⟨q, hq, hstarts⟩ := ih h
    exact ⟨q, List.mem_cons_of_mem _ hq, hstarts⟩
  | case5 first queue _ children ih =>
    obtain ⟨q, hq, hstarts⟩ := ih h
    rcases List.mem_append.mp hq with hq | hq
    · exact ⟨q, List.mem_cons_of_mem _ hq, hstarts⟩
    · obtain ⟨c, _, rfl⟩ := List.mem_map.mp hq
      exact ⟨_, List.mem_cons_self, (List.prefix_append first [c.1]).trans hstarts⟩

end

/-! ## The order -/

/-- The order of a walk below a path: what is nearer to it comes before what is farther, in one
directory the order is that of the paths, and what lies in an earlier directory comes before what
lies in a later one. -/
inductive ComesBefore (path : String) : List String → List String → Prop
  | nearer {a b : List String} (h : a.length < b.length) : ComesBefore path a b
  | sibling {dir : List String} {x y : String}
      (h : Path.compare (Path.below path (dir ++ [x])) (Path.below path (dir ++ [y])) = .lt) :
      ComesBefore path (dir ++ [x]) (dir ++ [y])
  | inside {a b : List String} {x y : String} (h : ComesBefore path a b) :
      ComesBefore path (a ++ [x]) (b ++ [y])

namespace ComesBefore

variable {path : String} {a b : List String} {x y : String}

theorem length_le (h : ComesBefore path a b) : a.length ≤ b.length := by
  induction h with
  | nearer h => exact Nat.le_of_lt h
  | sibling => simp
  | inside _ ih => simpa using ih

/-- Two entries are in order if their directories are, or if they are so in one directory. -/
theorem concat_iff : ComesBefore path (a ++ [x]) (b ++ [y]) ↔ ComesBefore path a b ∨
    (a = b ∧ Path.compare (Path.below path (a ++ [x])) (Path.below path (b ++ [y])) = .lt) := by
  constructor
  · intro h
    generalize hfirst : a ++ [x] = first, hsecond : b ++ [y] = second at h
    cases h with
    | nearer h =>
      subst hfirst hsecond
      exact .inl (.nearer (by simpa using h))
    | sibling h =>
      obtain ⟨rfl, hx⟩ := List.append_inj' hfirst rfl
      obtain ⟨rfl, hy⟩ := List.append_inj' hsecond rfl
      exact .inr ⟨rfl, h⟩
    | inside h =>
      obtain ⟨rfl, hx⟩ := List.append_inj' hfirst rfl
      obtain ⟨rfl, hy⟩ := List.append_inj' hsecond rfl
      exact .inl h
  · rintro (h | ⟨rfl, h⟩)
    · exact .inside h
    · exact .sibling h

theorem ne (h : ComesBefore path a b) : a ≠ b := by
  induction h with
  | nearer h =>
    rintro rfl
    exact Nat.lt_irrefl _ h
  | @sibling dir x y h =>
    intro heq
    have hself : Path.compare (Path.below path (dir ++ [y])) (Path.below path (dir ++ [y])) = .eq :=
      Std.ReflCmp.compare_self
    rw [heq, hself] at h
    cases h
  | inside _ ih => exact fun heq => ih (List.append_inj' heq rfl).1

theorem asymm (h : ComesBefore path a b) : ¬ ComesBefore path b a := by
  induction h with
  | nearer h => exact fun hback => Nat.lt_irrefl _ (Nat.lt_of_lt_of_le h hback.length_le)
  | sibling h =>
    intro hback
    rcases concat_iff.mp hback with hdir | ⟨_, hgt⟩
    · exact hdir.ne rfl
    · rw [Std.OrientedCmp.gt_of_lt h] at hgt
      cases hgt
  | inside h ih =>
    intro hback
    rcases concat_iff.mp hback with hdir | ⟨rfl, _⟩
    · exact ih hdir
    · exact h.ne rfl

/-- What comes later does so with all that lies in it. -/
theorem of_prefix {within : List String} (h : ComesBefore path a b) (hstarts : b <+: within) :
    ComesBefore path a within := by
  obtain ⟨more, rfl⟩ := hstarts
  cases more with
  | nil => simpa using h
  | cons name more =>
    have hle := h.length_le
    exact .nearer (by simp; omega)

end ComesBefore

section

variable {path : String} {names : List String} {queue kids : List (List String)}

/-- A queue of names in order, of at most two depths: those of the greater depth lie in directories
that were before all that is left of the lesser one. -/
structure InLevels (path : String) (queue : List (List String)) : Prop where
  ordered : queue.Pairwise (ComesBefore path)
  levels : ∀ a ∈ queue, ∀ b ∈ queue, a.length < b.length →
    b.length = a.length + 1 ∧ ComesBefore path b.dropLast a

theorem InLevels.tail (h : InLevels path (names :: queue)) : InLevels path queue where
  ordered := (List.pairwise_cons.mp h.ordered).2
  levels := fun a ha b hb =>
    h.levels a (List.mem_cons_of_mem names ha) b (List.mem_cons_of_mem names hb)

/-- The children of the first directory go to the end of the queue. -/
theorem InLevels.next (h : InLevels path (names :: queue)) (hkids : kids.Pairwise (ComesBefore path))
    (hin : ∀ k ∈ kids, ∃ name, k = names ++ [name]) : InLevels path (queue ++ kids) := by
  obtain ⟨hfirst, hqueue⟩ := List.pairwise_cons.mp h.ordered
  have hdepth : ∀ q ∈ queue, names.length < q.length →
      q.length = names.length + 1 ∧ ComesBefore path q.dropLast names := fun q hq =>
    h.levels names List.mem_cons_self q (List.mem_cons_of_mem names hq)
  constructor
  · refine List.pairwise_append.mpr ⟨hqueue, hkids, fun q hq k hk => ?_⟩
    obtain ⟨name, rfl⟩ := hin k hk
    rcases Nat.lt_or_eq_of_le (hfirst q hq).length_le with hlt | heq
    · obtain ⟨_, hbefore⟩ := hdepth q hq hlt
      have hne : q ≠ [] := List.ne_nil_of_length_pos (Nat.zero_lt_of_lt hlt)
      rw [← List.dropLast_concat_getLast hne]
      exact .inside hbefore
    · exact .nearer (by simp [← heq])
  · intro a ha b hb hlt
    rcases List.mem_append.mp ha with ha | ha <;> rcases List.mem_append.mp hb with hb | hb
    · exact h.tail.levels a ha b hb hlt
    · obtain ⟨name, rfl⟩ := hin b hb
      have hle := (hfirst a ha).length_le
      rw [List.length_append, List.length_singleton] at hlt ⊢
      rw [List.dropLast_concat]
      -- A directory of the depth of the first one comes behind it.
      exact ⟨by omega, hfirst a ha⟩
    · obtain ⟨name, rfl⟩ := hin a ha
      rw [List.length_append, List.length_singleton] at hlt
      have hone := (hdepth b hb (by omega)).1
      omega
    · obtain ⟨name, rfl⟩ := hin a ha
      obtain ⟨other, rfl⟩ := hin b hb
      simp at hlt

end

section

variable {path : String} {top : Entry} {excluded : List String → Bool} {names : List String}
  {children : List (String × Entry)} {queue : List (List String × Entry)}

/-- The children of a directory stand in the order of their paths. -/
theorem pairwise_namedChildren (hpath : path ≠ "") (hnames : ∀ n ∈ names, IsName n)
    (hproper : (Entry.dir children).IsProper) :
    ((namedChildren names children).map (·.1)).Pairwise (ComesBefore path) := by
  cases hproper with
  | dir hnodup hown _ =>
    have htrans : ∀ a b c : String × Entry, decide (a.1 ≤ b.1) = true → decide (b.1 ≤ c.1) = true →
        decide (a.1 ≤ c.1) = true := by
      simp only [decide_eq_true_eq]
      exact fun a b c => String.le_trans
    have htotal : ∀ a b : String × Entry, (decide (a.1 ≤ b.1) || decide (b.1 ≤ a.1)) = true := by
      simp only [Bool.or_eq_true, decide_eq_true_eq]
      exact fun a b => String.le_total a.1 b.1
    have hsorted : (sortByName children).Pairwise fun a b => decide (a.1 ≤ b.1) = true :=
      List.pairwise_mergeSort htrans htotal children
    have hdistinct : (sortByName children).Pairwise fun a b => a.1 ≠ b.1 :=
      List.pairwise_map.mp
        (((List.mergeSort_perm children _).map Prod.fst).nodup_iff.mpr hnodup)
    rw [namedChildren, List.map_map]
    refine List.pairwise_map.mpr ((hsorted.and hdistinct).imp_of_mem ?_)
    rintro a b ha hb ⟨hle, hne⟩
    have hname : IsName a.1 := hown a (List.mem_mergeSort.mp ha)
    have hother : IsName b.1 := hown b (List.mem_mergeSort.mp hb)
    refine .sibling ?_
    rw [Path.below_concat, Path.below_concat,
      Path.compare_siblings (Path.below_ne_empty hpath hnames) hname hother]
    exact compareOfLessAndEq_eq_lt.mpr (Std.lt_of_le_of_ne (of_decide_eq_true hle) hne)

/-- A walk finds its files in order. -/
theorem pairwise_walkNames (hpath : path ≠ "") (hproper : top.IsProper)
    (hplace : InPlace top queue) (hlevels : InLevels path (queue.map (·.1))) :
    (walkNames excluded queue).Pairwise (ComesBefore path) := by
  fun_induction walkNames excluded queue with
  | case1 => exact .nil
  | case2 first other queue _ ih =>
    exact ih (List.forall_mem_cons.mp hplace).2 hlevels.tail
  | case3 first queue _ content ih =>
    refine List.pairwise_cons.mpr ⟨fun within hwithin => ?_,
      ih (List.forall_mem_cons.mp hplace).2 hlevels.tail⟩
    obtain ⟨q, hq, hstarts⟩ := exists_prefix_of_mem_walkNames hwithin
    have hbefore : ComesBefore path first q.1 :=
      (List.pairwise_cons.mp hlevels.ordered).1 q.1 (List.mem_map_of_mem hq)
    exact hbefore.of_prefix hstarts
  | case4 first queue _ target ih =>
    exact ih (List.forall_mem_cons.mp hplace).2 hlevels.tail
  | case5 first queue _ children ih =>
    obtain ⟨hdir, hnames⟩ := hproper.at? (List.forall_mem_cons.mp hplace).1
    refine ih (hplace.next hproper) ?_
    rw [List.map_append]
    refine hlevels.next (pairwise_namedChildren hpath hnames hdir) fun k hk => ?_
    obtain ⟨q, hq, rfl⟩ := List.mem_map.mp hk
    obtain ⟨c, _, rfl⟩ := List.mem_map.mp hq
    exact ⟨c.1, rfl⟩

theorem pairwise_walkNames_top (hpath : path ≠ "") (hproper : top.IsProper) :
    (walkNames excluded [([], top)]).Pairwise (ComesBefore path) := by
  refine pairwise_walkNames hpath hproper (inPlace_self top) ⟨List.pairwise_singleton _ _, ?_⟩
  intro a ha b hb hlt
  obtain rfl := List.mem_singleton.mp ha
  obtain rfl := List.mem_singleton.mp hb
  exact absurd hlt (Nat.lt_irrefl _)

end

end XPathTaint.Files
