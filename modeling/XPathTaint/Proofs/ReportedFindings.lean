import Mathlib.Data.List.Nodup
import Mathlib.Data.List.Pairwise
import XPathTaint.Proofs.FindingIds
import XPathTaint.Proofs.FindingOrder

-- What is reported for several files: each place once and in order, unless it is known or
-- silenced, with the first finding there. The order of the files does not matter.

namespace XPathTaint

/-! ## The first of each id -/

/-- One finding more, unless its id was kept before. -/
def keepNew (kept : List Finding) (f : Finding) : List Finding :=
  if kept.any (fun k => k.id == f.id) then kept else kept ++ [f]

theorem firstOfEach_eq (fs : List Finding) : firstOfEach fs = fs.foldl keepNew [] := rfl

theorem keepNew_known {kept : List Finding} {f : Finding} (h : ∃ k ∈ kept, k.id = f.id) :
    keepNew kept f = kept := by
  unfold keepNew
  rw [if_pos (by simpa using h)]

theorem keepNew_new {kept : List Finding} {f : Finding} (h : ¬ ∃ k ∈ kept, k.id = f.id) :
    keepNew kept f = kept ++ [f] := by
  unfold keepNew
  rw [if_neg (by simpa using h)]

theorem mem_foldl_keepNew {fs kept : List Finding} {f : Finding} : f ∈ fs.foldl keepNew kept ↔
    f ∈ kept ∨ (∀ k ∈ kept, k.id ≠ f.id) ∧ fs.find? (fun g => g.id == f.id) = some f := by
  induction fs generalizing kept with
  | nil => simp
  | cons g fs ih =>
    rw [List.foldl_cons, ih]
    by_cases hknown : ∃ k ∈ kept, k.id = g.id
    · rw [keepNew_known hknown]
      by_cases hid : g.id = f.id
      · -- the id is taken, so neither this finding nor a later one with it is kept
        obtain ⟨k, hk, hkg⟩ := hknown
        have hnot : ¬ ∀ k ∈ kept, k.id ≠ f.id := fun h => h k hk (hkg.trans hid)
        simp [hnot]
      · simp [hid]
    · rw [keepNew_new hknown]
      by_cases hid : g.id = f.id
      · have hall : ∀ k ∈ kept, k.id ≠ f.id := fun k hk hkf => hknown ⟨k, hk, hkf.trans hid.symm⟩
        have hnot : ¬ ∀ k ∈ kept ++ [g], k.id ≠ f.id := fun h => h g (by simp) hid
        rw [List.find?_cons_of_pos (by simp [hid])]
        simp only [hnot, false_and, or_false, Option.some.injEq]
        rw [List.mem_append, List.mem_singleton]
        exact or_congr Iff.rfl ⟨fun h => ⟨hall, h.symm⟩, fun h => h.2.symm⟩
      · have hne : f ≠ g := fun h => hid (by rw [h])
        simp [hid, hne, or_imp, forall_and]

/-- A finding is kept if it is the first with its id. -/
theorem mem_firstOfEach {fs : List Finding} {f : Finding} :
    f ∈ firstOfEach fs ↔ fs.find? (fun g => g.id == f.id) = some f := by
  rw [firstOfEach_eq, mem_foldl_keepNew]
  simp

theorem pairwise_firstOfEach (fs : List Finding) :
    (firstOfEach fs).Pairwise fun f g => f.id ≠ g.id := by
  have hfold : ∀ kept : List Finding, kept.Pairwise (fun f g => f.id ≠ g.id) →
      (fs.foldl keepNew kept).Pairwise fun f g => f.id ≠ g.id := by
    induction fs with
    | nil => exact fun kept h => h
    | cons g fs ih =>
      intro kept h
      rw [List.foldl_cons]
      apply ih
      by_cases hknown : ∃ k ∈ kept, k.id = g.id
      · rw [keepNew_known hknown]
        exact h
      · rw [keepNew_new hknown, List.pairwise_append]
        refine ⟨h, List.pairwise_singleton _ _, fun k hk f hf hid => hknown ⟨k, hk, ?_⟩⟩
        rw [hid, List.mem_singleton.mp hf]
  exact hfold [] List.Pairwise.nil

/-! ## Findings of one file -/

section

variable {cfg : Settings} {facts : FileFacts} {f g : Finding}

theorem exists_of_mem_analyzeFile (h : f ∈ analyzeFile cfg facts) :
    ∃ call sink taint, f = findingAt cfg facts call sink taint := by
  unfold analyzeFile checkCalls at h
  rw [List.mem_filterMap] at h
  obtain ⟨checked, hmem, hf⟩ := h
  obtain ⟨call, _, rfl⟩ := List.mem_map.mp hmem
  obtain ⟨sink, taint, _, _, rfl⟩ := exists_of_checkCall hf
  exact ⟨call, sink, taint, rfl⟩

/-- The text behind the id of a finding. -/
def idText (cfg : Settings) (f : Finding) : String :=
  placeText (cfg.resolve f.file) f.line f.column

theorem file_of_mem_analyzeFile (h : f ∈ analyzeFile cfg facts) : f.file = facts.path := by
  obtain ⟨call, sink, taint, rfl⟩ := exists_of_mem_analyzeFile h
  rfl

theorem id_of_mem_analyzeFile (h : f ∈ analyzeFile cfg facts) :
    f.id = Blake3.digestText (idText cfg f) := by
  obtain ⟨call, sink, taint, rfl⟩ := exists_of_mem_analyzeFile h
  exact findingId_eq _ _ _

end

/-! ## Files that can be told apart -/

/-- No two of the texts have the same digest. -/
def NoCollision (texts : List String) : Prop :=
  ∀ s ∈ texts, ∀ t ∈ texts, Blake3.digestText s = Blake3.digestText t → s = t

/-- The files have different paths, these are resolved to different ones, and no two places with
findings have the same digest. -/
structure Apart (cfg : Settings) (files : List FileFacts) : Prop where
  paths : files.Pairwise fun a b => Path.same a.path b.path = false
  resolved : ∀ a ∈ files, ∀ b ∈ files,
    cfg.resolve a.path = cfg.resolve b.path → Path.same a.path b.path = true
  digests : NoCollision ((rawFindings cfg files).map (idText cfg))

/-- File, line and column. -/
def Finding.location (f : Finding) : String × Nat × Nat := (f.file, f.line, f.column)

section

variable {cfg : Settings} {files files' : List FileFacts} {facts a b : FileFacts} {f g : Finding}

theorem Path.same_comm (s t : String) : Path.same s t = Path.same t s := by
  unfold Path.same
  rw [Bool.eq_iff_iff, beq_iff_eq, beq_iff_eq]
  exact eq_comm

theorem Apart.perm (h : Apart cfg files) (hperm : files.Perm files') : Apart cfg files' := by
  have hsymm : ∀ {a b : FileFacts}, Path.same a.path b.path = false →
      Path.same b.path a.path = false := fun hab => (Path.same_comm _ _).trans hab
  refine ⟨(hperm.pairwise_iff hsymm).mp h.paths, fun a ha b hb => ?_, fun s hs t ht => ?_⟩
  · exact h.resolved a (hperm.mem_iff.mpr ha) b (hperm.mem_iff.mpr hb)
  · have hmem : ∀ {s}, s ∈ (rawFindings cfg files').map (idText cfg) →
        s ∈ (rawFindings cfg files).map (idText cfg) := fun hs =>
      ((hperm.symm.flatMap_right (analyzeFile cfg)).map (idText cfg)).mem_iff.mp hs
    exact h.digests s (hmem hs) t (hmem ht)

theorem Apart.eq_of_same (h : Apart cfg files) (ha : a ∈ files) (hb : b ∈ files)
    (hsame : Path.same a.path b.path = true) : a = b := by
  by_cases hab : a = b
  · exact hab
  · have hsymm : Std.Symm fun a b : FileFacts => Path.same a.path b.path = false :=
      ⟨fun _ _ hab => (Path.same_comm _ _).trans hab⟩
    have hne := h.paths.forall ha hb hab
    rw [hne] at hsame
    exact absurd hsame (by decide)

theorem mem_rawFindings : f ∈ rawFindings cfg files ↔ ∃ a ∈ files, f ∈ analyzeFile cfg a := by
  unfold rawFindings
  rw [List.mem_flatMap]

/-- Ids tell places apart. -/
theorem Apart.id_eq_iff (h : Apart cfg files) (hf : f ∈ rawFindings cfg files)
    (hg : g ∈ rawFindings cfg files) : f.id = g.id ↔ f.location = g.location := by
  obtain ⟨a, ha, hfa⟩ := mem_rawFindings.mp hf
  obtain ⟨b, hb, hgb⟩ := mem_rawFindings.mp hg
  rw [id_of_mem_analyzeFile hfa, id_of_mem_analyzeFile hgb]
  constructor
  · intro hid
    have htext := h.digests _ (List.mem_map_of_mem hf) _ (List.mem_map_of_mem hg) hid
    obtain ⟨hresolve, hline, hcolumn⟩ := placeText_inj htext
    rw [file_of_mem_analyzeFile hfa, file_of_mem_analyzeFile hgb] at hresolve
    have hab : a = b := h.eq_of_same ha hb (h.resolved a ha b hb hresolve)
    unfold Finding.location
    rw [file_of_mem_analyzeFile hfa, file_of_mem_analyzeFile hgb, hab, hline, hcolumn]
  · intro hlocation
    simp only [Finding.location, Prod.mk.injEq] at hlocation
    unfold idText
    rw [hlocation.1, hlocation.2.1, hlocation.2.2]

/-! ## Known and silenced findings -/

/-- Whether a finding is left in. -/
def isNew (cfg : Settings) (files : List FileFacts) (f : Finding) : Bool :=
  !isKnown cfg f && !isSilenced cfg files f

theorem newFindings_eq :
    newFindings cfg files = (rawFindings cfg files).filter (isNew cfg files) := rfl

/-- Whether a finding is left in depends on its place alone. -/
theorem Apart.isNew_congr (h : Apart cfg files) (hf : f ∈ rawFindings cfg files)
    (hg : g ∈ rawFindings cfg files) (hlocation : f.location = g.location) :
    isNew cfg files f = isNew cfg files g := by
  have hid := (h.id_eq_iff hf hg).mpr hlocation
  simp only [Finding.location, Prod.mk.injEq] at hlocation
  unfold isNew isKnown isSilenced BaselineEntry.ofFinding
  rw [hid, hlocation.1, hlocation.2.1]

/-- The comments that silence a finding are those of its own file. -/
theorem Apart.isSilenced_iff (h : Apart cfg files) (ha : a ∈ files) (hf : f ∈ analyzeFile cfg a) :
    isSilenced cfg files f = true ↔ cfg.suppressMarker.isSome = true ∧ f.line ∈ a.suppressed := by
  have hfind : files.reverse.find? (fun b => Path.same b.path f.file) = some a := by
    rw [file_of_mem_analyzeFile hf]
    cases hfound : files.reverse.find? fun b => Path.same b.path a.path with
    | none =>
      have hnone := List.find?_eq_none.mp hfound a (List.mem_reverse.mpr ha)
      exact absurd (Path.same_self a.path) hnone
    | some b =>
      have hb : b ∈ files := List.mem_reverse.mp (List.mem_of_find?_eq_some hfound)
      have hsame := List.find?_some hfound
      rw [h.eq_of_same hb ha hsame]
  unfold isSilenced
  rw [hfind, Bool.and_eq_true, List.contains_iff_mem]

/-! ## Reported findings -/

theorem find?_congr_of_mem {fs : List Finding} {p q : Finding → Bool} (h : ∀ f ∈ fs, p f = q f) :
    fs.find? p = fs.find? q := by
  induction fs with
  | nil => rfl
  | cons f fs ih =>
    rw [List.find?_cons, List.find?_cons, h f (by simp),
      ih fun g hg => h g (List.mem_cons_of_mem _ hg)]

/-- The first new finding with an id is the first finding at its place. -/
theorem Apart.find?_newFindings (h : Apart cfg files) (hf : f ∈ rawFindings cfg files)
    (hnew : isNew cfg files f = true) :
    (newFindings cfg files).find? (fun g => g.id == f.id) =
      (rawFindings cfg files).find? fun g => g.location == f.location := by
  rw [newFindings_eq, List.find?_filter]
  apply find?_congr_of_mem
  intro g hg
  rw [Bool.eq_iff_iff, decide_eq_true_eq, beq_iff_eq, beq_iff_eq]
  constructor
  · rintro ⟨_, hid⟩
    exact (h.id_eq_iff hg hf).mp hid
  · intro hlocation
    rw [h.isNew_congr hg hf hlocation]
    exact ⟨hnew, (h.id_eq_iff hg hf).mpr hlocation⟩

/-- A new finding is reported if it is the first at its place. -/
theorem Apart.mem_analyzeFiles (h : Apart cfg files) : f ∈ analyzeFiles cfg files ↔
    isNew cfg files f = true ∧
      (rawFindings cfg files).find? (fun g => g.location == f.location) = some f := by
  unfold analyzeFiles
  rw [List.mem_mergeSort, mem_firstOfEach]
  constructor
  · intro hfirst
    have hmem := List.mem_of_find?_eq_some hfirst
    rw [newFindings_eq, List.mem_filter] at hmem
    exact ⟨hmem.2, h.find?_newFindings hmem.1 hmem.2 ▸ hfirst⟩
  · rintro ⟨hnew, hfirst⟩
    rw [h.find?_newFindings (List.mem_of_find?_eq_some hfirst) hnew]
    exact hfirst

/-- The first finding at a place is the first one there in its own file. -/
theorem Apart.first_iff (h : Apart cfg files) :
    (rawFindings cfg files).find? (fun g => g.location == f.location) = some f ↔
      ∃ a ∈ files, (analyzeFile cfg a).find? (fun g => g.location == f.location) = some f := by
  unfold rawFindings
  rw [List.find?_flatMap]
  constructor
  · exact List.exists_of_findSome?_eq_some
  · rintro ⟨a, ha, hfirst⟩
    cases hfound : files.findSome? fun b =>
        (analyzeFile cfg b).find? fun g => g.location == f.location with
    | none =>
      have hnone := List.findSome?_eq_none_iff.mp hfound a ha
      rw [hfirst] at hnone
      exact absurd hnone (by simp)
    | some g =>
      -- a file with another finding at this place would have the same path
      obtain ⟨b, hb, hg⟩ := List.exists_of_findSome?_eq_some hfound
      have hlocation : g.location = f.location := by simpa using List.find?_some hg
      have hfile : g.file = f.file := congrArg (fun l : String × Nat × Nat => l.1) hlocation
      rw [file_of_mem_analyzeFile (List.mem_of_find?_eq_some hg),
        file_of_mem_analyzeFile (List.mem_of_find?_eq_some hfirst)] at hfile
      have hab : b = a := h.eq_of_same hb ha (hfile ▸ Path.same_self _)
      rw [← hg, hab, hfirst]

/-- Findings that tie have one place. -/
theorem Apart.location_eq (h : Apart cfg files) (hf : f ∈ rawFindings cfg files)
    (hg : g ∈ rawFindings cfg files) (htie : f.compare g = .eq) : f.location = g.location := by
  obtain ⟨a, ha, hfa⟩ := mem_rawFindings.mp hf
  obtain ⟨b, hb, hgb⟩ := mem_rawFindings.mp hg
  obtain ⟨hsame, hline, hcolumn⟩ := Finding.compare_eq_iff.mp htie
  rw [file_of_mem_analyzeFile hfa, file_of_mem_analyzeFile hgb] at hsame
  have hab : a = b := h.eq_of_same ha hb hsame
  unfold Finding.location
  rw [file_of_mem_analyzeFile hfa, file_of_mem_analyzeFile hgb, hab, hline, hcolumn]

theorem Apart.pairwise_lt (h : Apart cfg files) :
    (analyzeFiles cfg files).Pairwise fun f g => f.compare g = .lt := by
  unfold analyzeFiles
  apply Finding.pairwise_lt_mergeSort
  refine (pairwise_firstOfEach (newFindings cfg files)).imp_of_mem fun hf hg hid htie => hid ?_
  have hraw : ∀ {f}, f ∈ firstOfEach (newFindings cfg files) → f ∈ rawFindings cfg files := by
    intro f hf
    have hmem := List.mem_of_find?_eq_some (mem_firstOfEach.mp hf)
    exact (List.mem_filter.mp hmem).1
  exact (h.id_eq_iff (hraw hf) (hraw hg)).mpr (h.location_eq (hraw hf) (hraw hg) htie)

theorem Apart.isNew_iff (h : Apart cfg files) (ha : a ∈ files) (hf : f ∈ analyzeFile cfg a) :
    isNew cfg files f = true ↔ isKnown cfg f = false ∧
      ¬ (cfg.suppressMarker.isSome = true ∧ f.line ∈ a.suppressed) := by
  unfold isNew
  rw [Bool.and_eq_true, Bool.not_eq_true', Bool.not_eq_true', ← Bool.not_eq_true (isSilenced _ _ _),
    h.isSilenced_iff ha hf]

/-- What is reported of each file does not depend on the others. -/
theorem Apart.mem_analyzeFiles_iff (h : Apart cfg files) : f ∈ analyzeFiles cfg files ↔
    ∃ a ∈ files, (analyzeFile cfg a).find? (fun g => g.location == f.location) = some f ∧
      isKnown cfg f = false ∧ ¬ (cfg.suppressMarker.isSome = true ∧ f.line ∈ a.suppressed) := by
  rw [h.mem_analyzeFiles, h.first_iff]
  constructor
  · rintro ⟨hnew, a, ha, hfirst⟩
    exact ⟨a, ha, hfirst, (h.isNew_iff ha (List.mem_of_find?_eq_some hfirst)).mp hnew⟩
  · rintro ⟨a, ha, hfirst, hnew⟩
    exact ⟨(h.isNew_iff ha (List.mem_of_find?_eq_some hfirst)).mpr hnew, a, ha, hfirst⟩

theorem Apart.exists_location_iff (h : Apart cfg files) (place : String × Nat × Nat) :
    (∃ f ∈ analyzeFiles cfg files, f.location = place) ↔
      ∃ a ∈ files, ∃ g ∈ analyzeFile cfg a, g.location = place ∧ isKnown cfg g = false ∧
        ¬ (cfg.suppressMarker.isSome = true ∧ g.line ∈ a.suppressed) := by
  constructor
  · rintro ⟨f, hf, rfl⟩
    obtain ⟨a, ha, hfirst, hnew⟩ := h.mem_analyzeFiles_iff.mp hf
    exact ⟨a, ha, f, List.mem_of_find?_eq_some hfirst, rfl, hnew⟩
  · rintro ⟨a, ha, g, hg, rfl, hnew⟩
    have hraw : g ∈ rawFindings cfg files := mem_rawFindings.mpr ⟨a, ha, hg⟩
    have hsome : ((rawFindings cfg files).find? fun k => k.location == g.location).isSome := by
      rw [List.find?_isSome]
      exact ⟨g, hraw, beq_self_eq_true _⟩
    obtain ⟨f, hfirst⟩ := Option.isSome_iff_exists.mp hsome
    have hlocation : f.location = g.location := by simpa using List.find?_some hfirst
    refine ⟨f, h.mem_analyzeFiles.mpr ⟨?_, ?_⟩, hlocation⟩
    · rw [h.isNew_congr (List.mem_of_find?_eq_some hfirst) hraw hlocation]
      exact (h.isNew_iff ha hg).mpr hnew
    · rw [hlocation]
      exact hfirst

/-- Lists in strict order with the same findings are the same. -/
theorem eq_of_pairwise_lt {fs gs : List Finding} (hf : fs.Pairwise fun f g => f.compare g = .lt)
    (hg : gs.Pairwise fun f g => f.compare g = .lt) (hmem : ∀ f, f ∈ fs ↔ f ∈ gs) : fs = gs := by
  refine eq_of_pairwise_asymm (fun f g hfg hgf => ?_) hf hg hmem
  rw [Std.OrientedCmp.gt_of_lt hfg] at hgf
  exact absurd hgf (by decide)

theorem Apart.analyzeFiles_perm (h : Apart cfg files) (hperm : files.Perm files') :
    analyzeFiles cfg files' = analyzeFiles cfg files := by
  have h' := h.perm hperm
  refine eq_of_pairwise_lt h'.pairwise_lt h.pairwise_lt fun f => ?_
  rw [h'.mem_analyzeFiles_iff, h.mem_analyzeFiles_iff]
  simp only [hperm.mem_iff]

end

/-- The findings of several files stand in strict order of their places; the places are those of
the findings in each file that are not known and that no comment of the file silences; each
finding is the first one at its place; and the order of the files does not matter. -/
theorem each_new_place_is_reported_once_and_in_order (cfg : Settings) (files : List FileFacts)
    (h : Apart cfg files) :
    (analyzeFiles cfg files).Pairwise (fun f g => f.compare g = .lt) ∧
      (∀ place, (∃ f ∈ analyzeFiles cfg files, f.location = place) ↔
        ∃ a ∈ files, ∃ g ∈ analyzeFile cfg a, g.location = place ∧ isKnown cfg g = false ∧
          ¬ (cfg.suppressMarker.isSome = true ∧ g.line ∈ a.suppressed)) ∧
      (∀ f ∈ analyzeFiles cfg files,
        (rawFindings cfg files).find? (fun g => g.location == f.location) = some f) ∧
      ∀ files', files.Perm files' → analyzeFiles cfg files' = analyzeFiles cfg files := by
  refine ⟨h.pairwise_lt, h.exists_location_iff, fun f hf => (h.mem_analyzeFiles.mp hf).2, ?_⟩
  exact fun files' hperm => h.analyzeFiles_perm hperm

/-! ## Two files -/

theorem noCollision_of_nodup {texts : List String} (h : (texts.map Blake3.digestText).Nodup) :
    NoCollision texts := fun _ hs _ ht hst => List.inj_on_of_nodup_map h hs ht hst

/-- A call that evaluates what a request holds. -/
def evaluation (path : String) : CallSite :=
  let etree : Expr := .name "etree" ⟨"etree", 66, ⟨path, 4, 1⟩⟩
  let request : Expr := .name "request" ⟨"request", 78, ⟨path, 4, 13⟩⟩
  { id := 1, callee := some "lxml.etree.XPath", scope := moduleScope, block := [], pos := 66
    func := .member etree "XPath" ⟨"etree.XPath", 66, ⟨path, 4, 1⟩⟩
    args := [⟨none, .none, .member request "args" ⟨"request.args", 78, ⟨path, 4, 13⟩⟩⟩]
    place := ⟨path, 4, 1⟩, text := "etree.XPath(request.args)" }

/-- Two files with such a call; a comment silences that of the first. -/
def evaluations : List FileFacts :=
  [{ FileFacts.empty "b.py" "python" with calls := [evaluation "b.py"], suppressed := [4, 5] },
   { FileFacts.empty "a.py" "python" with calls := [evaluation "a.py"] }]

theorem each_new_place_is_reported_once_and_in_order_of_two_files :
    Apart .default evaluations ∧
      (∃ f ∈ analyzeFiles .default evaluations, f.location = ("a.py", 4, 13)) ∧
      (¬ ∃ f ∈ analyzeFiles .default evaluations, f.location = ("b.py", 4, 13)) ∧
      analyzeFiles .default evaluations.reverse = analyzeFiles .default evaluations := by
  have h : Apart .default evaluations :=
    { paths := by decide +kernel
      resolved := by decide +kernel
      digests := noCollision_of_nodup (by decide +kernel) }
  obtain ⟨_, hplaces, _, hperm⟩ :=
    each_new_place_is_reported_once_and_in_order .default evaluations h
  refine ⟨h, (hplaces _).mpr ?_, fun hsilenced => ?_, hperm _ (List.reverse_perm _).symm⟩
  · decide +kernel
  · exact absurd ((hplaces _).mp hsilenced) (by decide +kernel)

end XPathTaint
