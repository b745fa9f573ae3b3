import XPathTaint.Proofs.GlobMeaning

-- How many slashes there are in the paths that a glob matches. A single star takes none and a
-- character takes itself, so without pairs of stars a path has the slashes of the glob; but a
-- question mark takes any character, a slash too, and each one may add a slash to the path.

namespace XPathTaint

/-- A glob in which no two stars stand together. -/
def HasNoStarPair (glob : List Char) : Prop := ¬ ['*', '*'] <:+: glob

instance (glob : List Char) : Decidable (HasNoStarPair glob) := inferInstanceAs (Decidable (¬ _))

section

variable {c : Char} {glob text : List Char}

theorem HasNoStarPair.tail (h : HasNoStarPair (c :: glob)) : HasNoStarPair glob :=
  fun hpair => h (hpair.trans (List.suffix_cons c glob).isInfix)

/-- A text that a glob means has the slashes of the glob, and at most one more for each question
mark. -/
theorem GlobMeans.slashes (hstars : HasNoStarPair glob) (h : GlobMeans glob text) :
    glob.count '/' ≤ text.count '/' ∧
      text.count '/' ≤ glob.count '/' + glob.count '?' := by
  fun_induction GlobMeans glob text with
  | case1 text =>
    obtain rfl : text = [] := h
    simp
  | case2 rest text => exact absurd (List.prefix_append ['*', '*'] rest).isInfix hstars
  | case3 rest text _ ih =>
    obtain ⟨part, after, rfl, hpart, hafter⟩ := h
    have hrest := ih after hstars.tail hafter
    rw [List.count_append, List.count_eq_zero.mpr hpart]
    simpa using hrest
  | case4 rest text ih =>
    obtain ⟨c, after, rfl, _, hafter⟩ := h
    have hrest := ih after hstars.tail hafter
    have htaken : (if c == '/' then 1 else 0) ≤ 1 := by split <;> decide
    rw [List.count_cons_self, List.count_cons_of_ne (by decide), List.count_cons]
    omega
  | case5 d rest text _ hstar hquestion ih =>
    obtain ⟨after, rfl, hafter⟩ := h
    have hrest := ih after hstars.tail hafter
    have hmark : (d == '?') = false := by simpa using hquestion
    simp only [List.count_cons, hmark]
    omega

/-- Each question mark may add a slash, or not. -/
theorem exists_globMeans_slashes (hstars : HasNoStarPair glob) {more : Nat}
    (hmore : more ≤ glob.count '?') :
    ∃ text, GlobMeans glob text ∧ text.count '/' = glob.count '/' + more := by
  fun_induction Pattern.ofGlobChars glob generalizing more with
  | case1 =>
    obtain rfl : more = 0 := by simpa using hmore
    exact ⟨[], rfl, rfl⟩
  | case2 rest => exact absurd (List.prefix_append ['*', '*'] rest).isInfix hstars
  | case3 rest hsingle ih =>
    obtain ⟨text, hmeans, hcount⟩ := ih hstars.tail (by simpa using hmore)
    refine ⟨text, ?_, by simpa using hcount⟩
    rw [GlobMeans]
    · exact ⟨[], text, rfl, by simp, hmeans⟩
    · exact hsingle
  | case4 rest ih =>
    -- The first question mark takes a slash if any slash is to be added.
    cases more with
    | zero =>
      obtain ⟨text, hmeans, hcount⟩ := ih hstars.tail (Nat.zero_le _)
      exact ⟨'x' :: text, ⟨'x', text, rfl, by decide, hmeans⟩, by simpa using hcount⟩
    | succ more =>
      have hless : more ≤ rest.count '?' := by simpa using hmore
      obtain ⟨text, hmeans, hcount⟩ := ih hstars.tail hless
      refine ⟨'/' :: text, ⟨'/', text, rfl, by decide, hmeans⟩, ?_⟩
      simp
      omega
  | case5 d rest hpair hstar hquestion ih =>
    have hmark : (d == '?') = false := by simpa using hquestion
    obtain ⟨text, hmeans, hcount⟩ := ih hstars.tail (by simpa [hmark, List.count_cons] using hmore)
    refine ⟨d :: text, ?_, ?_⟩
    · rw [GlobMeans]
      · exact ⟨text, rfl, hmeans⟩
      · exact hpair
      · exact hstar
      · exact hquestion
    · simp only [List.count_cons]
      omega

end

/-- A path that a glob without pairs of stars matches has at least the slashes of the glob and at
most one more for each question mark, and each number between is that of some such path. So the
paths have just the slashes of the glob if and only if no question mark is in it. -/
theorem question_marks_alone_add_slashes {glob : String} {p : Pattern}
    (hglob : Pattern.ofGlob? glob = some p) (hstars : HasNoStarPair glob.toList) :
    (∀ path, p.matches? path = true →
        glob.toList.count '/' ≤ path.toList.count '/' ∧
          path.toList.count '/' ≤ glob.toList.count '/' + glob.toList.count '?') ∧
      (∀ more ≤ glob.toList.count '?', ∃ path, p.matches? path = true ∧
        path.toList.count '/' = glob.toList.count '/' + more) ∧
      ((∀ path, p.matches? path = true → path.toList.count '/' = glob.toList.count '/') ↔
        '?' ∉ glob.toList) := by
  have hp : p = Pattern.ofGlobChars glob.toList := by
    unfold Pattern.ofGlob? at hglob
    dsimp only at hglob
    split at hglob
    · cases hglob
    · exact (Option.some.inj hglob).symm
  have hmeans : ∀ path : String, p.matches? path = true ↔
      GlobMeans glob.toList path.toList := fun path => by
    rw [Pattern.matches?_iff, hp, matches_ofGlobChars_iff]
  have hrange : ∀ path, p.matches? path = true →
      glob.toList.count '/' ≤ path.toList.count '/' ∧
        path.toList.count '/' ≤ glob.toList.count '/' + glob.toList.count '?' :=
    fun path hpath => GlobMeans.slashes hstars ((hmeans path).mp hpath)
  have hreached : ∀ more ≤ glob.toList.count '?', ∃ path, p.matches? path = true ∧
      path.toList.count '/' = glob.toList.count '/' + more := by
    intro more hmore
    obtain ⟨text, htext, hcount⟩ := exists_globMeans_slashes hstars hmore
    exact ⟨String.ofList text, (hmeans _).mpr (by simpa using htext), by simpa using hcount⟩
  refine ⟨hrange, hreached, ?_⟩
  constructor
  · intro hsame hmark
    obtain ⟨path, hpath, hcount⟩ := hreached 1 (List.count_pos_iff.mpr hmark)
    have hequal := hsame path hpath
    omega
  · intro hmark path hpath
    have hnone : glob.toList.count '?' = 0 := List.count_eq_zero.mpr hmark
    obtain ⟨hleast, hmost⟩ := hrange path hpath
    omega

theorem question_marks_alone_add_slashes_of_a_source :
    (∃ p, Pattern.ofGlob? "app/*.p?" = some p) ∧ HasNoStarPair "app/*.p?".toList ∧
      ∃ p path, Pattern.ofGlob? "app/*.p?" = some p ∧ p.matches? path = true ∧
        path.toList.count '/' = 2 := by
  have hglob : Pattern.ofGlob? "app/*.p?" = some (Pattern.ofGlobChars "app/*.p?".toList) := by
    decide +kernel
  have hstars : HasNoStarPair "app/*.p?".toList := by decide +kernel
  obtain ⟨_, hreached, _⟩ := question_marks_alone_add_slashes hglob hstars
  obtain ⟨path, hpath, hcount⟩ := hreached 1 (by decide +kernel)
  exact ⟨⟨_, hglob⟩, hstars, _, path, hglob, hpath, hcount⟩

/-- A question mark takes the slash between a directory and what lies in it. -/
theorem a_question_mark_crosses_into_a_directory :
    ¬ ∀ glob p path, Pattern.ofGlob? glob = some p → HasNoStarPair glob.toList →
      p.matches? path = true → path.toList.count '/' = glob.toList.count '/' := by
  intro hall
  exact absurd (hall "a?b" [.char 'a', .one, .char 'b'] "a/b" (by decide +kernel)
    (by decide +kernel) (by decide +kernel)) (by decide +kernel)

end XPathTaint
