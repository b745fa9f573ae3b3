import Mathlib.Tactic.Common
import XPathTaint.Proofs.PatternMatches

-- What globs mean, and that the regular expression written for a glob means the same: each
-- character that is no wildcard stands for itself alone, escaped where it needs to be. Regular
-- expressions are read as far as sequences of classes and stars between the ends of a text go. What
-- compiles them and runs them on texts is a parameter.

namespace XPathTaint

/-! ## Regular expressions -/

/-- The characters that may stand in one place of a text: those listed, or all others. -/
structure CharClass where
  negated : Bool
  chars : List Char
  deriving Repr, DecidableEq

def CharClass.has (k : CharClass) (c : Char) : Bool := k.chars.contains c != k.negated

/-- A part of a regular expression. -/
inductive RegexPart where
  /-- `^`, the start of the text. -/
  | start
  /-- `$`, the end of the text. -/
  | stop
  | one (k : CharClass)
  /-- Any number of characters of a class. -/
  | many (k : CharClass)
  deriving Repr, DecidableEq

/-- A regular expression without alternatives and groups. -/
abbrev Regex := List RegexPart

/-- Whether a part takes a piece of a text, given what stands before and behind the piece. -/
def RegexPart.takes (before piece after : List Char) : RegexPart → Bool
  | start => before.isEmpty && piece.isEmpty
  | stop => piece.isEmpty && after.isEmpty
  | one k => match piece with
    | [c] => k.has c
    | _ => false
  | many k => piece.all k.has

namespace Regex

/-! ### Matching -/

/-- The parts take pieces of a text one behind the other, from a place on that `before` stands
before. -/
def MatchesFrom (before : List Char) : Regex → List Char → Prop
  | [], _ => True
  | part :: r, text => ∃ n, n ≤ text.length ∧
      part.takes before (text.take n) (text.drop n) = true ∧
      MatchesFrom (before ++ text.take n) r (text.drop n)

/-- A regular expression matches somewhere in a text. -/
def IsFoundIn (r : Regex) (text : List Char) : Prop :=
  ∃ n, n ≤ text.length ∧ MatchesFrom (text.take n) r (text.drop n)

instance decidableMatchesFrom : (before : List Char) → (r : Regex) → (text : List Char) →
    Decidable (MatchesFrom before r text)
  | _, [], _ => inferInstanceAs (Decidable True)
  | before, part :: r, text =>
    have (n : Nat) := decidableMatchesFrom (before ++ text.take n) r (text.drop n)
    inferInstanceAs (Decidable (∃ n, n ≤ text.length ∧
      part.takes before (text.take n) (text.drop n) = true ∧
      MatchesFrom (before ++ text.take n) r (text.drop n)))

instance (r : Regex) (text : List Char) : Decidable (r.IsFoundIn text) :=
  inferInstanceAs (Decidable (∃ n, n ≤ text.length ∧ MatchesFrom (text.take n) r (text.drop n)))

/-! ### Reading -/

/-- The characters that stand for themselves only behind a backslash. -/
def operators : List Char :=
  ['\\', '.', '+', '*', '?', '(', ')', '|', '[', ']', '\x7b', '\x7d', '^', '$']

/-- The characters that have a meaning of their own between brackets. -/
def classOperators : List Char := ['-', '&', '~']

/-- Any character but a line feed. -/
def anyChar : CharClass := ⟨true, ['\n']⟩

/-- A sign of a regular expression: a part that is no repetition, or a star. -/
inductive Sign where
  | start
  | stop
  | star
  | chars (k : CharClass)
  deriving Repr, DecidableEq

/-- The signs of a regular expression, if it has no others than these. -/
def signs? : List Char → Option (List Sign)
  | [] => some []
  | '^' :: rest => (signs? rest).map (.start :: ·)
  | '$' :: rest => (signs? rest).map (.stop :: ·)
  | '*' :: rest => (signs? rest).map (.star :: ·)
  | '.' :: rest => (signs? rest).map (.chars anyChar :: ·)
  | '\\' :: c :: rest =>
    if operators.contains c then (signs? rest).map (.chars ⟨false, [c]⟩ :: ·) else none
  | '[' :: '^' :: c :: ']' :: rest =>
    if operators.contains c || classOperators.contains c then none
    else (signs? rest).map (.chars ⟨true, [c]⟩ :: ·)
  | c :: rest =>
    if operators.contains c then none else (signs? rest).map (.chars ⟨false, [c]⟩ :: ·)

/-- The parts that signs make up; a star belongs to the class before it. -/
def ofSigns? : List Sign → Option Regex
  | [] => some []
  | .chars k :: .star :: rest => (ofSigns? rest).map (.many k :: ·)
  | .chars k :: rest => (ofSigns? rest).map (.one k :: ·)
  | .start :: rest => (ofSigns? rest).map (.start :: ·)
  | .stop :: rest => (ofSigns? rest).map (.stop :: ·)
  | .star :: _ => none

def read? (text : String) : Option Regex := (signs? text.toList).bind ofSigns?

end Regex

/-- What compiles regular expressions and runs them on texts. -/
structure RegexLibrary where
  Compiled : Type
  compile : String → Option Compiled
  isMatch : Compiled → String → Bool

/-- What is documented of the library: regular expressions of any size that are read here compile
and are searched for in texts, and a bracket has to be closed. -/
structure RegexLibrary.IsDocumented (lib : RegexLibrary) : Prop where
  compiles : ∀ text r, Regex.read? text = some r → ∃ compiled, lib.compile text = some compiled ∧
    ∀ subject, lib.isMatch compiled subject = true ↔ r.IsFoundIn subject.toList
  unclosed : ∀ text, ']' ∉ text.toList → lib.compile ("[" ++ text) = none

/-! ## Patterns -/

/-- The part of a regular expression that a step is. -/
def PatternStep.part : PatternStep → RegexPart
  | char c => .one ⟨false, [c]⟩
  | one => .one Regex.anyChar
  | run => .many Regex.anyChar
  | segmentRun => .many ⟨true, ['/']⟩

/-- The signs that a step is written with. -/
def PatternStep.signs : PatternStep → List Regex.Sign
  | char c => [.chars ⟨false, [c]⟩]
  | one => [.chars Regex.anyChar]
  | run => [.chars Regex.anyChar, .star]
  | segmentRun => [.chars ⟨true, ['/']⟩, .star]

/-- The characters that globs give a meaning, and brackets. -/
def globMarks : List Char := ['*', '?', '[', ']']

/-- No step stands for a character that means something in a glob. -/
def Pattern.IsPlain (p : Pattern) : Prop := ∀ c, .char c ∈ p → c ∉ globMarks

section

variable {s : PatternStep} {p : Pattern} {before piece after text : List Char}
  {rest : List Regex.Sign}

theorem has_char (c d : Char) : CharClass.has ⟨false, [c]⟩ d = (d == c) := by
  rw [CharClass.has, List.contains_cons, List.contains_nil, Bool.or_false, Bool.bne_false]

theorem has_other (c d : Char) : CharClass.has ⟨true, [c]⟩ d = (d != c) := by
  rw [CharClass.has, List.contains_cons, List.contains_nil, Bool.or_false, Bool.bne_true, bne]

theorem takes_one {k : CharClass} : (RegexPart.one k).takes before piece after = true ↔
    ∃ c, piece = [c] ∧ k.has c = true := by
  constructor
  · intro h
    match piece, h with
    | [c], h => exact ⟨c, rfl, h⟩
  · rintro ⟨c, rfl, h⟩
    exact h

theorem takes_many {k : CharClass} : (RegexPart.many k).takes before piece after = true ↔
    ∀ c ∈ piece, k.has c = true :=
  List.all_eq_true

theorem PatternStep.takes_single (hs : s.repeats = false) :
    s.Takes piece ↔ ∃ c, piece = [c] ∧ s.accepts c = true := by
  constructor
  · intro h
    obtain ⟨c, rfl⟩ := List.length_eq_one_iff.mp (h.single hs)
    exact ⟨c, rfl, h.accepted c List.mem_cons_self⟩
  · rintro ⟨c, rfl, hc⟩
    exact ⟨List.forall_mem_singleton.mpr hc, fun _ => rfl⟩

theorem PatternStep.takes_repeated (hs : s.repeats = true) :
    s.Takes piece ↔ ∀ c ∈ piece, s.accepts c = true :=
  ⟨Takes.accepted, fun h => ⟨h, fun hsingle => Bool.noConfusion (hs.symm.trans hsingle)⟩⟩

/-- The part of a regular expression that a step is takes the same pieces of a text. -/
theorem takes_part : s.part.takes before piece after = true ↔ s.Takes piece := by
  cases s with
  | char c =>
    rw [PatternStep.part, takes_one, PatternStep.takes_single rfl]
    simp only [has_char, PatternStep.accepts]
  | one =>
    rw [PatternStep.part, takes_one, PatternStep.takes_single rfl]
    simp only [Regex.anyChar, has_other, PatternStep.accepts]
  | run =>
    rw [PatternStep.part, takes_many, PatternStep.takes_repeated rfl]
    simp only [Regex.anyChar, has_other, PatternStep.accepts]
  | segmentRun =>
    rw [PatternStep.part, takes_many, PatternStep.takes_repeated rfl]
    simp only [has_other, PatternStep.accepts]

/-- A place in a text divides it in two parts. -/
theorem exists_take_drop (P : List Char → List Char → Prop) :
    (∃ n, n ≤ text.length ∧ P (text.take n) (text.drop n)) ↔
      ∃ piece after, text = piece ++ after ∧ P piece after := by
  constructor
  · rintro ⟨n, _, h⟩
    exact ⟨text.take n, text.drop n, (List.take_append_drop n text).symm, h⟩
  · rintro ⟨piece, after, rfl, h⟩
    exact ⟨piece.length, by simp, by simpa using h⟩

/-- The parts of a pattern, up to the end of a text, match what the pattern does. -/
theorem matchesFrom_parts :
    Regex.MatchesFrom before (p.map PatternStep.part ++ [.stop]) text ↔ p.Matches text := by
  induction p generalizing before text with
  | nil =>
    rw [Pattern.matches_nil]
    constructor
    · rintro ⟨n, _, h, _⟩
      have hends : text.take n = [] ∧ text.drop n = [] := by simpa [RegexPart.takes] using h
      rw [← List.take_append_drop n text, hends.1, hends.2, List.append_nil]
    · rintro rfl
      exact ⟨0, Nat.le_refl 0, rfl, trivial⟩
  | cons s p ih =>
    refine (exists_take_drop fun piece after => s.part.takes before piece after = true ∧
      Regex.MatchesFrom (before ++ piece) (p.map PatternStep.part ++ [.stop]) after).trans ?_
    simp only [takes_part, ih]
    exact Iff.rfl

theorem isFoundIn_parts :
    Regex.IsFoundIn (.start :: (p.map PatternStep.part ++ [.stop])) text ↔ p.Matches text := by
  constructor
  · rintro ⟨n, _, m, _, hstart, h⟩
    have hnone : text.take n = [] ∧ (text.drop n).take m = [] := by
      simpa [RegexPart.takes] using hstart
    have htext : (text.drop n).drop m = text := by
      rw [← List.nil_append ((text.drop n).drop m), ← hnone.2, List.take_append_drop,
        ← List.nil_append (text.drop n), ← hnone.1, List.take_append_drop]
    rw [htext] at h
    exact matchesFrom_parts.mp h
  · intro h
    exact ⟨0, Nat.zero_le _, 0, Nat.zero_le _, rfl, matchesFrom_parts.mpr h⟩

/-! ## The text of a pattern -/

/-- A character without meaning stands for itself. -/
theorem signs?_plain {c : Char} (hc : c ∉ Regex.operators) (rest : List Char) :
    Regex.signs? (c :: rest) = (Regex.signs? rest).map (.chars ⟨false, [c]⟩ :: ·) := by
  have hplain : Regex.operators.contains c = false := by simpa using hc
  rw [Regex.signs?, hplain]
  · rfl
  all_goals
    intros
    subst_vars
    exact hc (by decide)

/-- A character behind a backslash stands for itself. -/
theorem signs?_escaped {c : Char} (hc : c ∈ Regex.operators) (rest : List Char) :
    Regex.signs? ('\\' :: c :: rest) = (Regex.signs? rest).map (.chars ⟨false, [c]⟩ :: ·) := by
  rw [Regex.signs?, if_pos (List.contains_iff_mem.mpr hc)]

theorem mem_operators_of_mem_regexMarks {c : Char} (hc : c ∈ regexMarks) :
    c ∈ Regex.operators := by
  have h : regexMarks.all (Regex.operators.contains ·) = true := rfl
  exact List.contains_iff_mem.mp (List.all_eq_true.mp h c hc)

/-- What is no wildcard and no bracket is escaped where it needs to be. -/
theorem mem_marks_of_mem_operators {c : Char} (hc : c ∈ Regex.operators) :
    c ∈ regexMarks ∨ c ∈ globMarks := by
  have h : Regex.operators.all (fun c => regexMarks.contains c || globMarks.contains c) = true :=
    rfl
  have hmarks := List.all_eq_true.mp h c hc
  rwa [Bool.or_eq_true, List.contains_iff_mem, List.contains_iff_mem] at hmarks

/-- Each step is written with its signs. -/
theorem signs?_step (hs : ∀ c, s = .char c → c ∉ globMarks) (rest : List Char) :
    Regex.signs? (s.written.toList ++ rest) = (Regex.signs? rest).map (s.signs ++ ·) := by
  cases s with
  | char c =>
    have hc := hs c rfl
    rw [PatternStep.written]
    split
    · rename_i hmark
      have hmem : c ∈ regexMarks := List.contains_iff_mem.mp hmark
      have hoperator : c ∈ Regex.operators := mem_operators_of_mem_regexMarks hmem
      have htext : ("\\" ++ c.toString).toList ++ rest = '\\' :: c :: rest := by simp
      rw [htext, signs?_escaped hoperator]
      rfl
    · rename_i hmark
      have hmem : c ∉ regexMarks := fun h => hmark (List.contains_iff_mem.mpr h)
      have hoperator : c ∉ Regex.operators := fun h => (mem_marks_of_mem_operators h).elim hmem hc
      have htext : c.toString.toList ++ rest = c :: rest := by simp
      rw [htext, signs?_plain hoperator]
      rfl
  | one => rfl
  | run =>
    show Regex.signs? ('.' :: '*' :: rest) = _
    rw [Regex.signs?, Regex.signs?, Option.map_map]
    rfl
  | segmentRun =>
    show Regex.signs? ('[' :: '^' :: '/' :: ']' :: '*' :: rest) = _
    rw [Regex.signs?, if_neg (by decide), Regex.signs?, Option.map_map]
    rfl

theorem signs?_steps (hp : p.IsPlain) (rest : List Char) :
    Regex.signs? ((String.join (p.map PatternStep.written)).toList ++ rest) =
      (Regex.signs? rest).map (p.flatMap PatternStep.signs ++ ·) := by
  induction p with
  | nil => simp
  | cons s p ih =>
    have hs : ∀ c, s = .char c → c ∉ globMarks := fun c hc => hp c (hc ▸ List.mem_cons_self)
    have hrest : Pattern.IsPlain p := fun c hc => hp c (List.mem_cons_of_mem s hc)
    rw [List.map_cons, String.join_cons, String.toList_append, List.append_assoc, signs?_step hs,
      ih hrest, Option.map_map, List.flatMap_cons]
    congr 1
    funext signs
    exact (List.append_assoc ..).symm

theorem ofSigns?_one {k : CharClass} (h : rest.head? ≠ some .star) :
    Regex.ofSigns? (.chars k :: rest) = (Regex.ofSigns? rest).map (.one k :: ·) := by
  cases rest with
  | nil => rfl
  | cons sign rest =>
    cases sign with
    | star => exact absurd rfl h
    | start => rfl
    | stop => rfl
    | chars k' => rw [Regex.ofSigns?]; exact nofun

/-- No step is written with a star at its front. -/
theorem head?_signs_ne_star (p : Pattern) :
    (p.flatMap PatternStep.signs ++ [Regex.Sign.stop]).head? ≠ some .star := by
  cases p with
  | nil => simp
  | cons s p => cases s <;> simp [PatternStep.signs]

theorem ofSigns?_steps (p : Pattern) :
    Regex.ofSigns? (p.flatMap PatternStep.signs ++ [.stop]) =
      some (p.map PatternStep.part ++ [.stop]) := by
  induction p with
  | nil => rfl
  | cons s p ih =>
    have hone : ∀ k, Regex.ofSigns? (.chars k :: (p.flatMap PatternStep.signs ++ [.stop])) =
        some (.one k :: (p.map PatternStep.part ++ [.stop])) := fun k => by
      rw [ofSigns?_one (head?_signs_ne_star p), ih, Option.map_some]
    have hmany : ∀ k,
        Regex.ofSigns? (.chars k :: .star :: (p.flatMap PatternStep.signs ++ [.stop])) =
          some (.many k :: (p.map PatternStep.part ++ [.stop])) := fun k => by
      rw [Regex.ofSigns?, ih, Option.map_some]
    cases s with
    | char c => exact hone _
    | one => exact hone _
    | run => exact hmany _
    | segmentRun => exact hmany _

/-- The regular expression of a pattern is read as its parts, between the ends of a text. -/
theorem read?_written (hp : p.IsPlain) :
    Regex.read? p.written = some (.start :: (p.map PatternStep.part ++ [.stop])) := by
  have htext : p.written.toList =
      '^' :: ((String.join (p.map PatternStep.written)).toList ++ ['$']) := by
    simp [Pattern.written]
  rw [Regex.read?, htext, Regex.signs?, signs?_steps hp]
  show Regex.ofSigns? (.start :: (p.flatMap PatternStep.signs ++ [.stop])) = _
  rw [Regex.ofSigns?, ofSigns?_steps, Option.map_some]

end

/-! ## Globs -/

/-- The texts that a glob means, read from its left: two stars stand for any text without line
feeds, any other star for a text without slashes, and a question mark for a character that is no
line feed. -/
def GlobMeans : List Char → List Char → Prop
  | [], text => text = []
  | '*' :: '*' :: rest, text =>
    ∃ part after, text = part ++ after ∧ '\n' ∉ part ∧ GlobMeans rest after
  | '*' :: rest, text =>
    ∃ part after, text = part ++ after ∧ '/' ∉ part ∧ GlobMeans rest after
  | '?' :: rest, text => ∃ c after, text = c :: after ∧ c ≠ '\n' ∧ GlobMeans rest after
  | c :: rest, text => ∃ after, text = c :: after ∧ GlobMeans rest after

/-- The regular expression that is written for a glob, or one that is refused. -/
def globRegex (glob : String) : String :=
  match Pattern.ofGlob? glob with
  | some p => p.written
  | none => "["

section

variable {s : PatternStep} {q : Pattern} {glob text : List Char} {c : Char}

theorem takes_segmentRun {part : List Char} : PatternStep.segmentRun.Takes part ↔ '/' ∉ part := by
  constructor
  · intro h hmem
    cases h.accepted _ hmem
  · intro h
    refine ⟨fun c hc => ?_, nofun⟩
    have hne : c ≠ '/' := fun heq => h (heq ▸ hc)
    simpa [PatternStep.accepts] using hne

theorem matches_segmentRun_iff : Pattern.Matches (.segmentRun :: q) text ↔
    ∃ part after, text = part ++ after ∧ '/' ∉ part ∧ q.Matches after := by
  simp only [Pattern.Matches, takes_segmentRun]

/-- A step for one character takes the first one. -/
theorem matches_single_iff (hs : s.repeats = false) : Pattern.Matches (s :: q) text ↔
    ∃ c after, text = c :: after ∧ s.accepts c = true ∧ q.Matches after := by
  cases text with
  | nil => simp [Pattern.matches_cons_nil, hs]
  | cons d text => simp [Pattern.matches_cons_cons, hs, and_assoc]

/-- A glob is read into characters of its own that are no wildcards. -/
theorem mem_of_char_mem_ofGlobChars (h : .char c ∈ Pattern.ofGlobChars glob) :
    c ∈ glob ∧ c ≠ '*' ∧ c ≠ '?' := by
  fun_induction Pattern.ofGlobChars glob with
  | case1 => cases h
  | case2 rest ih =>
    obtain ⟨hmem, hne⟩ := ih (by simpa using h)
    exact ⟨by simp [hmem], hne⟩
  | case3 rest hsingle ih =>
    obtain ⟨hmem, hne⟩ := ih (by simpa using h)
    exact ⟨by simp [hmem], hne⟩
  | case4 rest ih =>
    obtain ⟨hmem, hne⟩ := ih (by simpa using h)
    exact ⟨by simp [hmem], hne⟩
  | case5 d rest _ hstar hquestion ih =>
    rcases List.mem_cons.mp h with heq | h
    · obtain rfl := PatternStep.char.inj heq
      exact ⟨List.mem_cons_self, hstar, hquestion⟩
    · obtain ⟨hmem, hne⟩ := ih h
      exact ⟨List.mem_cons_of_mem d hmem, hne⟩

theorem isPlain_ofGlobChars (hopening : '[' ∉ glob) (hclosing : ']' ∉ glob) :
    (Pattern.ofGlobChars glob).IsPlain := by
  intro c hc hmark
  obtain ⟨hmem, hstar, hquestion⟩ := mem_of_char_mem_ofGlobChars hc
  have hbracket : c = '[' ∨ c = ']' := by simpa [globMarks, hstar, hquestion] using hmark
  rcases hbracket with rfl | rfl
  · exact hopening hmem
  · exact hclosing hmem

/-- The pattern of a glob matches what the glob means. -/
theorem matches_ofGlobChars_iff :
    (Pattern.ofGlobChars glob).Matches text ↔ GlobMeans glob text := by
  fun_induction Pattern.ofGlobChars glob generalizing text with
  | case1 => rfl
  | case2 rest ih => simp only [Pattern.matches_run_iff, GlobMeans, ih]
  | case3 rest hsingle ih =>
    rw [matches_segmentRun_iff, GlobMeans]
    · simp only [ih]
    · exact hsingle
  | case4 rest ih =>
    rw [matches_single_iff rfl, GlobMeans]
    simp only [ih, PatternStep.accepts, bne_iff_ne]
  | case5 d rest hpair hstar hquestion ih =>
    rw [matches_single_iff rfl, GlobMeans]
    · simp [ih, PatternStep.accepts]
    · exact hpair
    · exact hstar
    · exact hquestion

theorem ofGlob?_eq_none_iff {glob : String} :
    Pattern.ofGlob? glob = none ↔ '[' ∈ glob.toList ∨ ']' ∈ glob.toList := by
  simp [Pattern.ofGlob?, or_iff_not_imp_left]

end

/-- A glob without brackets compiles, and both its regular expression and its pattern match exactly
the texts that the glob means. A glob with a bracket is refused. -/
theorem a_glob_matches_what_it_means (lib : RegexLibrary) (hlib : lib.IsDocumented)
    (glob : String) :
    ('[' ∈ glob.toList ∨ ']' ∈ glob.toList →
        Pattern.ofGlob? glob = none ∧ lib.compile (globRegex glob) = none) ∧
      ('[' ∉ glob.toList → ']' ∉ glob.toList →
        ∃ p compiled, Pattern.ofGlob? glob = some p ∧
          lib.compile (globRegex glob) = some compiled ∧
          ∀ text, (lib.isMatch compiled text = true ↔ GlobMeans glob.toList text.toList) ∧
            (p.matches? text = true ↔ GlobMeans glob.toList text.toList)) := by
  constructor
  · intro hbracket
    have hnone := ofGlob?_eq_none_iff.mpr hbracket
    refine ⟨hnone, ?_⟩
    rw [globRegex, hnone]
    exact hlib.unclosed "" (by simp)
  · intro hopening hclosing
    have hsome : Pattern.ofGlob? glob = some (Pattern.ofGlobChars glob.toList) := by
      simp [Pattern.ofGlob?, hopening, hclosing]
    obtain ⟨compiled, hcompiled, hfound⟩ :=
      hlib.compiles _ _ (read?_written (isPlain_ofGlobChars hopening hclosing))
    refine ⟨_, compiled, hsome, by rw [globRegex, hsome, hcompiled], fun text => ⟨?_, ?_⟩⟩
    · rw [hfound, isFoundIn_parts, matches_ofGlobChars_iff]
    · rw [Pattern.matches?_iff, matches_ofGlobChars_iff]

/-! ### A library -/

/-- The library that compiles just the regular expressions that are read here. -/
def sequenceLibrary : RegexLibrary :=
  { Compiled := Regex, compile := Regex.read?, isMatch := fun r text => r.IsFoundIn text.toList }

theorem signs?_unclosed {rest : List Char} (h : ']' ∉ rest) :
    Regex.signs? ('[' :: rest) = none := by
  rw [Regex.signs?, if_pos (by decide)]
  case x_6 =>
    rintro c rest' - rfl
    simp at h
  all_goals simp

theorem isDocumented_sequenceLibrary : sequenceLibrary.IsDocumented := by
  constructor
  · intro text r hread
    exact ⟨r, hread, fun subject => decide_eq_true_iff⟩
  · intro text hclosing
    have htext : ("[" ++ text).toList = '[' :: text.toList := by simp
    show Regex.read? ("[" ++ text) = none
    rw [Regex.read?, htext, signs?_unclosed hclosing, Option.bind_none]

theorem a_glob_matches_what_it_means_of_a_plus_sign :
    sequenceLibrary.IsDocumented ∧ '[' ∉ "**/a+b?.py".toList ∧ ']' ∉ "**/a+b?.py".toList ∧
      ∃ compiled, sequenceLibrary.compile "^.*/a\\+b.\\.py$" = some compiled ∧
        sequenceLibrary.isMatch compiled "x/y/a+bc.py" = true ∧
        ¬ sequenceLibrary.isMatch compiled "x/y/aabc.py" = true := by
  have hopening : '[' ∉ "**/a+b?.py".toList := by decide
  have hclosing : ']' ∉ "**/a+b?.py".toList := by decide
  obtain ⟨_, haccepted⟩ :=
    a_glob_matches_what_it_means sequenceLibrary isDocumented_sequenceLibrary "**/a+b?.py"
  obtain ⟨p, compiled, hp, hcompiled, hmeans⟩ := haccepted hopening hclosing
  have hpattern : p = Pattern.ofGlobChars "**/a+b?.py".toList := by
    simpa [Pattern.ofGlob?] using hp.symm
  have hmatches : ∀ text, sequenceLibrary.isMatch compiled text = true ↔
      (Pattern.ofGlobChars "**/a+b?.py".toList).matches? text = true := fun text => by
    rw [(hmeans text).1, ← (hmeans text).2, hpattern]
  refine ⟨isDocumented_sequenceLibrary, hopening, hclosing, compiled, ?_, ?_, ?_⟩
  · rw [← hcompiled]
    exact congrArg sequenceLibrary.compile (by decide +kernel)
  · exact (hmatches _).mpr (by decide +kernel)
  · exact fun h => absurd ((hmatches _).mp h) (by decide +kernel)

end XPathTaint
