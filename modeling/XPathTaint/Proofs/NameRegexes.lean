import Mathlib.Computability.RegularExpressions
import XPathTaint.Proofs.DottedPaths
import XPathTaint.Proofs.GlobMeaning
import XPathTaint.Registry.Catalog

-- Names and paths of names, and that the regular expressions which the check of catalogs is written
-- with mean them. Those have groups, unlike the ones of globs: they are read as regular expressions
-- of Mathlib, and what compiles them and runs them on texts is a parameter again.

namespace XPathTaint

/-! ## Reading -/

namespace GroupedRegex

/-- A sign of a regular expression: a bracket of a group, a star, or characters of which one stands
in the place. -/
inductive Sign where
  | opening
  | closing
  | star
  | chars (cs : List Char)
  deriving Repr, DecidableEq

/-- The ASCII characters from one to another. -/
def charsFrom (first last : Char) : List Char :=
  ((List.range 128).map Char.ofNat).filter fun c => decide (first ≤ c) && decide (c ≤ last)

/-- Whether a character stands for itself between brackets. -/
def isPlainInClass (c : Char) : Bool :=
  decide (c.toNat < 128) && !Regex.operators.contains c && !Regex.classOperators.contains c

/-- The signs of a regular expression, if it has no others than these. Between brackets, `inside`
holds the characters that have been listed. -/
def signs? : (inside : Option (List Char)) → List Char → Option (List Sign)
  | none, [] => some []
  | none, '(' :: rest => (signs? none rest).map (.opening :: ·)
  | none, ')' :: rest => (signs? none rest).map (.closing :: ·)
  | none, '*' :: rest => (signs? none rest).map (.star :: ·)
  | none, '[' :: rest => signs? (some []) rest
  | none, '\\' :: c :: rest =>
    if Regex.operators.contains c then (signs? none rest).map (.chars [c] :: ·) else none
  | none, c :: rest =>
    if Regex.operators.contains c then none else (signs? none rest).map (.chars [c] :: ·)
  | some _, [] => none
  | some cs, ']' :: rest => if cs.isEmpty then none else (signs? none rest).map (.chars cs :: ·)
  | some cs, first :: '-' :: last :: rest =>
    if isPlainInClass first && isPlainInClass last && decide (first ≤ last) then
      signs? (some (cs ++ charsFrom first last)) rest
    else none
  | some cs, c :: rest => if isPlainInClass c then signs? (some (cs ++ [c])) rest else none

/-- One character of several. -/
def oneOf (cs : List Char) : RegularExpression Char := (cs.map .char).sum

/-- The regular expression that signs make up. Its last parts come first in `parts`, and those
around the groups that are still open in `outer`. -/
def ofSigns? (outer : List (List (RegularExpression Char))) (parts : List (RegularExpression Char)) :
    List Sign → Option (RegularExpression Char)
  | [] => if outer.isEmpty then some parts.reverse.prod else none
  | .opening :: rest => ofSigns? (parts :: outer) [] rest
  | .closing :: rest =>
    match outer with
    | around :: outer => ofSigns? outer (parts.reverse.prod :: around) rest
    | [] => none
  | .star :: rest =>
    match parts with
    | last :: parts => ofSigns? outer (last.star :: parts) rest
    | [] => none
  | .chars cs :: rest => ofSigns? outer (oneOf cs :: parts) rest

/-- Reads a regular expression that stands between the ends of a text. -/
def read? (text : String) : Option (RegularExpression Char) :=
  match text.toList with
  | '^' :: rest =>
    if rest.getLast? = some '$' then (signs? none rest.dropLast).bind (ofSigns? [] []) else none
  | _ => none

end GroupedRegex

/-- What is documented of the library: regular expressions that are read here compile, unless they
are long, and match just the texts that are as a whole of the form described. -/
def RegexLibrary.CompilesGroups (lib : RegexLibrary) : Prop :=
  ∀ text r, text.length ≤ 100 → GroupedRegex.read? text = some r →
    ∃ compiled, lib.compile text = some compiled ∧
      ∀ subject, lib.isMatch compiled subject = true ↔ subject.toList ∈ r.matches'

/-! ## What is described -/

namespace GroupedRegex

variable {cs text : List Char} {c first last : Char}

theorem mem_charsFrom (h : last.toNat < 128) : c ∈ charsFrom first last ↔ first ≤ c ∧ c ≤ last := by
  have hascii : c ≤ last → ∃ n < 128, Char.ofNat n = c := fun hle =>
    ⟨c.toNat, Nat.lt_of_le_of_lt hle h, Char.ofNat_toNat c⟩
  simp only [charsFrom, List.mem_filter, List.mem_map, List.mem_range, Bool.and_eq_true,
    decide_eq_true_eq]
  exact ⟨And.right, fun hc => ⟨hascii hc.2, hc⟩⟩

theorem mem_oneOf : text ∈ (oneOf cs).matches' ↔ ∃ c ∈ cs, text = [c] := by
  unfold oneOf
  induction cs with
  | nil => simp [RegularExpression.matches'_zero, Language.notMem_zero]
  | cons c cs ih =>
    have hchar : text ∈ (RegularExpression.char c).matches' ↔ text = [c] := Iff.rfl
    rw [List.map_cons, List.sum_cons, RegularExpression.matches'_add, Language.mem_add, ih, hchar]
    simp

theorem mem_star_oneOf : text ∈ (oneOf cs).star.matches' ↔ ∀ c ∈ text, c ∈ cs := by
  rw [RegularExpression.matches'_star, Language.mem_kstar]
  constructor
  · rintro ⟨pieces, rfl, hpieces⟩ c hc
    obtain ⟨piece, hpiece, hc⟩ := List.mem_flatten.mp hc
    obtain ⟨d, hd, rfl⟩ := mem_oneOf.mp (hpieces piece hpiece)
    rwa [List.mem_singleton.mp hc]
  · intro h
    refine ⟨text.map fun c => [c], by simp [← List.flatMap_def], ?_⟩
    intro piece hpiece
    obtain ⟨c, hc, rfl⟩ := List.mem_map.mp hpiece
    exact mem_oneOf.mpr ⟨c, h c hc, rfl⟩

theorem matches'_prod (rs : List (RegularExpression Char)) :
    rs.prod.matches' = (rs.map RegularExpression.matches').prod := by
  induction rs with
  | nil => rfl
  | cons r rs ih => rw [List.prod_cons, List.map_cons, List.prod_cons, ← ih]; rfl

end GroupedRegex

/-! ## Names -/

def IsLetter (c : Char) : Prop := ('A' ≤ c ∧ c ≤ 'Z') ∨ ('a' ≤ c ∧ c ≤ 'z') ∨ c = '_'

/-- An identifier of ASCII characters: a letter, and behind it letters and digits. -/
def IsIdentifier (s : String) : Prop :=
  ∃ first rest, s.toList = first :: rest ∧ IsLetter first ∧
    ∀ c ∈ rest, IsLetter c ∨ ('0' ≤ c ∧ c ≤ '9')

/-- Identifiers, at least one, with dots between them. -/
def IsDottedPath (s : String) : Prop :=
  ∃ names, names ≠ [] ∧ (∀ name ∈ names, IsIdentifier name) ∧ s = ".".intercalate names

/-! ## What is checked -/

section

variable {s : String}

theorem isNameStart_iff {c : Char} : Catalog.isNameStart c = true ↔ IsLetter c := by
  have hstart : Catalog.isNameStart c = (decide ('A' ≤ c ∧ c ≤ 'Z') ||
      decide ('a' ≤ c) && decide (c ≤ 'z') || c == '_') := rfl
  simp [hstart, IsLetter, or_assoc]

theorem isNamePart_iff {c : Char} :
    Catalog.isNamePart c = true ↔ IsLetter c ∨ ('0' ≤ c ∧ c ≤ '9') := by
  have hpart : Catalog.isNamePart c =
      (Catalog.isNameStart c || decide ('0' ≤ c) && decide (c ≤ '9')) := Bool.or_right_comm ..
  rw [hpart, Bool.or_eq_true, isNameStart_iff]
  simp

theorem isPlainName_iff : Catalog.isPlainName s.toList = true ↔ IsIdentifier s := by
  unfold IsIdentifier
  cases s.toList with
  | nil => simp [Catalog.isPlainName]
  | cons first rest => simp [Catalog.isPlainName, isNameStart_iff, isNamePart_iff]

/-- A line end is no part of a name, not even at its end. -/
example : ¬IsIdentifier "query\n" := mt isPlainName_iff.mpr (by decide)

/-- No identifier has a dot. -/
theorem IsIdentifier.isSegment (h : IsIdentifier s) : Text.IsSegment s := by
  obtain ⟨first, rest, hchars, hfirst, hrest⟩ := h
  have hletter : ¬IsLetter '.' := by
    rw [← isNameStart_iff]
    decide
  have hdigit : ¬('0' ≤ '.' ∧ '.' ≤ '9') := by decide
  rw [Text.IsSegment, hchars, List.mem_cons]
  rintro (rfl | hdot)
  · exact hletter hfirst
  · exact (hrest _ hdot).elim hletter hdigit

theorem Text.segments_intercalate {names : List String} (h : names ≠ [])
    (hnames : ∀ name ∈ names, IsSegment name) : segments (".".intercalate names) = names := by
  induction names with
  | nil => exact absurd rfl h
  | cons name rest ih =>
    have hname : segments name = [name] := segments_of_isSegment (hnames name List.mem_cons_self)
    cases rest with
    | nil => rw [String.intercalate_singleton, hname]
    | cons next rest =>
      have hrest := ih (by simp) fun n hn => hnames n (List.mem_cons_of_mem name hn)
      rw [String.intercalate_cons_cons, segments_append, hname, hrest]
      rfl

theorem isDottedName_eq (s : String) :
    Catalog.isDottedName s = (Text.segments s).all fun name => Catalog.isPlainName name.toList := by
  simp [Catalog.isDottedName, Text.segments, List.all_map, Function.comp_def]

theorem isDottedName_iff : Catalog.isDottedName s = true ↔ IsDottedPath s := by
  rw [isDottedName_eq, List.all_eq_true]
  simp only [isPlainName_iff]
  constructor
  · exact fun h => ⟨Text.segments s, Text.segments_ne_nil s, h, (Text.intercalate_segments s).symm⟩
  · rintro ⟨names, hne, hnames, rfl⟩
    rwa [Text.segments_intercalate hne fun name hname => (hnames name hname).isSegment]

end

/-! ## The regular expressions of the check -/

namespace GroupedRegex

variable {s : String} {text : List Char} {c : Char}

/-- `A-Za-z_` -/
def letters : List Char := charsFrom 'A' 'Z' ++ charsFrom 'a' 'z' ++ ['_']

/-- `A-Za-z0-9_` -/
def lettersAndDigits : List Char :=
  charsFrom 'A' 'Z' ++ charsFrom 'a' 'z' ++ charsFrom '0' '9' ++ ['_']

/-- The parts of a name. -/
def nameParts : List (RegularExpression Char) := [oneOf letters, (oneOf lettersAndDigits).star]

/-- The parts of a path of names: behind the first, each stands behind a dot. -/
def pathParts : List (RegularExpression Char) :=
  nameParts ++ [(oneOf ['.'] :: nameParts).prod.star]

theorem mem_letters : c ∈ letters ↔ IsLetter c := by
  simp [letters, mem_charsFrom, IsLetter]

theorem mem_lettersAndDigits : c ∈ lettersAndDigits ↔ IsLetter c ∨ ('0' ≤ c ∧ c ≤ '9') := by
  have hparts : c ∈ lettersAndDigits ↔ c ∈ letters ∨ c ∈ charsFrom '0' '9' := by
    simp only [lettersAndDigits, letters, List.mem_append]
    tauto
  rw [hparts, mem_letters, mem_charsFrom (by decide)]

theorem read?_eq {text inner : String} {signs : List Sign} (htext : text = "^" ++ inner ++ "$")
    (hsigns : signs? none inner.toList = some signs) : read? text = ofSigns? [] [] signs := by
  have hchars : text.toList = '^' :: (inner.toList ++ ['$']) := by simp [htext]
  simp [read?, hchars, hsigns]

theorem read?_nameRegex : read? Catalog.nameRegex = some nameParts.prod := by
  have hsigns : signs? none "[A-Za-z_][A-Za-z0-9_]*".toList =
      some [.chars letters, .chars lettersAndDigits, .star] := by decide +kernel
  exact read?_eq rfl hsigns

theorem read?_dottedNameRegex : read? Catalog.dottedNameRegex = some pathParts.prod := by
  have hsigns : signs? none "[A-Za-z_][A-Za-z0-9_]*(\\.[A-Za-z_][A-Za-z0-9_]*)*".toList =
      some [.chars letters, .chars lettersAndDigits, .star, .opening, .chars ['.'], .chars letters,
        .chars lettersAndDigits, .star, .closing, .star] := by decide +kernel
  exact read?_eq rfl hsigns

/-- A name is of the form of the first regular expression. -/
theorem mem_nameParts : s.toList ∈ nameParts.prod.matches' ↔ IsIdentifier s := by
  have hparts : nameParts.prod.matches' =
      (oneOf letters).matches' * (oneOf lettersAndDigits).star.matches' := by
    rw [matches'_prod]
    exact congrArg _ (mul_one _)
  rw [hparts, Language.mem_mul]
  constructor
  · rintro ⟨before, hbefore, rest, hrest, htext⟩
    obtain ⟨first, hfirst, rfl⟩ := mem_oneOf.mp hbefore
    exact ⟨first, rest, htext.symm, mem_letters.mp hfirst,
      fun c hc => mem_lettersAndDigits.mp (mem_star_oneOf.mp hrest c hc)⟩
  · rintro ⟨first, rest, htext, hfirst, hrest⟩
    exact ⟨[first], mem_oneOf.mpr ⟨first, mem_letters.mpr hfirst, rfl⟩, rest,
      mem_star_oneOf.mpr fun c hc => mem_lettersAndDigits.mpr (hrest c hc), htext.symm⟩

/-- A piece of a path behind its first name. -/
theorem mem_dottedName : text ∈ (oneOf ['.'] :: nameParts).prod.matches' ↔
    ∃ name, text = '.' :: String.toList name ∧ IsIdentifier name := by
  rw [List.prod_cons, RegularExpression.matches'_mul, Language.mem_mul]
  constructor
  · rintro ⟨before, hbefore, name, hname, rfl⟩
    obtain ⟨dot, hdot, rfl⟩ := mem_oneOf.mp hbefore
    refine ⟨String.ofList name, ?_, ?_⟩
    · rw [List.mem_singleton.mp hdot, String.toList_ofList]
      rfl
    · rwa [← mem_nameParts, String.toList_ofList]
  · rintro ⟨name, rfl, hname⟩
    exact ⟨['.'], mem_oneOf.mpr ⟨'.', List.mem_cons_self, rfl⟩, name.toList,
      mem_nameParts.mpr hname, rfl⟩

theorem toList_intercalate (name : String) (rest : List String) :
    (".".intercalate (name :: rest)).toList =
      name.toList ++ (rest.map fun next => '.' :: next.toList).flatten := by
  induction rest generalizing name with
  | nil => simp
  | cons next rest ih => simp [String.intercalate_cons_cons, ih]

theorem exists_names {pieces : List (List Char)}
    (h : ∀ piece ∈ pieces, ∃ name, piece = '.' :: String.toList name ∧ IsIdentifier name) :
    ∃ names : List String, (∀ name ∈ names, IsIdentifier name) ∧
      pieces = names.map fun name => '.' :: name.toList := by
  induction pieces with
  | nil => exact ⟨[], nofun, rfl⟩
  | cons piece pieces ih =>
    obtain ⟨⟨name, rfl, hname⟩, hpieces⟩ := List.forall_mem_cons.mp h
    obtain ⟨names, hnames, rfl⟩ := ih hpieces
    exact ⟨name :: names, List.forall_mem_cons.mpr ⟨hname, hnames⟩, rfl⟩

/-- A path of names is of the form of the second regular expression. -/
theorem mem_pathParts : s.toList ∈ pathParts.prod.matches' ↔ IsDottedPath s := by
  have hparts : pathParts.prod.matches' =
      nameParts.prod.matches' * (oneOf ['.'] :: nameParts).prod.star.matches' := by
    rw [matches'_prod, matches'_prod, pathParts, List.map_append, List.prod_append]
    exact congrArg _ (mul_one _)
  rw [hparts, Language.mem_mul, RegularExpression.matches'_star]
  constructor
  · rintro ⟨first, hfirst, behind, hbehind, htext⟩
    obtain ⟨pieces, rfl, hpieces⟩ := Language.mem_kstar.mp hbehind
    obtain ⟨rest, hrest, rfl⟩ := exists_names fun piece hpiece =>
      mem_dottedName.mp (hpieces piece hpiece)
    refine ⟨String.ofList first :: rest, by simp, ?_, ?_⟩
    · exact List.forall_mem_cons.mpr ⟨by rwa [← mem_nameParts, String.toList_ofList], hrest⟩
    · rw [← String.toList_inj, toList_intercalate, String.toList_ofList, htext]
  · rintro ⟨names, hne, hnames, rfl⟩
    obtain ⟨first, rest, rfl⟩ := List.exists_cons_of_ne_nil hne
    obtain ⟨hfirst, hrest⟩ := List.forall_mem_cons.mp hnames
    refine ⟨first.toList, mem_nameParts.mpr hfirst, _, Language.mem_kstar.mpr ⟨_, rfl, ?_⟩,
      (toList_intercalate first rest).symm⟩
    intro piece hpiece
    obtain ⟨name, hname, rfl⟩ := List.mem_map.mp hpiece
    exact mem_dottedName.mpr ⟨name, rfl, hrest name hname⟩

end GroupedRegex

/-- The check by the two regular expressions is the check of names and paths of names. -/
theorem RegexLibrary.CompilesGroups.validateBy_eq {lib : RegexLibrary} (h : lib.CompilesGroups) :
    ∃ path name, lib.compile Catalog.dottedNameRegex = some path ∧
      lib.compile Catalog.nameRegex = some name ∧
      Catalog.validateBy (lib.isMatch path) (lib.isMatch name) = Catalog.validate := by
  obtain ⟨path, hpath, hpaths⟩ := h _ _ (by decide) GroupedRegex.read?_dottedNameRegex
  obtain ⟨name, hname, hnames⟩ := h _ _ (by decide) GroupedRegex.read?_nameRegex
  have hispath : lib.isMatch path = Catalog.isDottedName := by
    funext s
    rw [Bool.eq_iff_iff, hpaths, GroupedRegex.mem_pathParts, isDottedName_iff]
  have hisname : lib.isMatch name = fun s => Catalog.isPlainName s.toList := by
    funext s
    rw [Bool.eq_iff_iff, hnames, GroupedRegex.mem_nameParts, isPlainName_iff]
  refine ⟨path, name, hpath, hname, ?_⟩
  rw [hispath, hisname]
  rfl

/-- The library that compiles just the regular expressions that are read here. -/
def groupLibrary : RegexLibrary :=
  { Compiled := RegularExpression Char, compile := GroupedRegex.read?,
    isMatch := fun r text => r.rmatch text.toList }

theorem compilesGroups_groupLibrary : groupLibrary.CompilesGroups :=
  fun _ r _ hread => ⟨r, hread, fun _ => r.rmatch_iff_matches' _⟩

end XPathTaint
