import XPathTaint.Python.Source

-- Which lines a marker silences, told by the comments of a program. A text is read character by
-- character, with what each stands in: a comment, a string literal, or code. The lines silenced
-- are those of comments with the marker and the lines behind them; but a number sign in a string
-- literal counts for the start of a comment too.

namespace XPathTaint

/-! ## Lines -/

namespace Text

variable {c : Char} {cs rest part : List Char}

def linesOf (cs : List Char) : List (List Char) := closeLines (splitLines cs)

/-- The line that a text starts with. -/
def firstLine (cs : List Char) : List Char := (linesOf cs).headD []

theorem linesOf_lineFeed (rest : List Char) : linesOf ('\n' :: rest) = [] :: linesOf rest := by
  unfold linesOf
  rw [splitLines, if_pos rfl]
  cases hsplit : splitLines rest with
  | nil => exact absurd hsplit (splitLines_ne_nil rest)
  | cons piece pieces => rfl

/-- A character other than a line feed comes first in the first line, or it is a carriage return and
ends that line. -/
theorem linesOf_cons (rest : List Char) (h : c ≠ '\n') :
    linesOf (c :: rest) = firstLine (c :: rest) :: (linesOf rest).tail ∧
      (firstLine (c :: rest) = c :: firstLine rest ∨
        c = '\r' ∧ firstLine (c :: rest) = [] ∧ firstLine rest = []) := by
  cases hsplit : splitLines rest with
  | nil => exact absurd hsplit (splitLines_ne_nil rest)
  | cons piece pieces =>
    have hlines : linesOf (c :: rest) = closeLines ((c :: piece) :: pieces) := by
      rw [linesOf, splitLines, if_neg h, hsplit]
    unfold firstLine
    rw [hlines, linesOf, hsplit]
    cases pieces with
    | nil => cases piece <;> exact ⟨rfl, .inl rfl⟩
    | cons next pieces =>
      cases piece with
      | nil =>
        by_cases hreturn : c = '\r'
        · subst hreturn
          exact ⟨rfl, .inr ⟨rfl, rfl, rfl⟩⟩
        · have hkept : dropReturn [c] = [c] := if_neg (by simpa using hreturn)
          rw [closeLines.eq_3 _ _ (by simp), hkept]
          exact ⟨rfl, .inl rfl⟩
      | cons d piece =>
        have hdrop : dropReturn (c :: d :: piece) = c :: dropReturn (d :: piece) := by
          unfold dropReturn
          rw [List.getLast?_cons_cons]
          split <;> rfl
        simp [closeLines, hdrop]

theorem occursIn_cons (h : occursIn part rest = true) : occursIn part (c :: rest) = true := by
  rw [occursIn, h, Bool.or_true]

theorem occursIn_of_suffix (h : rest <:+ cs) (hrest : occursIn part rest = true) :
    occursIn part cs = true := by
  obtain ⟨before, rfl⟩ := h
  induction before with
  | nil => exact hrest
  | cons c before ih => exact occursIn_cons ih

end Text

namespace Python

/-! ## Comments and string literals -/

/-- What a place in a program stands in, apart from the code at the outside. -/
inductive Region where
  | literal (style : StringStyle)
  /-- A value put into a string literal, with a number of brackets open in it. -/
  | value (depth : Nat)
  /-- The format of such a value. -/
  | format
  deriving Repr, DecidableEq, Inhabited

/-- How far a program was read. -/
structure Lexer where
  /-- What the place stands in, the innermost first. -/
  regions : List Region
  /-- How many more characters belong to the quotes or to the escape begun. -/
  held : Nat
  inWord : Bool
  inComment : Bool
  deriving Repr, DecidableEq, Inhabited

/-- What a character belongs to; the number sign that a comment starts with is told apart. -/
inductive Role where
  | code
  | commentStart
  | comment
  | literal
  deriving Repr, DecidableEq, Inhabited

namespace Lexer

def start : Lexer := ⟨[], 0, false, false⟩

/-- How many characters a backslash takes with it. Braces count behind it in a string that holds
values, unless they name a character. -/
def escaped (style : StringStyle) : List Char → Nat
  | '\r' :: '\n' :: _ => 2
  | 'N' :: '\x7b' :: _ => if style.format && !style.raw then 2 else 1
  | '\x7b' :: _ => if style.format then 0 else 1
  | _ :: _ => 1
  | [] => 0

/-- Brackets and the colon before a format in a value between braces. -/
def afterSign (c : Char) : List Region → List Region
  | .value depth :: outer =>
    if ['(', '[', '\x7b'].contains c then .value (depth + 1) :: outer
    else if depth = 0 && c = '\x7d' then outer
    else if depth = 0 && c = ':' then .format :: outer
    else if [')', ']', '\x7d'].contains c then .value (depth - 1) :: outer
    else .value depth :: outer
  | regions => regions

/-- The string that starts at a character, with the number of characters up to its text. Letters
before a quote belong to it unless they end a longer word. -/
def opened? (inWord : Bool) (c : Char) (rest : List Char) : Option (StringStyle × Nat) :=
  if inWord && !isStringQuote c then none else stringStyle? (c :: rest)

/-- What comes behind a character of a string, and how many characters it takes with it. The string
ends at its quotes, and a short one at the end of its line. -/
def inLiteral (style : StringStyle) (outer : List Region) (c : Char) (rest : List Char) :
    List Region × Nat :=
  let within := .literal style :: outer
  if c = '\\' then (within, escaped style rest)
  else if c = style.quote then
    if !style.triple then (outer, 0)
    else if [c, c].isPrefixOf rest then (outer, 2)
    else (within, 0)
  else if c = '\n' && !style.triple then (outer, 0)
  else if style.format && c = '\x7b' then
    if rest.head? = some c then (within, 1) else (.value 0 :: within, 0)
  else (within, 0)

/-- What comes behind a character of the format of a value. -/
def inFormat (outer : List Region) (c : Char) : List Region :=
  if c = '\x7b' then .value 0 :: .format :: outer
  else if c = '\x7d' then outer
  else .format :: outer

/-- Reads a character that the others follow. -/
def step (s : Lexer) (c : Char) (rest : List Char) : Role × Lexer :=
  if s.inComment then
    if c = '\n' then (.code, { s with inComment := false }) else (.comment, s)
  else if 0 < s.held then (.literal, { s with held := s.held - 1 })
  else
    match s.regions with
    | .literal style :: outer =>
      let (regions, held) := inLiteral style outer c rest
      (.literal, { s with regions, held })
    | .format :: outer => (.literal, { s with regions := inFormat outer c })
    | regions =>
      if c = '#' then (.commentStart, { s with inWord := false, inComment := true })
      else
        match opened? s.inWord c rest with
        | some (style, n) =>
          (.literal,
            { s with regions := .literal style :: regions, held := n - 1, inWord := false })
        | none =>
          (.code, { s with regions := afterSign c regions, inWord := Text.isWordPart c })

end Lexer

/-! ## Number signs -/

/-- A number sign: the number of its line, what the line holds from it on, and what it belongs
to. -/
structure NumberSign where
  line : Nat
  tail : List Char
  role : Role
  deriving Repr, DecidableEq

/-- The number signs of a text that starts in the line of a number. -/
def numberSigns (s : Lexer) (line : Nat) : List Char → List NumberSign
  | [] => []
  | c :: rest =>
    let (role, next) := s.step c rest
    let more := numberSigns next (if c = '\n' then line + 1 else line) rest
    if c = '#' then ⟨line, Text.firstLine (c :: rest), role⟩ :: more else more

/-- The comments of a program, each with its line. -/
def comments (text : String) : List NumberSign :=
  (numberSigns .start 1 text.toList).filter (·.role = .commentStart)

/-- The number signs that stand in string literals. -/
def literalSigns (text : String) : List NumberSign :=
  (numberSigns .start 1 text.toList).filter (·.role = .literal)

example : comments "x = 1  # a # b\n" = [⟨1, "# a # b".toList, .commentStart⟩] := by decide +kernel

example : comments "x = '''\n# a''' # b\n" = [⟨2, "# b".toList, .commentStart⟩] := by
  decide +kernel

example : comments "x = f'\x7by['#']:#x\x7d # a' # b\n" = [⟨1, "# b".toList, .commentStart⟩] := by
  decide +kernel

/-! ## Marked lines -/

section

variable {marker : String} {s : Lexer} {line n : Nat} {c : Char} {cs rest : List Char}
  {sign : NumberSign}

theorem numberSigns_cons (s : Lexer) (line : Nat) (c : Char) (rest : List Char) :
    numberSigns s line (c :: rest) =
      (if c = '#' then [⟨line, Text.firstLine (c :: rest), (s.step c rest).1⟩] else []) ++
        numberSigns (s.step c rest).2 (if c = '\n' then line + 1 else line) rest := by
  rw [numberSigns]
  dsimp only
  split <;> rfl

theorem isMarked_nil : isMarked marker (String.ofList []) = false := by
  simp [isMarked]

theorem isMarked_sign : isMarked marker (String.ofList ('#' :: rest)) =
    Text.occursIn marker.toList ('#' :: rest) := by
  simp [isMarked]

theorem isMarked_cons (h : c ≠ '#') :
    isMarked marker (String.ofList (c :: rest)) = isMarked marker (String.ofList rest) := by
  simp [isMarked, h]

theorem occursIn_of_isMarked (h : isMarked marker (String.ofList cs) = true) :
    Text.occursIn marker.toList cs = true := by
  induction cs with
  | nil => rw [isMarked_nil] at h; cases h
  | cons c cs ih =>
    by_cases hsign : c = '#'
    · subst hsign
      rwa [isMarked_sign] at h
    · rw [isMarked_cons hsign] at h
      exact Text.occursIn_cons (ih h)

/-- The numbers of the marked lines. -/
def markedFrom (marker : String) (n : Nat) : List (List Char) → List Nat
  | [] => []
  | line :: rest =>
    if isMarked marker (String.ofList line) then n :: markedFrom marker (n + 1) rest
    else markedFrom marker (n + 1) rest

theorem mem_markedFrom {lines : List (List Char)} : n ∈ markedFrom marker line lines ↔
    (n = line ∧ isMarked marker (String.ofList (lines.headD [])) = true) ∨
      n ∈ markedFrom marker (line + 1) lines.tail := by
  cases lines with
  | nil => rw [List.headD_nil, isMarked_nil]; simp [markedFrom]
  | cons first rest =>
    rw [markedFrom]
    split <;> simp_all

theorem mem_silencedFrom {lines : List (List Char)} :
    n ∈ silencedFrom marker line (lines.map String.ofList) ↔
      ∃ m ∈ markedFrom marker line lines, n = m ∨ n = m + 1 := by
  induction lines generalizing line with
  | nil => simp [silencedFrom, markedFrom]
  | cons first rest ih =>
    rw [List.map_cons, silencedFrom, markedFrom]
    split
    · simp only [List.mem_cons, exists_eq_or_imp, ih, or_assoc]
    · exact ih

/-- A line is marked where one of its number signs has the marker behind it. -/
theorem mem_markedFrom_linesOf : n ∈ markedFrom marker line (Text.linesOf cs) ↔
    ∃ sign ∈ numberSigns s line cs, sign.line = n ∧
      Text.occursIn marker.toList sign.tail = true := by
  induction cs generalizing s line with
  | nil => simp [Text.linesOf, Text.splitLines, Text.closeLines, markedFrom, numberSigns]
  | cons c rest ih =>
    rw [numberSigns_cons]
    by_cases hfeed : c = '\n'
    · subst hfeed
      rw [Text.linesOf_lineFeed, mem_markedFrom, List.headD_cons, isMarked_nil, List.tail_cons,
        ih (s := (s.step '\n' rest).2)]
      simp
    · obtain ⟨hlines, hfirst⟩ := Text.linesOf_cons rest hfeed
      have hrest : n ∈ markedFrom marker line (Text.linesOf rest) ↔
          ∃ sign ∈ numberSigns (s.step c rest).2 line rest, sign.line = n ∧
            Text.occursIn marker.toList sign.tail = true := ih
      rw [mem_markedFrom, ← Text.firstLine] at hrest
      rw [hlines, mem_markedFrom, List.headD_cons, List.tail_cons, if_neg hfeed]
      by_cases hsign : c = '#'
      · subst hsign
        have hcons : Text.firstLine ('#' :: rest) = '#' :: Text.firstLine rest := by
          rcases hfirst with hcons | ⟨hreturn, _⟩
          · exact hcons
          · cases hreturn
        have hlater : isMarked marker (String.ofList (Text.firstLine rest)) = true →
            Text.occursIn marker.toList ('#' :: Text.firstLine rest) = true :=
          fun h => Text.occursIn_cons (occursIn_of_isMarked h)
        rw [if_pos rfl, hcons, isMarked_sign, List.singleton_append]
        simp only [List.mem_cons, exists_eq_or_imp, ← hrest]
        rw [eq_comm (a := line)]
        constructor
        · exact Or.imp_right .inr
        · rintro (hfound | ⟨hn, hmarked⟩ | hfound)
          · exact .inl hfound
          · exact .inl ⟨hn, hlater hmarked⟩
          · exact .inr hfound
      · have hsame : isMarked marker (String.ofList (Text.firstLine (c :: rest))) =
            isMarked marker (String.ofList (Text.firstLine rest)) := by
          rcases hfirst with hcons | ⟨_, hempty, hempty'⟩
          · rw [hcons, isMarked_cons hsign]
          · rw [hempty, hempty']
        rw [if_neg hsign, hsame, List.nil_append, ← hrest]

/-! ## What the signs belong to -/

/-- What a step does: it goes on in a comment or ends it, starts one at a number sign, or reads
something else. -/
theorem step_cases (s : Lexer) (c : Char) (rest : List Char) :
    (s.inComment = true ∧ c = '\n' ∧ s.step c rest = (.code, { s with inComment := false })) ∨
    (s.inComment = true ∧ c ≠ '\n' ∧ s.step c rest = (.comment, s)) ∨
    (s.inComment = false ∧ c = '#' ∧ (s.step c rest).1 = .commentStart) ∨
    (s.inComment = false ∧ (s.step c rest).2.inComment = false ∧
      ((s.step c rest).1 = .literal ∨ c ≠ '#' ∧ (s.step c rest).1 = .code)) := by
  rcases hin : s.inComment with _ | _
  · refine .inr (.inr ?_)
    unfold Lexer.step
    rw [hin, if_neg Bool.false_ne_true]
    split
    · exact .inr ⟨rfl, rfl, .inl rfl⟩
    · split
      · exact .inr ⟨rfl, rfl, .inl rfl⟩
      · exact .inr ⟨rfl, rfl, .inl rfl⟩
      · split
        · rename_i hsign
          exact .inl ⟨rfl, hsign, rfl⟩
        · rename_i hsign
          split
          · exact .inr ⟨rfl, rfl, .inl rfl⟩
          · exact .inr ⟨rfl, rfl, .inr ⟨hsign, rfl⟩⟩
  · unfold Lexer.step
    by_cases hfeed : c = '\n'
    · exact .inl ⟨rfl, hfeed, by rw [if_pos hin, if_pos hfeed]⟩
    · exact .inr (.inl ⟨rfl, hfeed, by rw [if_pos hin, if_neg hfeed]⟩)

/-- In a comment is what stood in it before, and what follows the number sign of one. -/
theorem inComment_of_step (h : (s.step c rest).2.inComment = true) :
    c ≠ '\n' ∧ (s.inComment = true ∨ c = '#' ∧ (s.step c rest).1 = .commentStart) := by
  rcases step_cases s c rest with ⟨_, _, hstep⟩ | ⟨hin, hfeed, _⟩ | ⟨_, rfl, hrole⟩ | ⟨_, hout, _⟩
  · rw [hstep] at h
    cases h
  · exact ⟨hfeed, .inl hin⟩
  · exact ⟨by decide, .inr ⟨rfl, hrole⟩⟩
  · rw [hout] at h
    cases h

/-- A number sign starts a comment, goes on in one or stands in a string. -/
theorem role_of_sign (s : Lexer) (rest : List Char) :
    (s.step '#' rest).1 = .commentStart ∨ (s.inComment = true ∧ (s.step '#' rest).1 = .comment) ∨
      (s.step '#' rest).1 = .literal := by
  rcases step_cases s '#' rest with ⟨_, hfeed, _⟩ | ⟨hin, _, hstep⟩ | ⟨_, _, hrole⟩ | ⟨_, _, hrole⟩
  · cases hfeed
  · exact .inr (.inl ⟨hin, congrArg Prod.fst hstep⟩)
  · exact .inl hrole
  · rcases hrole with hrole | ⟨hother, _⟩
    · exact .inr (.inr hrole)
    · exact absurd rfl hother

/-- A number sign within a comment stands in a line with the start of the comment before it. -/
theorem exists_start_of_comment (h : sign ∈ numberSigns s line cs) (hrole : sign.role = .comment) :
    (s.inComment = true ∧ sign.line = line ∧ sign.tail <:+ Text.firstLine cs) ∨
      ∃ start ∈ numberSigns s line cs, start.line = sign.line ∧ start.role = .commentStart ∧
        sign.tail <:+ start.tail := by
  induction cs generalizing s line with
  | nil => cases h
  | cons c rest ih =>
    rw [numberSigns_cons] at h ⊢
    rcases List.mem_append.mp h with hhead | hlater
    · by_cases hsign : c = '#'
      · subst hsign
        rw [if_pos rfl, List.mem_singleton] at hhead
        subst hhead
        rcases role_of_sign s rest with hstart | ⟨hin, _⟩ | hliteral
        · exact nomatch hstart.symm.trans hrole
        · exact .inl ⟨hin, rfl, List.suffix_refl _⟩
        · exact nomatch hliteral.symm.trans hrole
      · rw [if_neg hsign] at hhead
        cases hhead
    · rcases ih hlater with ⟨hin, hline, hsuffix⟩ | ⟨start, hstart, hsame⟩
      · obtain ⟨hfeed, hcomment⟩ := inComment_of_step hin
        have hlonger : Text.firstLine rest <:+ Text.firstLine (c :: rest) := by
          rcases (Text.linesOf_cons rest hfeed).2 with hcons | ⟨_, _, hempty⟩
          · rw [hcons]
            exact List.suffix_cons c _
          · rw [hempty]
            exact List.nil_suffix
        rw [if_neg hfeed] at hline
        rcases hcomment with hcomment | ⟨rfl, hrole⟩
        · exact .inl ⟨hcomment, hline, hsuffix.trans hlonger⟩
        · refine .inr ⟨⟨line, Text.firstLine ('#' :: rest), (s.step '#' rest).1⟩, ?_, hline.symm,
            hrole, hsuffix.trans hlonger⟩
          rw [if_pos rfl]
          exact List.mem_append_left _ (List.mem_singleton_self _)
      · exact .inr ⟨start, List.mem_append_right _ hstart, hsame⟩

theorem role_of_mem_numberSigns (h : sign ∈ numberSigns s line cs) :
    sign.role = .commentStart ∨ sign.role = .comment ∨ sign.role = .literal := by
  induction cs generalizing s line with
  | nil => cases h
  | cons c rest ih =>
    rw [numberSigns_cons] at h
    rcases List.mem_append.mp h with hhead | hlater
    · by_cases hsign : c = '#'
      · subst hsign
        rw [if_pos rfl, List.mem_singleton] at hhead
        subst hhead
        exact (role_of_sign s rest).imp_right (Or.imp_left And.right)
      · rw [if_neg hsign] at hhead
        cases hhead
    · exact ih hlater

end

/-! ## The lines silenced -/

/-- A marker silences the line of each comment that it stands in and the next one; and beyond that
the line of each number sign in a string literal that it stands behind, with the next one. -/
theorem a_marker_counts_behind_every_number_sign (parse : String → Program)
    (path text marker : String) (n : Nat) :
    n ∈ (FileFacts.ofSource path text (some marker) parse).1.suppressed ↔
      (∃ comment ∈ comments text, (n = comment.line ∨ n = comment.line + 1) ∧
        Text.occursIn marker.toList comment.tail = true) ∨
      ∃ sign ∈ literalSigns text, (n = sign.line ∨ n = sign.line + 1) ∧
        Text.occursIn marker.toList sign.tail = true := by
  have hsuppressed : n ∈ (FileFacts.ofSource path text (some marker) parse).1.suppressed ↔
      ∃ m ∈ markedFrom marker 1 (Text.linesOf text.toList), n = m ∨ n = m + 1 := by
    rw [← mem_silencedFrom]
    exact List.mem_eraseDups
  rw [hsuppressed]
  constructor
  · rintro ⟨m, hm, hn⟩
    obtain ⟨sign, hsign, rfl, hoccurs⟩ := (mem_markedFrom_linesOf (s := .start)).mp hm
    have hstart : sign.role = .comment → ∃ start ∈ numberSigns .start 1 text.toList,
        start.line = sign.line ∧ start.role = .commentStart ∧ sign.tail <:+ start.tail := by
      intro hrole
      rcases exists_start_of_comment hsign hrole with ⟨hin, _⟩ | hstart
      · cases hin
      · exact hstart
    rcases role_of_mem_numberSigns hsign with hrole | hrole | hrole
    · exact .inl ⟨sign, List.mem_filter.mpr ⟨hsign, decide_eq_true hrole⟩, hn, hoccurs⟩
    · obtain ⟨start, hmem, hline, hrole, hsuffix⟩ := hstart hrole
      exact .inl ⟨start, List.mem_filter.mpr ⟨hmem, decide_eq_true hrole⟩, hline ▸ hn,
        Text.occursIn_of_suffix hsuffix hoccurs⟩
    · exact .inr ⟨sign, List.mem_filter.mpr ⟨hsign, decide_eq_true hrole⟩, hn, hoccurs⟩
  · have hmarked : ∀ sign ∈ numberSigns .start 1 text.toList,
        Text.occursIn marker.toList sign.tail = true →
          sign.line ∈ markedFrom marker 1 (Text.linesOf text.toList) := fun sign hsign hoccurs =>
      mem_markedFrom_linesOf.mpr ⟨sign, hsign, rfl, hoccurs⟩
    rintro (⟨sign, hsign, hn, hoccurs⟩ | ⟨sign, hsign, hn, hoccurs⟩)
    · exact ⟨sign.line, hmarked sign (List.mem_filter.mp hsign).1 hoccurs, hn⟩
    · exact ⟨sign.line, hmarked sign (List.mem_filter.mp hsign).1 hoccurs, hn⟩

/-- A string that holds the marker behind a number sign silences its line and the next. -/
theorem a_number_sign_in_a_string_silences :
    comments "x = '# xpath-ignore'\ny = 1\n" = [] ∧
      (FileFacts.ofSource "a.py" "x = '# xpath-ignore'\ny = 1\n"
        (some "xpath-ignore")).1.suppressed = [1, 2] := by
  decide +kernel

end Python

end XPathTaint
