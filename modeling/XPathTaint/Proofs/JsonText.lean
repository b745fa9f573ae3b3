import Mathlib.Tactic.Common
import Mathlib.Tactic.IntervalCases
import XPathTaint.Json.Printer
import XPathTaint.Json.Reader

-- What is printed as JSON over several lines is read back as it was: the reader takes from a text
-- just what the printer wrote, whatever follows. The text that is left bounds the steps that it
-- still needs, so the steps it is given suffice.

namespace XPathTaint.Json

/-! ## Strings -/

theorem hexQuad?_hexQuad {n : Nat} (h : n < 32) :
    ∃ a b c d, (hexQuad n).toList = [a, b, c, d] ∧ hexQuad? a b c d = some n := by
  interval_cases n <;> exact ⟨_, _, _, _, rfl, rfl⟩

/-- A character that is written as it is stands for itself. -/
theorem readString_plain {c : Char} (hquote : c ≠ '\"') (hback : c ≠ '\\') (hge : ¬ c.toNat < 32)
    (seen rest : List Char) : readString seen (c :: rest) = readString (c :: seen) rest := by
  rw [readString.eq_def]
  split
  · contradiction
  · simp_all
  · simp_all
  · simp_all
  · rename_i heq
    obtain ⟨rfl, rfl⟩ := List.cons.inj heq
    rw [if_neg hge]

/-- A written character is read as itself. -/
theorem readString_escapedChar (c : Char) (seen rest : List Char) :
    readString seen ((escapedChar c).toList ++ rest) = readString (c :: seen) rest := by
  unfold escapedChar
  split
  · rfl
  · rfl
  · rfl
  · rfl
  · rfl
  · rfl
  · rfl
  · rename_i hquote hback _ _ _ _ _
    split
    · rename_i hlt
      obtain ⟨a₁, a₂, a₃, a₄, hquad, hread⟩ := hexQuad?_hexQuad hlt
      have htext : ("\\u" ++ hexQuad c.toNat).toList = ['\\', 'u', a₁, a₂, a₃, a₄] := by
        simp [hquad]
      have hunit : c.toNat < 0xD800 ∨ 0xE000 ≤ c.toNat := by omega
      rw [htext]
      simp only [List.cons_append, List.nil_append]
      rw [readString]
      simp [hread, hunit, Char.ofNat_toNat]
    · rename_i hge
      simp only [Char.toString, String.toList_singleton, List.cons_append, List.nil_append]
      exact readString_plain hquote hback hge seen rest

theorem readString_escaped (cs seen rest : List Char) :
    readString seen ((cs.map escapedChar).flatMap String.toList ++ '\"' :: rest) =
      some (String.ofList (seen.reverse ++ cs), rest) := by
  induction cs generalizing seen with
  | nil => simp [readString]
  | cons c cs ih =>
    rw [List.map_cons, List.flatMap_cons, List.append_assoc, readString_escapedChar, ih]
    simp

/-- Behind its opening quote a written text is read as it was. -/
theorem readString_written (s : String) (rest : List Char) :
    ∃ body, (writtenString s).toList ++ rest = '\"' :: body ∧
      readString [] body = some (s, rest) := by
  refine ⟨(s.toList.map escapedChar).flatMap String.toList ++ '\"' :: rest, ?_, ?_⟩
  · simp [writtenString]
  · rw [readString_escaped]
    simp

/-! ## Numbers -/

/-- Nothing that would belong to the number before it. -/
def EndsNumber (rest : List Char) : Prop :=
  ∀ c ∈ rest.head?, c.isDigit = false ∧ c ≠ '.' ∧ c ≠ 'e' ∧ c ≠ 'E'

section

variable {rest : List Char}

theorem EndsNumber.readFraction (h : EndsNumber rest) : readFraction rest = some ([], rest) := by
  unfold Json.readFraction
  split
  · exact absurd rfl (h '.' rfl).2.1
  · rfl

theorem EndsNumber.readPower (h : EndsNumber rest) : readPower rest = some ([], rest) := by
  cases rest with
  | nil => rfl
  | cons c rest =>
    obtain ⟨_, _, hlower, hupper⟩ := h c rfl
    simp [Json.readPower, hlower, hupper]

theorem EndsNumber.takeWhile (h : EndsNumber rest) {digits : List Char}
    (hdigits : ∀ c ∈ digits, c.isDigit) : (digits ++ rest).takeWhile Char.isDigit = digits := by
  rw [List.takeWhile_append_of_pos hdigits]
  cases rest with
  | nil => simp
  | cons c rest =>
    rw [List.takeWhile_cons_of_neg (by simp [(h c rfl).1]), List.append_nil]

theorem isDigit_of_mem_toDigits {n : Nat} {c : Char} (h : c ∈ Nat.toDigits 10 n) : c.isDigit :=
  Nat.isDigit_of_mem_toDigits (by decide) (by decide) h

/-- A number but zero does not begin with the digit zero. -/
theorem exists_toDigits_eq_cons {n : Nat} (hn : 0 < n) :
    ∃ c cs, Nat.toDigits 10 n = c :: cs ∧ c ≠ '0' := by
  induction n using Nat.strongRecOn with
  | _ n ih =>
    rw [Nat.toDigits_eq_if (by decide)]
    split
    · interval_cases n <;> exact ⟨_, [], rfl, by decide⟩
    · obtain ⟨c, cs, heq, hc⟩ := ih (n / 10) (by omega) (by omega)
      exact ⟨c, cs ++ [Nat.digitChar (n % 10)], by rw [heq, List.cons_append], hc⟩

theorem natOfDigits_toDigits (n : Nat) : natOfDigits (Nat.toDigits 10 n) = n := by
  have hdigits := Nat.ofDigitChars_ten_toDigits (n := n)
  rw [Nat.ofDigitChars_eq_foldl] at hdigits
  unfold natOfDigits
  simpa only [Nat.mul_comm] using hdigits

theorem ofParts_digits (digits : List Char) (h : natOfDigits digits < UInt64.size) :
    Number.ofParts false digits [] [] = .whole (natOfDigits digits) := by
  simp [Number.ofParts, h]

/-- The digits of a number are read as the number. -/
theorem readNumber_toDigits {n : Nat} (hn : n < UInt64.size) (h : EndsNumber rest) :
    readNumber (Nat.toDigits 10 n ++ rest) = some (.whole n, rest) := by
  have hwhole := ofParts_digits (Nat.toDigits 10 n) (by rwa [natOfDigits_toDigits])
  rw [natOfDigits_toDigits] at hwhole
  rcases Nat.eq_zero_or_pos n with rfl | hpos
  · -- a number may begin with zero only if that is all of it
    rw [Nat.toDigits_zero] at hwhole ⊢
    simp [readNumber, h.readFraction, h.readPower, hwhole]
  · obtain ⟨c, cs, heq, hc⟩ := exists_toDigits_eq_cons hpos
    have hdigits : ∀ d ∈ c :: cs, d.isDigit := by
      rw [← heq]
      exact fun d => isDigit_of_mem_toDigits
    have hminus : c ≠ '-' := by
      rintro rfl
      exact absurd (hdigits '-' List.mem_cons_self) (by decide)
    have hall := h.takeWhile hdigits
    rw [heq] at hwhole ⊢
    rw [List.cons_append] at hall ⊢
    simp [readNumber, hminus, hc, hall, h.readFraction, h.readPower, hwhole]

end

/-! ## Values -/

/-- All numbers in a value are whole and fit into 64 bits. -/
inductive IsWhole : Json → Prop
  | null : IsWhole .null
  | bool (b : Bool) : IsWhole (.bool b)
  | nat {n : Nat} (h : n < UInt64.size) : IsWhole (.nat n)
  | string (s : String) : IsWhole (.string s)
  | array {items : List Json} (h : ∀ j ∈ items, IsWhole j) : IsWhole (.array items)
  | object {members : List (String × Json)} (h : ∀ m ∈ members, IsWhole m.2) :
    IsWhole (.object members)

section

variable {indent : String} {rest : List Char} {j : Json}

theorem skipSpaces_append {blank : List Char} (h : ∀ c ∈ blank, isSpace c = true) :
    skipSpaces (blank ++ rest) = skipSpaces rest := List.dropWhile_append_of_pos h

theorem skipSpaces_cons {c : Char} (h : isSpace c = false) : skipSpaces (c :: rest) = c :: rest :=
  List.dropWhile_cons_of_neg (by simp [h])

/-- Blanks alone. -/
def IsBlank (indent : String) : Prop := ∀ c ∈ indent.toList, isSpace c = true

theorem toList_prettyAt_nat (n : Nat) : (prettyAt indent (.nat n)).toList = Nat.toDigits 10 n := by
  rw [Json.nat, prettyAt, Number.written]
  exact Nat.toList_repr

theorem exists_toList_spread (opening closing indent : String) (pieces : List String) :
    ∃ cs, (spread opening closing indent pieces).toList = opening.toList ++ cs := by
  unfold spread
  split
  · exact ⟨_, String.toList_append⟩
  · simp only [String.toList_append, List.append_assoc]
    exact ⟨_, rfl⟩

/-- The text of a value begins with what is no blank and ends no array. -/
theorem IsWhole.head (h : j.IsWhole) (indent : String) :
    ∃ c cs, (prettyAt indent j).toList = c :: cs ∧ isSpace c = false ∧ c ≠ ']' := by
  cases h with
  | null => exact ⟨'n', ['u', 'l', 'l'], by simp [prettyAt], rfl, by decide⟩
  | bool b =>
    cases b with
    | true => exact ⟨'t', ['r', 'u', 'e'], by simp [prettyAt], rfl, by decide⟩
    | false => exact ⟨'f', ['a', 'l', 's', 'e'], by simp [prettyAt], rfl, by decide⟩
  | nat hn =>
    rename_i n
    cases hdigits : Nat.toDigits 10 n with
    | nil => exact absurd hdigits Nat.toDigits_ne_nil
    | cons c cs =>
      have hdigit : c.isDigit := isDigit_of_mem_toDigits (hdigits ▸ List.mem_cons_self)
      refine ⟨c, cs, (toList_prettyAt_nat n).trans hdigits, ?_, ?_⟩
      · by_contra hspace
        simp only [isSpace, Bool.not_eq_false, Bool.or_eq_true, beq_iff_eq] at hspace
        rcases hspace with ((rfl | rfl) | rfl) | rfl <;> exact absurd hdigit (by decide)
      · rintro rfl
        exact absurd hdigit (by decide)
  | string s =>
    obtain ⟨body, hbody, _⟩ := readString_written s []
    rw [List.append_nil] at hbody
    exact ⟨'\"', body, by rw [prettyAt, hbody], rfl, by decide⟩
  | array h =>
    rename_i items
    obtain ⟨cs, htext⟩ := exists_toList_spread "[" "]" indent (prettyItems (indent ++ "  ") items)
    exact ⟨'[', cs, by rw [prettyAt, htext]; simp, rfl, by decide⟩
  | object h =>
    rename_i members
    obtain ⟨cs, htext⟩ := exists_toList_spread "\x7b" "\x7d" indent
      (prettyMembers (indent ++ "  ") members)
    exact ⟨'\x7b', cs, by rw [prettyAt, htext]; simp, rfl, by decide⟩

/-- Wherever a value is written, it is read as it is with a step for each half of a character. -/
def Reads (j : Json) : Prop :=
  ∀ indent, IsBlank indent → ∀ fuel rest, 2 * (prettyAt indent j).toList.length ≤ fuel →
    EndsNumber rest → readValue fuel ((prettyAt indent j).toList ++ rest) = some (j, rest)

/-- The line end before a closing mark. -/
theorem skipSpaces_closing {indent : String} (h : IsBlank indent) {c : Char}
    (hc : isSpace c = false) : skipSpaces ('\n' :: (indent.toList ++ c :: rest)) = c :: rest := by
  have hblank : ∀ c ∈ '\n' :: indent.toList, isSpace c = true := by
    intro c hc
    rcases List.mem_cons.mp hc with rfl | hc
    · rfl
    · exact h c hc
  rw [← List.cons_append, skipSpaces_append hblank, skipSpaces_cons hc]

theorem endsNumber_cons {c : Char} (h : c.isDigit = false ∧ c ≠ '.' ∧ c ≠ 'e' ∧ c ≠ 'E') :
    EndsNumber (c :: rest) := by
  intro d hd
  obtain rfl : c = d := by simpa using hd
  exact h

/-- The pieces of a text that is spread over lines, behind the opening mark and its line end. -/
def piecesText (indent closing : String) (pieces : List String) : List Char :=
  (("," ++ ("\n" ++ indent ++ "  ")).intercalate pieces ++ "\n" ++ indent ++ closing).toList

theorem piecesText_last (indent closing piece : String) :
    piecesText indent closing [piece] =
      piece.toList ++ '\n' :: (indent.toList ++ closing.toList) := by
  simp [piecesText]

theorem piecesText_cons (indent closing piece next : String) (pieces : List String) :
    piecesText indent closing (piece :: next :: pieces) =
      piece.toList ++ ',' :: ('\n' :: (indent.toList ++ [' ', ' ']) ++
        piecesText indent closing (next :: pieces)) := by
  simp [piecesText, String.intercalate_cons_cons]

theorem toList_spread_cons (opening closing indent piece : String) (pieces : List String) :
    (spread opening closing indent (piece :: pieces)).toList =
      opening.toList ++ ('\n' :: (indent.toList ++ [' ', ' ']) ++
        piecesText indent closing (piece :: pieces)) := by
  simp [spread, piecesText]

theorem IsBlank.line (h : IsBlank indent) :
    ∀ c ∈ '\n' :: (indent.toList ++ [' ', ' ']), isSpace c = true := by
  intro c hc
  simp only [List.mem_cons, List.mem_append, List.not_mem_nil, or_false, or_self] at hc
  rcases hc with rfl | hc | rfl
  · rfl
  · exact h c hc
  · rfl

theorem IsBlank.deeper (h : IsBlank indent) : IsBlank (indent ++ "  ") := by
  intro c hc
  refine h.line c (List.mem_cons_of_mem _ ?_)
  simpa using hc

/-- The blanks before the next piece are passed over. -/
theorem skipSpaces_line (h : IsBlank indent) {c : Char} (hc : isSpace c = false)
    (rest : List Char) :
    skipSpaces ('\n' :: (indent.toList ++ [' ', ' ']) ++ c :: rest) = c :: rest := by
  rw [skipSpaces_append h.line, skipSpaces_cons hc]

theorem exists_piecesText_eq (indent closing : String) {piece : String} (pieces : List String)
    {c : Char} {cs : List Char} (h : piece.toList = c :: cs) :
    ∃ more, piecesText indent closing (piece :: pieces) = c :: more := by
  cases pieces with
  | nil => exact ⟨_, by rw [piecesText_last, h, List.cons_append]⟩
  | cons next pieces => exact ⟨_, by rw [piecesText_cons, h, List.cons_append]⟩

theorem readItems_pieces (hindent : IsBlank indent) {items : List Json} (rest : List Char) :
    ∀ item, (∀ j ∈ item :: items, j.IsWhole) → (∀ j ∈ item :: items, j.Reads) →
      ∀ fuel, 2 * (piecesText indent "]" (prettyItems (indent ++ "  ") (item :: items))).length ≤
        fuel →
      readItems fuel
          (piecesText indent "]" (prettyItems (indent ++ "  ") (item :: items)) ++ rest) =
        some (item :: items, rest) := by
  induction items with
  | nil =>
    intro item hwhole hreads fuel hfuel
    rw [prettyItems, prettyItems, piecesText_last] at hfuel ⊢
    cases fuel with
    | zero => simp at hfuel
    | succ fuel =>
      have hread := hreads item List.mem_cons_self _ hindent.deeper fuel
        ('\n' :: (indent.toList ++ ']' :: rest)) (by simp at hfuel; omega)
        (endsNumber_cons (by decide))
      simp only [List.append_assoc, List.cons_append, String.reduceToList, List.nil_append]
      rw [readItems, hread]
      simp [skipSpaces_closing hindent (c := ']') rfl]
  | cons next items ih =>
    intro item hwhole hreads fuel hfuel
    rw [prettyItems, prettyItems, piecesText_cons] at hfuel ⊢
    cases fuel with
    | zero => simp at hfuel
    | succ fuel =>
      set later := piecesText indent "]"
        (prettyAt (indent ++ "  ") next :: prettyItems (indent ++ "  ") items) with hlater
      have hread := hreads item List.mem_cons_self _ hindent.deeper fuel
        (',' :: ('\n' :: (indent.toList ++ [' ', ' ']) ++ (later ++ rest)))
        (by simp at hfuel; omega) (endsNumber_cons (by decide))
      obtain ⟨c, cs, htext, hspace, _⟩ := (hwhole next (by simp)).head (indent ++ "  ")
      obtain ⟨more, hmore⟩ := exists_piecesText_eq indent "]"
        (prettyItems (indent ++ "  ") items) htext
      have hskip : skipSpaces ('\n' :: (indent.toList ++ [' ', ' ']) ++ (later ++ rest)) =
          later ++ rest := by
        rw [hlater, hmore, List.cons_append]
        exact skipSpaces_line hindent hspace _
      have hrest := ih next (fun j hj => hwhole j (List.mem_cons_of_mem _ hj))
        (fun j hj => hreads j (List.mem_cons_of_mem _ hj)) fuel
        (by rw [prettyItems, ← hlater]; simp at hfuel; omega)
      rw [prettyItems, ← hlater] at hrest
      simp only [List.append_assoc, List.cons_append, List.nil_append] at hread hskip ⊢
      rw [readItems, hread]
      simp [skipSpaces_cons (c := ',') (by decide), hskip, hrest]

/-- How a member is written. -/
theorem prettyMembers_cons (m : String × Json) (members : List (String × Json)) :
    prettyMembers indent (m :: members) =
      (writtenString m.1 ++ ": " ++ prettyAt indent m.2) :: prettyMembers indent members := by
  rw [prettyMembers]

theorem exists_toList_member (name value : String) :
    ∃ body, (writtenString name ++ ": " ++ value).toList = '\"' :: body := by
  obtain ⟨body, hbody, _⟩ := readString_written name (": " ++ value).toList
  exact ⟨body, by rw [← hbody]; simp⟩

/-- A member is read up to what follows its value. -/
theorem readMembers_member (name : String) (hwhole : j.IsWhole) (hreads : j.Reads)
    (hindent : IsBlank indent) (fuel : Nat) (rest : List Char)
    (hfuel : 2 * (prettyAt indent j).toList.length ≤ fuel) (hrest : EndsNumber rest) :
    readMembers (fuel + 1) ((writtenString name ++ ": " ++ prettyAt indent j).toList ++ rest) =
      match skipSpaces rest with
      | '\x7d' :: rest => some ([(name, j)], rest)
      | ',' :: rest =>
        (readMembers fuel (skipSpaces rest)).map fun (members, rest) => ((name, j) :: members, rest)
      | _ => none := by
  obtain ⟨body, hbody, hname⟩ := readString_written name
    (':' :: ' ' :: ((prettyAt indent j).toList ++ rest))
  obtain ⟨c, cs, htext, hspace, _⟩ := hwhole.head indent
  have hvalue : skipSpaces (' ' :: ((prettyAt indent j).toList ++ rest)) =
      (prettyAt indent j).toList ++ rest := by
    rw [htext]
    exact skipSpaces_cons hspace
  have hmember : (writtenString name ++ ": " ++ prettyAt indent j).toList ++ rest =
      '\"' :: body := by
    rw [← hbody]
    simp
  have hread := readMembers.eq_def (fuel + 1) ('\"' :: body)
  simp only [hname, skipSpaces_cons (c := ':') (by decide), hvalue,
    hreads indent hindent fuel rest hfuel hrest] at hread
  rw [hmember]
  exact hread

theorem readMembers_pieces (hindent : IsBlank indent) {members : List (String × Json)}
    (rest : List Char) :
    ∀ m, (∀ x ∈ m :: members, x.2.IsWhole) → (∀ x ∈ m :: members, x.2.Reads) →
      ∀ fuel,
        2 * (piecesText indent "\x7d" (prettyMembers (indent ++ "  ") (m :: members))).length ≤
          fuel →
      readMembers fuel
          (piecesText indent "\x7d" (prettyMembers (indent ++ "  ") (m :: members)) ++ rest) =
        some (m :: members, rest) := by
  induction members with
  | nil =>
    intro m hwhole hreads fuel hfuel
    rw [prettyMembers_cons, prettyMembers, piecesText_last] at hfuel ⊢
    cases fuel with
    | zero => simp at hfuel
    | succ fuel =>
      have hread := readMembers_member m.1 (hwhole m (by simp)) (hreads m (by simp))
        hindent.deeper fuel ('\n' :: (indent.toList ++ '\x7d' :: rest))
        (by simp at hfuel ⊢; omega) (endsNumber_cons (by decide))
      rw [skipSpaces_closing hindent (by decide)] at hread
      simpa using hread
  | cons next members ih =>
    intro m hwhole hreads fuel hfuel
    rw [prettyMembers_cons, prettyMembers_cons, piecesText_cons] at hfuel ⊢
    cases fuel with
    | zero => simp at hfuel
    | succ fuel =>
      set later := piecesText indent "\x7d" ((writtenString next.1 ++ ": " ++
        prettyAt (indent ++ "  ") next.2) :: prettyMembers (indent ++ "  ") members) with hlater
      have hread := readMembers_member m.1 (hwhole m (by simp)) (hreads m (by simp))
        hindent.deeper fuel (',' :: ('\n' :: (indent.toList ++ [' ', ' ']) ++ (later ++ rest)))
        (by simp at hfuel ⊢; omega) (endsNumber_cons (by decide))
      obtain ⟨body, htext⟩ := exists_toList_member next.1 (prettyAt (indent ++ "  ") next.2)
      obtain ⟨more, hmore⟩ := exists_piecesText_eq indent "\x7d"
        (prettyMembers (indent ++ "  ") members) htext
      have hskip : skipSpaces ('\n' :: (indent.toList ++ [' ', ' ']) ++ (later ++ rest)) =
          later ++ rest := by
        rw [hlater, hmore, List.cons_append]
        exact skipSpaces_line hindent (by decide) _
      have hrest := ih next (fun x hx => hwhole x (List.mem_cons_of_mem _ hx))
        (fun x hx => hreads x (List.mem_cons_of_mem _ hx)) fuel
        (by rw [prettyMembers_cons, ← hlater]; simp at hfuel; omega)
      rw [prettyMembers_cons, ← hlater] at hrest
      rw [skipSpaces_cons (c := ',') (by decide)] at hread
      simp only [hskip, hrest, Option.map_some] at hread
      simpa using hread

/-! ## Whole texts -/

theorem readValue_digit {cs : List Char} (h : ∀ c ∈ cs.head?, c.isDigit) (fuel : Nat) :
    readValue (fuel + 1) cs = (readNumber cs).map fun (n, rest) => (.number n, rest) := by
  rw [readValue.eq_def]
  dsimp only
  split
  · exact absurd (h 'n' rfl) (by decide)
  · exact absurd (h 't' rfl) (by decide)
  · exact absurd (h 'f' rfl) (by decide)
  · exact absurd (h '\"' rfl) (by decide)
  · exact absurd (h '[' rfl) (by decide)
  · exact absurd (h '\x7b' rfl) (by decide)
  · rfl

theorem reads_nat {n : Nat} (hn : n < UInt64.size) : (nat n).Reads := by
  intro indent _ fuel rest hfuel hrest
  have hread := readNumber_toDigits hn hrest
  rw [toList_prettyAt_nat] at hfuel ⊢
  cases hdigits : Nat.toDigits 10 n with
  | nil => exact absurd hdigits Nat.toDigits_ne_nil
  | cons c cs =>
    have hdigit : c.isDigit := isDigit_of_mem_toDigits (hdigits ▸ List.mem_cons_self)
    rw [hdigits] at hfuel hread
    rw [List.cons_append] at hread ⊢
    cases fuel with
    | zero => simp at hfuel
    | succ fuel =>
      rw [readValue_digit (by simpa using hdigit), hread]
      rfl

theorem reads_array {items : List Json} (hwhole : ∀ j ∈ items, j.IsWhole)
    (hreads : ∀ j ∈ items, j.Reads) : (array items).Reads := by
  intro indent hindent fuel rest hfuel _
  rw [prettyAt] at hfuel ⊢
  cases fuel with
  | zero =>
    obtain ⟨cs, htext⟩ := exists_toList_spread "[" "]" indent (prettyItems (indent ++ "  ") items)
    simp [htext] at hfuel
  | succ fuel =>
    cases items with
    | nil => simp [prettyItems, spread, readValue, skipSpaces_cons (c := ']') (by decide)]
    | cons item items =>
      obtain ⟨c, cs, htext, hspace, hc⟩ := (hwhole item (by simp)).head (indent ++ "  ")
      obtain ⟨more, hmore⟩ := exists_piecesText_eq indent "]"
        (prettyItems (indent ++ "  ") items) htext
      rw [prettyItems, toList_spread_cons] at hfuel ⊢
      have hitems := readItems_pieces hindent rest item hwhole hreads fuel
        (by rw [prettyItems]; simp at hfuel; omega)
      rw [prettyItems, hmore, List.cons_append] at hitems
      rw [hmore]
      simp only [String.reduceToList, List.append_assoc, List.cons_append, List.nil_append]
      rw [readValue]
      have hskip := skipSpaces_line hindent hspace (more ++ rest)
      simp only [List.append_assoc, List.cons_append, List.nil_append] at hskip
      rw [hskip]
      split
      · simp_all
      · rw [hitems]
        rfl

theorem reads_object {members : List (String × Json)} (hwhole : ∀ m ∈ members, m.2.IsWhole)
    (hreads : ∀ m ∈ members, m.2.Reads) : (object members).Reads := by
  intro indent hindent fuel rest hfuel _
  rw [prettyAt] at hfuel ⊢
  cases fuel with
  | zero =>
    obtain ⟨cs, htext⟩ := exists_toList_spread "\x7b" "\x7d" indent
      (prettyMembers (indent ++ "  ") members)
    simp [htext] at hfuel
  | succ fuel =>
    cases members with
    | nil => simp [prettyMembers, spread, readValue, skipSpaces_cons (c := '\x7d') (by decide)]
    | cons m members =>
      obtain ⟨body, htext⟩ := exists_toList_member m.1 (prettyAt (indent ++ "  ") m.2)
      obtain ⟨more, hmore⟩ := exists_piecesText_eq indent "\x7d"
        (prettyMembers (indent ++ "  ") members) htext
      rw [prettyMembers_cons, toList_spread_cons] at hfuel ⊢
      have hmembers := readMembers_pieces hindent rest m hwhole hreads fuel
        (by rw [prettyMembers_cons]; simp at hfuel; omega)
      rw [prettyMembers_cons, hmore, List.cons_append] at hmembers
      rw [hmore]
      simp only [String.reduceToList, List.append_assoc, List.cons_append, List.nil_append]
      rw [readValue]
      have hskip := skipSpaces_line hindent (c := '\"') (by decide) (more ++ rest)
      simp only [List.append_assoc, List.cons_append, List.nil_append] at hskip
      rw [hskip]
      split
      · simp_all
      · rw [hmembers]
        rfl

theorem IsWhole.reads (h : j.IsWhole) : j.Reads := by
  induction h with
  | null =>
    intro indent _ fuel rest hfuel _
    cases fuel with
    | zero => simp [prettyAt] at hfuel
    | succ fuel => simp [prettyAt, readValue]
  | bool b =>
    intro indent _ fuel rest hfuel _
    cases fuel with
    | zero => cases b <;> simp [prettyAt] at hfuel
    | succ fuel => cases b <;> simp [prettyAt, readValue]
  | nat hn => exact reads_nat hn
  | string s =>
    intro indent _ fuel rest hfuel _
    obtain ⟨body, hbody, hread⟩ := readString_written s rest
    rw [prettyAt] at hfuel ⊢
    cases fuel with
    | zero => simp [writtenString] at hfuel
    | succ fuel =>
      rw [hbody, readValue, hread]
      rfl
  | array h ih => exact reads_array h ih
  | object h ih => exact reads_object h ih

theorem endsNumber_of_blank {blank : String} (h : IsBlank blank) : EndsNumber blank.toList := by
  intro c hc
  have hspace := h c (List.mem_of_mem_head? hc)
  simp only [isSpace, Bool.or_eq_true, beq_iff_eq] at hspace
  rcases hspace with ((rfl | rfl) | rfl) | rfl <;> decide

/-- What is printed over several lines is read back, whatever blanks follow. -/
theorem IsWhole.read?_pretty_append (h : j.IsWhole) {blank : String} (hblank : IsBlank blank) :
    read? (j.pretty ++ blank) = some j := by
  obtain ⟨c, cs, htext, hspace, _⟩ := h.head ""
  have hskip : skipSpaces (j.pretty ++ blank).toList = (j.pretty ++ blank).toList := by
    rw [String.toList_append, pretty, htext, List.cons_append, skipSpaces_cons hspace]
  have hrest : skipSpaces (blank.toList ++ []) = [] := skipSpaces_append hblank
  rw [List.append_nil] at hrest
  have hread := h.reads "" (by simp [IsBlank]) (2 * (j.pretty ++ blank).toList.length + 2)
    blank.toList (by rw [pretty, String.toList_append, List.length_append]; omega)
    (endsNumber_of_blank hblank)
  unfold read?
  dsimp only
  rw [hskip]
  rw [pretty, String.toList_append] at hread ⊢
  rw [hread]
  simp [hrest]

theorem IsWhole.read?_pretty (h : j.IsWhole) : read? j.pretty = some j := by
  have hread := h.read?_pretty_append (by simp [IsBlank] : IsBlank "")
  rwa [String.append_empty] at hread

end

end XPathTaint.Json
