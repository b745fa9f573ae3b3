import Mathlib.Tactic.Common
import XPathTaint.Files.Exclusion

-- Which texts a pattern matches: those that fall into parts, one for each step. A pattern that
-- begins with a run matches from any place on that no line feed stands before.

namespace XPathTaint

/-! ## Parts -/

/-- The parts of a text that a step stands for. -/
structure PatternStep.Takes (s : PatternStep) (part : List Char) : Prop where
  accepted : ∀ c ∈ part, s.accepts c = true
  single : s.repeats = false → part.length = 1

namespace PatternStep

variable {s : PatternStep} {c : Char} {part : List Char}

theorem takes_nil : s.Takes [] ↔ s.repeats = true := by
  constructor
  · intro h
    by_contra hsingle
    cases h.single (Bool.eq_false_iff.mpr hsingle)
  · intro h
    exact ⟨by simp, by simp [h]⟩

theorem takes_cons : s.Takes (c :: part) ↔
    s.accepts c = true ∧ (if s.repeats then s.Takes part else part = []) := by
  constructor
  · intro h
    refine ⟨h.accepted c List.mem_cons_self, ?_⟩
    split
    · rename_i hrepeats
      exact ⟨fun d hd => h.accepted d (List.mem_cons_of_mem c hd), by simp [hrepeats]⟩
    · rename_i hsingle
      simpa using h.single (Bool.eq_false_iff.mpr hsingle)
  · rintro ⟨hc, hpart⟩
    split at hpart
    · rename_i hrepeats
      exact ⟨List.forall_mem_cons.mpr ⟨hc, hpart.accepted⟩, by simp [hrepeats]⟩
    · rename_i hsingle
      subst hpart
      exact ⟨by simpa using hc, fun _ => rfl⟩

end PatternStep

namespace Pattern

/-- A pattern matches the texts that fall into one part for each step. -/
def Matches : Pattern → List Char → Prop
  | [], text => text = []
  | s :: p, text => ∃ part rest, text = part ++ rest ∧ s.Takes part ∧ Matches p rest

variable {s : PatternStep} {p q : Pattern} {c : Char} {cs text before after : List Char}

@[simp] theorem matches_nil : Matches [] text ↔ text = [] := Iff.rfl

theorem matches_cons_nil : Matches (s :: p) [] ↔ s.repeats = true ∧ p.Matches [] := by
  constructor
  · rintro ⟨part, rest, hsplit, htakes, hrest⟩
    obtain ⟨rfl, rfl⟩ := List.append_eq_nil_iff.mp hsplit.symm
    exact ⟨PatternStep.takes_nil.mp htakes, hrest⟩
  · rintro ⟨hrepeats, hrest⟩
    exact ⟨[], [], rfl, PatternStep.takes_nil.mpr hrepeats, hrest⟩

/-- At a character a step either is done with or takes it. -/
theorem matches_cons_cons : Matches (s :: p) (c :: cs) ↔
    (s.repeats = true ∧ p.Matches (c :: cs)) ∨
      (s.accepts c = true ∧ (if s.repeats then Matches (s :: p) cs else p.Matches cs)) := by
  constructor
  · rintro ⟨part, rest, hsplit, htakes, hrest⟩
    cases part with
    | nil =>
      obtain rfl : c :: cs = rest := hsplit
      exact .inl ⟨PatternStep.takes_nil.mp htakes, hrest⟩
    | cons d part =>
      obtain ⟨rfl, rfl⟩ := List.cons.inj hsplit
      obtain ⟨hc, hpart⟩ := PatternStep.takes_cons.mp htakes
      refine .inr ⟨hc, ?_⟩
      split
      · rename_i hrepeats
        exact ⟨part, rest, rfl, by simpa [hrepeats] using hpart, hrest⟩
      · rename_i hsingle
        obtain rfl : part = [] := by simpa [hsingle] using hpart
        exact hrest
  · rintro (⟨hrepeats, hrest⟩ | ⟨hc, hrest⟩)
    · exact ⟨[], c :: cs, rfl, PatternStep.takes_nil.mpr hrepeats, hrest⟩
    · split at hrest
      · rename_i hrepeats
        obtain ⟨part, rest, rfl, htakes, hrest⟩ := hrest
        exact ⟨c :: part, rest, rfl, PatternStep.takes_cons.mpr ⟨hc, by simpa [hrepeats]⟩, hrest⟩
      · rename_i hsingle
        exact ⟨[c], cs, rfl, PatternStep.takes_cons.mpr ⟨hc, by simp [hsingle]⟩, hrest⟩

/-! ## Rows -/

/-- The row of a text holds, behind its head, the row of the rest. -/
theorem row_tail (p : Pattern) (c : Char) (cs : List Char) : (row p (c :: cs)).tail = row p cs := by
  induction p with
  | nil => rfl
  | cons s p ih => exact congrArg (s.row cs) ih

/-- The head of a row says whether the whole text matches. -/
theorem row_head_iff : (row p text).headD false = true ↔ p.Matches text := by
  induction p generalizing text with
  | nil => cases text <;> simp [row]
  | cons s p ih =>
    induction text with
    | nil =>
      rw [matches_cons_nil, ← ih]
      simp [row, PatternStep.row]
    | cons c cs ihcs =>
      have hrow : (row (s :: p) (c :: cs)).headD false =
          ((s.repeats && (row p (c :: cs)).headD false) || (s.accepts c &&
            (if s.repeats then row (s :: p) cs else row p cs).headD false)) := by
        simp only [row, PatternStep.row, List.headD_cons, row_tail]
      rw [hrow, matches_cons_cons, ← ih]
      cases s.repeats
      · simpa using fun _ => ih
      · simpa using or_congr_right (and_congr_right' ihcs)

theorem matches?_iff {path : String} : p.matches? path = true ↔ p.Matches path.toList :=
  row_head_iff

instance (p : Pattern) (text : List Char) : Decidable (p.Matches text) :=
  decidable_of_iff _ row_head_iff

/-! ## Runs -/

/-- What follows a run matches from a place on that no line feed stands before. -/
theorem matches_run_iff : Matches (.run :: q) text ↔
    ∃ before after, text = before ++ after ∧ '\n' ∉ before ∧ q.Matches after := by
  have htakes : ∀ part, PatternStep.run.Takes part ↔ '\n' ∉ part := by
    intro part
    constructor
    · intro h hmem
      cases h.accepted _ hmem
    · intro h
      refine ⟨fun c hc => ?_, nofun⟩
      have hne : c ≠ '\n' := fun heq => h (heq ▸ hc)
      simpa [PatternStep.accepts] using hne
  simp only [Matches, htakes]

/-- Whether what follows the first step of a pattern matches a text from one of the places in its
first part on. -/
def CatchesFrom (p : Pattern) (first rest : List Char) : Prop :=
  ∃ n, n < first.length ∧ '\n' ∉ first.take n ∧ Matches p.tail (first.drop n ++ rest)

instance (p : Pattern) (first rest : List Char) : Decidable (p.CatchesFrom first rest) :=
  inferInstanceAs (Decidable (∃ n, n < first.length ∧ _))

/-- A text in two parts is matched from a place in the first part on, or from one in the second. -/
theorem matches_append_iff {first rest : List Char} : Matches (.run :: q) (first ++ rest) ↔
    CatchesFrom (.run :: q) first rest ∨ ('\n' ∉ first ∧ Matches (.run :: q) rest) := by
  rw [matches_run_iff, matches_run_iff]
  constructor
  · rintro ⟨before, after, hsplit, hbefore, hafter⟩
    rcases List.append_eq_append_iff.mp hsplit with ⟨more, rfl, rfl⟩ | ⟨more, rfl, rfl⟩
    · refine .inr ⟨fun h => hbefore (List.mem_append_left more h), more, after, rfl, ?_, hafter⟩
      exact fun h => hbefore (List.mem_append_right first h)
    · cases more with
      | nil =>
        rw [List.append_nil]
        exact .inr ⟨hbefore, [], rest, rfl, by simp, hafter⟩
      | cons c more => exact .inl ⟨before.length, by simp, by simpa using hbefore, by simpa⟩
  · rintro (⟨n, _, hbefore, hafter⟩ | ⟨hfirst, before, after, rfl, hbefore, hafter⟩)
    · refine ⟨first.take n, first.drop n ++ rest, ?_, hbefore, hafter⟩
      rw [← List.append_assoc, List.take_append_drop]
    · exact ⟨first ++ before, after, (List.append_assoc ..).symm, by simp [hfirst, hbefore], hafter⟩

end Pattern

end XPathTaint
