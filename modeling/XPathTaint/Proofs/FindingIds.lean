import Mathlib.Tactic.Common
import Std.Data.String.ToNat
import XPathTaint.Finding.Analysis

-- What ids say about findings. The text behind an id can be read back from its end, where
-- line and column are plain numbers, so findings with one such text have one place.

namespace XPathTaint

/-! ## The texts of places -/

/-- The text of which the id of a finding is the digest. -/
def placeText (file : String) (line column : Nat) : String :=
  ":".intercalate [ruleId, file, toString line, toString column]

theorem findingId_eq (file : String) (line column : Nat) :
    findingId file line column = Blake3.digestText (placeText file line column) := rfl

theorem toList_placeText (file : String) (line column : Nat) :
    (placeText file line column).toList = ((ruleId.toList ++ ':' :: file.toList) ++
      ':' :: (toString line).toList) ++ ':' :: (toString column).toList := by
  simp [placeText, String.intercalate_cons_cons]

/-- The last mark in a text divides it in one way. -/
theorem append_mark_inj {c : Char} {as bs xs ys : List Char} (hx : c ∉ xs) (hy : c ∉ ys)
    (h : as ++ c :: xs = bs ++ c :: ys) : as = bs ∧ xs = ys := by
  rcases List.append_eq_append_iff.mp h with ⟨more, hbs, hmore⟩ | ⟨more, has, hmore⟩
  · cases more with
    | nil => simp_all
    | cons d more =>
      simp only [List.cons_append, List.cons.injEq] at hmore
      exact absurd (by simp [hmore.2]) hx
  · cases more with
    | nil => simp_all
    | cons d more =>
      simp only [List.cons_append, List.cons.injEq] at hmore
      exact absurd (by simp [hmore.2]) hy

theorem colon_notMem_number (n : Nat) : ':' ∉ (toString n).toList := by
  intro h
  have hdigits : (toString n).toList = Nat.toDigits 10 n := Nat.toList_repr
  rw [hdigits] at h
  have hdigit := Nat.isDigit_of_mem_toDigits (by decide) (by decide) h
  simp at hdigit

theorem number_inj {m n : Nat} (h : (toString m).toList = (toString n).toList) : m = n :=
  Nat.repr_injective (String.toList_injective h)

/-- A text belongs to one place. -/
theorem placeText_inj {file file' : String} {line line' column column' : Nat}
    (h : placeText file line column = placeText file' line' column') :
    file = file' ∧ line = line' ∧ column = column' := by
  have hchars := congrArg String.toList h
  rw [toList_placeText, toList_placeText] at hchars
  obtain ⟨hfront, hcolumn⟩ :=
    append_mark_inj (colon_notMem_number column) (colon_notMem_number column') hchars
  obtain ⟨hfront, hline⟩ :=
    append_mark_inj (colon_notMem_number line) (colon_notMem_number line') hfront
  have hfile := List.append_cancel_left hfront
  rw [List.cons.injEq] at hfile
  exact ⟨String.toList_injective hfile.2, number_inj hline, number_inj hcolumn⟩

end XPathTaint
