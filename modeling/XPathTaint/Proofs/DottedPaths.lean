import XPathTaint.Facts.Symbols
import XPathTaint.Proofs.PathNames
import XPathTaint.Taint.Source

-- Paths of names between dots. A path is what its segments join to; resolving the first name of a
-- path leaves what stands behind it alone, so the canonical path of a member is that of its object
-- with one segment more, and cutting that segment off leads back to the object.

namespace XPathTaint

/-! ## Pieces -/

namespace Text

variable {mark : Char} {cs piece : List Char}

theorem splitAtChar_ne_nil (mark : Char) (cs : List Char) : splitAtChar mark cs ≠ [] := by
  cases cs with
  | nil => simp [splitAtChar]
  | cons c rest =>
    rw [splitAtChar]
    split
    · simp
    · split <;> simp

/-- A mark in a text parts its pieces. -/
theorem splitAtChar_at_mark (front rest : List Char) :
    splitAtChar mark (front ++ mark :: rest) = splitAtChar mark front ++ splitAtChar mark rest := by
  induction front with
  | nil => simp [splitAtChar]
  | cons c front ih =>
    rw [List.cons_append, splitAtChar, splitAtChar, ih]
    split
    · rfl
    · cases h : splitAtChar mark front with
      | nil => exact absurd h (splitAtChar_ne_nil mark front)
      | cons first pieces => rfl

theorem not_mem_of_mem_splitAtChar (h : piece ∈ splitAtChar mark cs) : mark ∉ piece := by
  induction cs generalizing piece with
  | nil =>
    obtain rfl : piece = [] := by simpa [splitAtChar] using h
    exact List.not_mem_nil
  | cons c rest ih =>
    rw [splitAtChar] at h
    split at h
    · rcases List.mem_cons.mp h with rfl | h
      · exact List.not_mem_nil
      · exact ih h
    · rename_i hc
      split at h
      · rename_i hnil
        exact absurd hnil (splitAtChar_ne_nil mark rest)
      · rename_i first pieces hpieces
        have hfirst : mark ∉ first := ih (hpieces ▸ List.mem_cons_self)
        rcases List.mem_cons.mp h with rfl | h
        · exact fun hmem => (List.mem_cons.mp hmem).elim (fun heq => hc heq.symm) hfirst
        · exact ih (hpieces ▸ List.mem_cons_of_mem first h)

/-- The pieces of a text join to the text. -/
theorem intercalate_splitAtChar (mark : Char) (cs : List Char) :
    [mark].intercalate (splitAtChar mark cs) = cs := by
  induction cs with
  | nil => rfl
  | cons c rest ih =>
    rw [splitAtChar]
    cases h : splitAtChar mark rest with
    | nil => exact absurd h (splitAtChar_ne_nil mark rest)
    | cons first pieces =>
      rw [h] at ih
      split
      · rename_i hc
        rw [List.intercalate_cons_cons, ih, hc]
        rfl
      · cases pieces with
        | nil =>
          rw [List.intercalate_singleton] at ih ⊢
          rw [ih]
        | cons second pieces =>
          rw [List.intercalate_cons_cons] at ih ⊢
          rw [← ih]
          rfl

/-! ## Segments -/

/-- A text that is a single segment of a path. -/
def IsSegment (s : String) : Prop := '.' ∉ s.toList

instance (s : String) : Decidable (IsSegment s) := inferInstanceAs (Decidable (¬ _))

theorem segments_ne_nil (path : String) : segments path ≠ [] := by
  simp [segments, splitAtChar_ne_nil]

theorem segments_append (path rest : String) :
    segments (path ++ "." ++ rest) = segments path ++ segments rest := by
  have hchars : (path ++ "." ++ rest).toList = path.toList ++ '.' :: rest.toList := by simp
  rw [segments, hchars, splitAtChar_at_mark, List.map_append]
  rfl

theorem segments_of_isSegment {s : String} (h : IsSegment s) : segments s = [s] := by
  rw [segments, splitAtChar_plain h]
  simp

theorem isSegment_of_mem_segments {path s : String} (h : s ∈ segments path) : IsSegment s := by
  obtain ⟨piece, hpiece, rfl⟩ := List.mem_map.mp h
  simpa [IsSegment] using not_mem_of_mem_splitAtChar hpiece

@[simp] theorem intercalate_segments (path : String) : ".".intercalate (segments path) = path := by
  apply String.toList_injective
  rw [String.toList_intercalate, segments, List.map_map]
  have hpieces : (String.toList ∘ String.ofList) = id := by
    funext piece
    simp
  rw [hpieces, List.map_id]
  exact intercalate_splitAtChar '.' path.toList

end Text

/-! ## The last segment -/

open Text

theorem splitLast_append {object member : String} (h : IsSegment member) :
    splitLast (object ++ "." ++ member) = some (object, member) := by
  unfold splitLast
  rw [segments_append, segments_of_isSegment h, List.reverse_append]
  cases hobject : (segments object).reverse with
  | nil => exact absurd (List.reverse_eq_nil_iff.mp hobject) (segments_ne_nil object)
  | cons last rest =>
    simp [List.reverse_cons, ← List.reverse_eq_cons_iff.mp hobject]

theorem splitLast_eq_some_iff {path object member : String} :
    splitLast path = some (object, member) ↔ path = object ++ "." ++ member ∧ IsSegment member := by
  constructor
  · intro h
    unfold splitLast at h
    split at h
    · rename_i last next rest hreverse
      obtain ⟨rfl, rfl⟩ : ".".intercalate (next :: rest).reverse = object ∧ last = member := by
        simpa using h
      have hsegments : segments path = (next :: rest).reverse ++ [last] :=
        List.reverse_eq_cons_iff.mp hreverse
      have hlast : last ∈ segments path := by simp [hsegments]
      refine ⟨?_, isSegment_of_mem_segments hlast⟩
      rw [← intercalate_segments path, hsegments,
        String.intercalate_append_of_ne_nil (by simp) (by simp), String.intercalate_singleton]
    · cases h
  · rintro ⟨rfl, hmember⟩
    exact splitLast_append hmember

/-! ## Canonical paths -/

/-- The canonical path of a longer path is that of its front, with the rest behind it. -/
theorem Symbols.canonical_append (symbols : Symbols) (path rest : String) :
    symbols.canonical (path ++ "." ++ rest) = symbols.canonical path ++ "." ++ rest := by
  unfold canonical
  rw [segments_append]
  cases h : segments path with
  | nil => exact absurd h (segments_ne_nil path)
  | cons head tail =>
    rw [List.cons_append]
    dsimp only
    rw [← List.cons_append,
      String.intercalate_append_of_ne_nil (List.cons_ne_nil _ _) (segments_ne_nil rest),
      intercalate_segments]

theorem canonicalOf_member (symbols : Symbols) {object : Expr} {path : String} (attr : String)
    (o : Origin) (h : canonicalOf symbols object = some path) :
    canonicalOf symbols (.member object attr o) = some (path ++ "." ++ attr) := by
  obtain ⟨base, hbase, rfl⟩ := Option.map_eq_some_iff.mp h
  rw [canonicalOf, Expr.dotted, hbase, Option.map_some, Option.map_some, Symbols.canonical_append]

end XPathTaint
