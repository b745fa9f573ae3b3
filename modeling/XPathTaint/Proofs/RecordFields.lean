import XPathTaint.Json.Record
import XPathTaint.Proofs.JsonText

-- Fields of records that were written with one member for each name: each field is read as the
-- value that stands under its name, and lists are read item by item.

namespace XPathTaint

namespace Record

variable {α : Type} {members : List (String × α)}

/-- Where no name stands twice, a field is what stands under its name. -/
theorem uniqueField_eq (h : (members.map (·.1)).Nodup) (name : String) :
    uniqueField members name = some (members.lookup name) := by
  have hfilter : members.filter (fun m => m.1 == name) =
      ((members.lookup name).map fun value => (name, value)).toList := by
    induction members with
    | nil => rfl
    | cons m rest ih =>
      obtain ⟨key, value⟩ := m
      rw [List.map_cons, List.nodup_cons] at h
      by_cases hkey : key = name
      · subst hkey
        have hrest : rest.filter (fun m => m.1 == key) = [] := by
          rw [List.filter_eq_nil_iff]
          rintro m hm hsame
          exact h.1 (List.mem_map.mpr ⟨m, hm, by simpa using hsame⟩)
        simp [hrest]
      · have hother : (name == key) = false := by simpa using Ne.symm hkey
        simp [List.lookup_cons, hkey, hother, ih h.2]
  unfold uniqueField
  rw [hfilter]
  cases members.lookup name <;> rfl

theorem ofMembers?_eq (h : (members.map (·.1)).Nodup) (names : List String) :
    ofMembers? names false members = some (names.map fun name => members.lookup name) := by
  have hfields : uniqueField members = fun name => some (members.lookup name) :=
    funext (uniqueField_eq h)
  unfold ofMembers?
  rw [hfields]
  exact List.mapM_pure

end Record

namespace Json

variable {α : Type} {members : List (String × Json)}

theorem fields?_object (h : (members.map (·.1)).Nodup) (names : List String) (least : Nat) :
    fields? names least false (.object members) =
      some (names.map fun name => members.lookup name) :=
  Record.ofMembers?_eq h names

/-! ## Whole values -/

@[simp]
theorem isWhole_null : IsWhole .null := .null

@[simp]
theorem isWhole_bool (b : Bool) : IsWhole (.bool b) := .bool b

@[simp]
theorem isWhole_string (s : String) : IsWhole (.string s) := .string s

@[simp]
theorem isWhole_stringOrNull (s : Option String) : IsWhole (stringOrNull s) := by
  cases s with
  | none => exact .null
  | some s => exact .string s

@[simp]
theorem isWhole_array_iff {items : List Json} :
    IsWhole (.array items) ↔ ∀ j ∈ items, IsWhole j := by
  refine ⟨fun h => ?_, .array⟩
  cases h
  assumption

theorem isWhole_map {write : α → Json} {items : List α} (h : ∀ x ∈ items, (write x).IsWhole) :
    IsWhole (.array (items.map write)) := by
  simpa using h

@[simp]
theorem isWhole_object_iff : IsWhole (.object members) ↔ ∀ m ∈ members, IsWhole m.2 := by
  refine ⟨fun h => ?_, .object⟩
  cases h
  assumption

/-! ## Values of fields -/

@[simp]
theorem asString?_string (s : String) : asString? (.string s) = some s := rfl

@[simp]
theorem asBool?_bool (b : Bool) : asBool? (.bool b) = some b := rfl

theorem asNat?_nat {n : Nat} (h : n < UInt64.size) : asNat? (.nat n) = some n := if_pos h

@[simp]
theorem required_some (value : Json → Option α) (j : Json) : required value (some j) = value j :=
  rfl

@[simp]
theorem withDefault_some (default : α) (value : Json → Option α) (j : Json) :
    withDefault default value (some j) = value j :=
  rfl

@[simp]
theorem optional_none (value : Json → Option α) : optional value none = some none := rfl

/-- A value that may lack is read back if it does not look as if it lacked. -/
theorem optional_map {read : Json → Option α} {write : α → Json} {value : Option α}
    (h : ∀ x ∈ value, read (write x) = some x ∧ write x ≠ .null) :
    optional read (some ((value.map write).getD .null)) = some value := by
  cases value with
  | none => rfl
  | some x =>
    obtain ⟨hread, hnull⟩ := h x rfl
    rw [optional, Option.map_some, Option.getD_some]
    show asOption? read (write x) = some (some x)
    unfold asOption?
    split
    · exact absurd ‹_› hnull
    · rw [hread, Option.map_some]

@[simp]
theorem optional_string (s : String) : optional asString? (some (.string s)) = some (some s) := rfl

@[simp]
theorem optional_stringOrNull (s : Option String) :
    optional asString? (some (stringOrNull s)) = some s := by
  cases s <;> rfl

/-! ## Lists -/

/-- Items are read back as they were written if each of them is. -/
theorem mapM_map_of_read {β : Type} {read : β → Option α} {write : α → β} {items : List α}
    (h : ∀ x ∈ items, read (write x) = some x) : (items.map write).mapM read = some items := by
  induction items with
  | nil => rfl
  | cons x rest ih =>
    have hrest := ih fun y hy => h y (List.mem_cons_of_mem _ hy)
    rw [List.map_cons, List.mapM_cons, h x (by simp), hrest]
    rfl

theorem asList?_map {read : Json → Option α} {write : α → Json} {items : List α}
    (h : ∀ x ∈ items, read (write x) = some x) :
    asList? read (.array (items.map write)) = some items :=
  mapM_map_of_read h

end Json

end XPathTaint
