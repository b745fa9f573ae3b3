import Mathlib.Data.List.Induction
import Mathlib.Data.List.Nodup
import XPathTaint.Scan.Preferences

-- Catalogs that are merged and a registry that is extended by one catalog after another: both add
-- what is new and nothing twice, so it does not matter which of the two is done first. What a
-- registry holds in the end is told by the catalogs one behind the other.

namespace XPathTaint

/-! ## Adding what is new -/

section

variable {items added builtIn : List String} {item : String}

theorem addNew_of_mem (h : item ∈ items) : addNew items item = items := by
  unfold addNew
  exact if_pos (List.contains_iff_mem.mpr h)

theorem addNew_of_not_mem (h : item ∉ items) : addNew items item = items ++ [item] := by
  unfold addNew
  exact if_neg (mt List.contains_iff_mem.mp h)

theorem extendNew_append (items added more : List String) :
    extendNew items (added ++ more) = extendNew (extendNew items added) more :=
  List.foldl_append

theorem extendNew_addNew (items added : List String) (item : String) :
    extendNew items (addNew added item) = addNew (extendNew items added) item := by
  by_cases h : item ∈ added
  · rw [addNew_of_mem h, addNew_of_mem (mem_extendNew.mpr (Or.inr h))]
  · rw [addNew_of_not_mem h, extendNew_append]
    rfl

/-- To add a list that was extended is to add the list and then what extended it. -/
theorem extendNew_extendNew (items added more : List String) :
    extendNew items (extendNew added more) = extendNew (extendNew items added) more := by
  induction more generalizing added with
  | nil => rfl
  | cons item more ih =>
    calc extendNew items (extendNew (addNew added item) more)
      _ = extendNew (extendNew items (addNew added item)) more := ih (addNew added item)
      _ = extendNew (addNew (extendNew items added) item) more := by rw [extendNew_addNew]

/-- A list without repetition that starts with the built-in entries; the others are those that were
added and are not built in, in the order in which they first occur. -/
structure GrownFrom (builtIn added list : List String) : Prop where
  nodup : list.Nodup
  new : ∃ new, list = builtIn ++ new ∧ (∀ x, x ∈ new ↔ x ∈ added ∧ x ∉ builtIn) ∧
    new.Pairwise fun x y => added.idxOf x < added.idxOf y

theorem GrownFrom.addNew {list : List String} (h : GrownFrom builtIn added list) (item : String) :
    GrownFrom builtIn (added ++ [item]) (addNew list item) := by
  obtain ⟨hnodup, new, rfl, hmem, horder⟩ := h
  -- Places in what was added stay the same when one more item comes behind it.
  have hplaces : new.Pairwise fun x y => (added ++ [item]).idxOf x < (added ++ [item]).idxOf y := by
    refine horder.imp_of_mem fun hx hy hlt => ?_
    rwa [List.idxOf_append_of_mem ((hmem _).mp hx).1, List.idxOf_append_of_mem ((hmem _).mp hy).1]
  by_cases hknown : item ∈ builtIn ++ new
  · rw [addNew_of_mem hknown]
    refine ⟨hnodup, new, rfl, fun x => ?_, hplaces⟩
    have hitem : item ∈ added ∨ item ∈ builtIn :=
      (List.mem_append.mp hknown).elim .inr fun h => .inl ((hmem item).mp h).1
    rw [hmem x, List.mem_append, List.mem_singleton]
    constructor
    · exact fun ⟨hx, hout⟩ => ⟨.inl hx, hout⟩
    · rintro ⟨hx | rfl, hout⟩
      · exact ⟨hx, hout⟩
      · exact ⟨hitem.resolve_right hout, hout⟩
  · rw [addNew_of_not_mem hknown, List.append_assoc]
    have hout : item ∉ builtIn := fun h => hknown (List.mem_append_left new h)
    have hfresh : item ∉ added := fun h =>
      hknown (List.mem_append_right builtIn ((hmem item).mpr ⟨h, hout⟩))
    refine ⟨?_, new ++ [item], rfl, fun x => ?_, ?_⟩
    · rw [← List.append_assoc]
      exact List.nodup_append.mpr ⟨hnodup, List.nodup_singleton item, by
        rintro x hx y hy rfl
        exact hknown (List.mem_singleton.mp hy ▸ hx)⟩
    · rw [List.mem_append, List.mem_append, List.mem_singleton, hmem x]
      constructor
      · rintro (⟨hx, hxout⟩ | rfl)
        · exact ⟨.inl hx, hxout⟩
        · exact ⟨.inr rfl, hout⟩
      · rintro ⟨hx | rfl, hxout⟩
        · exact .inl ⟨hx, hxout⟩
        · exact .inr rfl
    · refine List.pairwise_append.mpr ⟨hplaces, List.pairwise_singleton _ _, fun x hx y hy => ?_⟩
      obtain rfl := List.mem_singleton.mp hy
      have hold : x ∈ added := ((hmem x).mp hx).1
      rw [List.idxOf_append_of_mem hold, List.idxOf_append_of_notMem hfresh]
      exact Nat.lt_of_lt_of_le (List.idxOf_lt_length_of_mem hold) (Nat.le_add_right ..)

theorem grownFrom_extendNew (h : builtIn.Nodup) (added : List String) :
    GrownFrom builtIn added (extendNew builtIn added) := by
  induction added using List.reverseRecOn with
  | nil => exact ⟨h, [], by simp [extendNew], by simp, .nil⟩
  | append_singleton added item ih =>
    rw [extendNew_append]
    exact ih.addNew item

end

/-! ## Catalogs and registries -/

theorem Catalog.merge_assoc (a b c : Catalog) : (a.merge b).merge c = a.merge (b.merge c) := by
  simp only [merge, extendNew_extendNew, Option.or_assoc]

namespace Registry

/-- To extend a registry by a merged catalog is to extend it by one catalog after the other. -/
theorem extend_merge (reg : Registry) (a b : Catalog) :
    reg.extend (a.merge b) = (reg.extend a).extend b := by
  have hseverity : (b.severity.or a.severity).getD reg.severity =
      b.severity.getD (a.severity.getD reg.severity) := by
    cases b.severity <;> rfl
  simp only [extend, Catalog.merge, extendNew_extendNew, hseverity]

theorem extend_empty_merge (reg : Registry) (c : Catalog) :
    reg.extend (Catalog.empty.merge c) = reg.extend c :=
  reg.extend_merge .empty c

/-- A registry as catalogs one behind the other make it of the built-in one: each list holds what is
built in and then what they add, and the last severity that one of them sets counts. -/
structure IsMadeBy (catalogs : List Catalog) (reg : Registry) : Prop where
  requestObjects : GrownFrom builtin.requestObjects (catalogs.flatMap Catalog.requestObjects)
    reg.requestObjects
  surfaces : GrownFrom builtin.surfaces (catalogs.flatMap Catalog.surfaces) reg.surfaces
  xmlLibraries : GrownFrom builtin.xmlLibraries (catalogs.flatMap Catalog.xmlLibraries)
    reg.xmlLibraries
  sanitizers : GrownFrom builtin.sanitizers (catalogs.flatMap Catalog.sanitizers) reg.sanitizers
  severity : reg.severity = (catalogs.filterMap Catalog.severity).getLast?.getD builtin.severity

/-- One catalog with all that several hold, one behind the other. -/
def joined (catalogs : List Catalog) : Catalog :=
  { requestObjects := catalogs.flatMap Catalog.requestObjects
    surfaces := catalogs.flatMap Catalog.surfaces
    xmlLibraries := catalogs.flatMap Catalog.xmlLibraries
    sanitizers := catalogs.flatMap Catalog.sanitizers
    severity := (catalogs.filterMap Catalog.severity).getLast? }

theorem extend_joined_concat (reg : Registry) (catalogs : List Catalog) (c : Catalog) :
    reg.extend (joined (catalogs ++ [c])) = (reg.extend (joined catalogs)).extend c := by
  have hseverity : ((catalogs ++ [c]).filterMap Catalog.severity).getLast? =
      c.severity.or (catalogs.filterMap Catalog.severity).getLast? := by
    rw [List.filterMap_append, List.getLast?_append]
    cases hc : c.severity <;> simp [hc]
  simp only [extend, joined, List.flatMap_append, List.flatMap_singleton, extendNew_append,
    hseverity]
  cases c.severity <;> rfl

/-- Extensions one after the other add what the catalogs hold one behind the other. -/
theorem foldl_extend (reg : Registry) (catalogs : List Catalog) :
    catalogs.foldl extend reg = reg.extend (joined catalogs) := by
  induction catalogs using List.reverseRecOn with
  | nil => rfl
  | append_singleton catalogs c ih =>
    rw [List.foldl_append, ih, extend_joined_concat]
    rfl

theorem isMadeBy_foldl_extend (catalogs : List Catalog) :
    (catalogs.foldl extend builtin).IsMadeBy catalogs := by
  rw [foldl_extend]
  exact
    { requestObjects := grownFrom_extendNew (by decide) _
      surfaces := grownFrom_extendNew (by decide) _
      xmlLibraries := grownFrom_extendNew (by decide) _
      sanitizers := grownFrom_extendNew (by decide) _
      severity := rfl }

end Registry

/-- A registry made of merged catalogs is the built-in one extended by each of them in turn, and to
merge is associative. After any extensions each list holds the built-in entries and then the new
ones as they first came, and the last severity that was set counts. So a scan knows what extending
the built-in registry by the catalog of the preferences and then by the one at a path gives. -/
theorem merged_catalogs_extend_as_their_parts_do :
    (∀ a b : Catalog, Registry.ofCatalog (a.merge b) = (Registry.builtin.extend a).extend b) ∧
      (∀ a b c : Catalog, (a.merge b).merge c = a.merge (b.merge c)) ∧
      (∀ catalogs : List Catalog,
        (catalogs.foldl Registry.extend .builtin).IsMadeBy catalogs) ∧
      ∀ (t : Files.Tree) (own : Scan.Preferences) (bytes : String → ByteArray),
        own.registry t none bytes = .ok (Registry.builtin.extend own.catalog) ∧
          ∀ path, own.registry t (some path) bytes = (Catalog.load t path bytes).map fun found =>
            (Registry.builtin.extend own.catalog).extend found := by
  refine ⟨Registry.builtin.extend_merge, Catalog.merge_assoc, Registry.isMadeBy_foldl_extend,
    fun t own bytes => ⟨?_, fun path => ?_⟩⟩
  · exact congrArg Except.ok (Registry.builtin.extend_empty_merge own.catalog)
  · unfold Scan.Preferences.registry
    dsimp only
    cases Catalog.load t path bytes with
    | error fault => rfl
    | ok found =>
      refine congrArg Except.ok ?_
      rw [Registry.ofCatalog, Registry.extend_merge, Registry.extend_empty_merge]

end XPathTaint
