import Mathlib.Data.Finset.Card
import Mathlib.Data.List.Nodup
import Mathlib.Tactic.Common
import XPathTaint.Facts.Symbols

-- Where the aliases of a name lead. A name is looked up, then what it stands for, until a name
-- stands for nothing else or was met before. No name is looked up twice, so the table bounds the
-- number of lookups, whatever cycles it has.

namespace XPathTaint.Symbols

/-! ## Links -/

/-- What a name stands for after a number of links, if there are so many. -/
def linked? (symbols : Symbols) (name : String) : (links : Nat) → Option String
  | 0 => some name
  | links + 1 => (symbols.linked? name links).bind symbols.target?

/-- The links from a name come back to a name that they met before. -/
def IsCyclic (symbols : Symbols) (name : String) : Prop :=
  ∃ i j met, i < j ∧ symbols.linked? name i = some met ∧ symbols.linked? name j = some met

/-- The links from a name meet a name for the second time, and no other one before. -/
def MeetsAgainFirst (symbols : Symbols) (name met : String) : Prop :=
  ∃ i j, i < j ∧ symbols.linked? name i = some met ∧ symbols.linked? name j = some met ∧
    ∀ k l, k < l → l < j → symbols.linked? name k ≠ symbols.linked? name l

/-- The names that have a symbol. -/
def names (symbols : Symbols) : Finset String := (symbols.map (·.1)).toFinset

/-- The names that a search along the links looks up from `current` on, given those that it has
met, and the name that it ends with. Nothing bounds the number of lookups here. -/
inductive LooksUp (symbols : Symbols) : List String → String → List String → String → Prop
  | stop {met : List String} {current : String} : symbols.target? current = none →
      LooksUp symbols met current [current] current
  | again {met : List String} {current next : String} : symbols.target? current = some next →
      next ∈ met → LooksUp symbols met current [current] next
  | on {met looked : List String} {current next result : String} :
      symbols.target? current = some next → next ∉ met →
      LooksUp symbols (next :: met) next looked result →
      LooksUp symbols met current (current :: looked) result

section

variable {symbols : Symbols} {name current next result : String} {met looked : List String}

theorem mem_names_of_target? (h : symbols.target? name = some next) : name ∈ symbols.names := by
  unfold target? get? at h
  obtain ⟨symbol, hget, _⟩ := Option.bind_eq_some_iff.mp h
  obtain ⟨entry, hfind, _⟩ := Option.map_eq_some_iff.mp hget
  have hname : entry.1 = name := by simpa using List.find?_some hfind
  rw [names, List.mem_toFinset, List.mem_map]
  exact ⟨entry, List.mem_of_find?_eq_some hfind, hname⟩

theorem MeetsAgainFirst.isCyclic (h : symbols.MeetsAgainFirst name next) :
    symbols.IsCyclic name := by
  obtain ⟨i, j, hij, hi, hj, _⟩ := h
  exact ⟨i, j, next, hij, hi, hj⟩

/-- A search along the links can go one way only. -/
theorem LooksUp.unique (h : LooksUp symbols met current looked result) {looked' : List String}
    {result' : String} (h' : LooksUp symbols met current looked' result') :
    looked' = looked ∧ result' = result := by
  induction h generalizing looked' result' with
  | stop hnone => cases h' <;> simp_all
  | again hnext hmet => cases h' <;> simp_all
  | on hnext hmet _ ih =>
    cases h' with
    | stop hnone => simp_all
    | again hnext' hmet' => simp_all
    | on hnext' _ hrest =>
      obtain rfl := Option.some.inj (hnext.symm.trans hnext')
      obtain ⟨rfl, rfl⟩ := ih hrest
      exact ⟨rfl, rfl⟩

/-! ## Trails -/

/-- The names that the links from a name lead to, the last one first. -/
inductive Trail (symbols : Symbols) (name : String) : List String → Prop
  | start : Trail symbols name [name]
  | step {earlier : List String} {current next : String} :
      Trail symbols name (current :: earlier) → symbols.target? current = some next →
      Trail symbols name (next :: current :: earlier)

theorem Trail.linked?_length {earlier : List String} (h : Trail symbols name (current :: earlier)) :
    symbols.linked? name earlier.length = some current := by
  generalize htrail : current :: earlier = trail at h
  induction h generalizing current earlier with
  | start =>
    cases htrail
    rfl
  | step _ hnext ih =>
    cases htrail
    rw [List.length_cons, linked?, ih rfl, Option.bind_some, hnext]

/-- A trail tells the name behind each of its links. -/
theorem Trail.map_linked? {trail : List String} (h : Trail symbols name trail) :
    (List.range trail.length).map (symbols.linked? name) = trail.reverse.map some := by
  induction h with
  | start => rfl
  | step h hnext ih =>
    rw [List.length_cons, List.range_succ, List.map_append, ih, List.map_singleton,
      (Trail.step h hnext).linked?_length]
    simp

theorem Trail.exists_linked? {trail : List String} (h : Trail symbols name trail)
    (hmem : next ∈ trail) : ∃ i < trail.length, symbols.linked? name i = some next := by
  have hsome : some next ∈ (List.range trail.length).map (symbols.linked? name) := by
    rw [h.map_linked?]
    simpa using hmem
  obtain ⟨i, hi, hlinked⟩ := List.mem_map.mp hsome
  exact ⟨i, List.mem_range.mp hi, hlinked⟩

/-- Along a trail without repetition the links lead to different names. -/
theorem Trail.linked?_ne {trail : List String} (h : Trail symbols name trail) (hnodup : trail.Nodup)
    {k l : Nat} (hkl : k < l) (hl : l < trail.length) :
    symbols.linked? name k ≠ symbols.linked? name l := by
  have hmap : ((List.range trail.length).map (symbols.linked? name)).Nodup := by
    rw [h.map_linked?]
    exact (List.nodup_reverse.mpr hnodup).map (Option.some_injective _)
  intro heq
  have hkl' := List.inj_on_of_nodup_map hmap (List.mem_range.mpr (by omega))
    (List.mem_range.mpr hl) heq
  omega

/-- Every name of a trail but the last one has a symbol. -/
theorem Trail.mem_names {earlier : List String} (h : Trail symbols name (current :: earlier)) :
    ∀ x ∈ earlier, x ∈ symbols.names := by
  generalize htrail : current :: earlier = trail at h
  induction h generalizing current earlier with
  | start =>
    cases htrail
    simp
  | step _ hnext ih =>
    cases htrail
    intro x hx
    rcases List.mem_cons.mp hx with rfl | hx
    · exact mem_names_of_target? hnext
    · exact ih rfl x hx

theorem Trail.length_le {earlier : List String} (h : Trail symbols name (current :: earlier))
    (hnodup : (current :: earlier).Nodup) : earlier.length ≤ symbols.names.card := by
  rw [← List.toFinset_card_of_nodup (List.nodup_cons.mp hnodup).2]
  refine Finset.card_le_card fun x hx => ?_
  exact h.mem_names x (List.mem_toFinset.mp hx)

theorem linked?_eq_none {n m : Nat} (h : symbols.linked? name n = none) (hle : n ≤ m) :
    symbols.linked? name m = none := by
  induction hle with
  | refl => exact h
  | step _ ih => rw [linked?, ih, Option.bind_none]

/-- A trail without repetition that cannot go on has met all names there are. -/
theorem Trail.not_isCyclic {earlier : List String} (h : Trail symbols name (current :: earlier))
    (hnodup : (current :: earlier).Nodup) (hend : symbols.target? current = none) :
    ¬ symbols.IsCyclic name := by
  rintro ⟨i, j, met, hij, hi, hj⟩
  have hlast : symbols.linked? name (earlier.length + 1) = none := by
    rw [linked?, h.linked?_length, Option.bind_some, hend]
  rcases Nat.lt_or_ge j (earlier.length + 1) with hlt | hge
  · exact h.linked?_ne hnodup hij hlt (hi.trans hj.symm)
  · rw [linked?_eq_none hlast hge] at hj
    cases hj

/-- A trail without repetition from which a link leads back meets that name again first. -/
theorem Trail.meetsAgainFirst {earlier : List String} (h : Trail symbols name (current :: earlier))
    (hnodup : (current :: earlier).Nodup) (hnext : symbols.target? current = some next)
    (hmet : next ∈ current :: earlier) : symbols.MeetsAgainFirst name next := by
  obtain ⟨i, hi, hlinked⟩ := h.exists_linked? hmet
  refine ⟨i, earlier.length + 1, hi, hlinked, ?_, fun k l hkl hl => h.linked?_ne hnodup hkl hl⟩
  rw [linked?, h.linked?_length, Option.bind_some, hnext]

/-! ## Searches along the links -/

/-- A search follows a trail without repetition, and ends at a name without target or at one that
the trail has met. -/
theorem LooksUp.trail {earlier : List String}
    (h : LooksUp symbols (current :: earlier) current looked result)
    (htrail : Trail symbols name (current :: earlier)) (hnodup : (current :: earlier).Nodup) :
    ∃ last rest, looked.reverse ++ earlier = last :: rest ∧ Trail symbols name (last :: rest) ∧
      (last :: rest).Nodup ∧ ((symbols.target? last = none ∧ result = last) ∨
        (symbols.target? last = some result ∧ result ∈ last :: rest)) := by
  generalize hmet : current :: earlier = met at h
  induction h generalizing earlier with
  | stop hnone =>
    cases hmet
    exact ⟨_, _, rfl, htrail, hnodup, Or.inl ⟨hnone, rfl⟩⟩
  | again hnext hagain =>
    cases hmet
    exact ⟨_, _, rfl, htrail, hnodup, Or.inr ⟨hnext, hagain⟩⟩
  | on hnext hnew _ ih =>
    cases hmet
    obtain ⟨last, rest, heq, hends⟩ :=
      ih (htrail.step hnext) (List.nodup_cons.mpr ⟨hnew, hnodup⟩) rfl
    refine ⟨last, rest, ?_, hends⟩
    rw [List.reverse_cons, List.append_assoc, List.singleton_append, heq]

/-- One lookup for each symbol and one more are enough for a search to end. -/
theorem exists_looksUp (fuel : Nat) {earlier : List String}
    (htrail : Trail symbols name (current :: earlier)) (hnodup : (current :: earlier).Nodup)
    (hfuel : symbols.names.card < fuel + earlier.length) :
    ∃ looked, LooksUp symbols (current :: earlier) current looked
      (symbols.follow fuel (current :: earlier) current) := by
  induction fuel generalizing current earlier with
  | zero =>
    have hle := htrail.length_le hnodup
    omega
  | succ fuel ih =>
    rw [follow]
    cases hnext : symbols.target? current with
    | none => exact ⟨[current], .stop hnext⟩
    | some next =>
      dsimp only
      split
      · rename_i hmet
        exact ⟨[current], .again hnext (List.contains_iff_mem.mp hmet)⟩
      · rename_i hnew
        rw [List.contains_iff_mem] at hnew
        obtain ⟨looked, h⟩ := ih (htrail.step hnext) (List.nodup_cons.mpr ⟨hnew, hnodup⟩)
          (by rw [List.length_cons]; omega)
        exact ⟨current :: looked, .on hnext hnew h⟩

theorem card_names_le (symbols : Symbols) : symbols.names.card ≤ symbols.length := by
  simpa [names] using List.toFinset_card_le (symbols.map (·.1))

/-- What a name stands for is found after at most one lookup for each symbol and one more, none of
them of a name that was looked up before, and there is no other way to go. The links from the name
lead to it; if they come back to no name, it stands for nothing else, and otherwise it is the first
name that they meet for the second time. -/
theorem an_alias_leads_to_the_end_of_its_chain (symbols : Symbols) (name : String) :
    ∃ looked : List String,
      (∀ looked' result, LooksUp symbols [name] name looked' result ↔
        looked' = looked ∧ result = symbols.resolve name) ∧
      looked.Nodup ∧ looked.length ≤ symbols.names.card + 1 ∧
      (∃ links, symbols.linked? name links = some (symbols.resolve name)) ∧
      ((¬ symbols.IsCyclic name ∧ symbols.target? (symbols.resolve name) = none) ∨
        (symbols.IsCyclic name ∧ symbols.MeetsAgainFirst name (symbols.resolve name))) := by
  have hnodup : [name].Nodup := List.nodup_singleton name
  obtain ⟨looked, hlooks⟩ := exists_looksUp (symbols.length + 1) .start hnodup
    (Nat.lt_succ_of_le (card_names_le symbols))
  obtain ⟨last, rest, heq, htrail, hlast, hends⟩ := hlooks.trail .start hnodup
  rw [List.append_nil] at heq
  have hlooked : looked = (last :: rest).reverse := by rw [← heq, List.reverse_reverse]
  refine ⟨looked, fun looked' result => ⟨hlooks.unique, ?_⟩, ?_, ?_, ?_⟩
  · rintro ⟨rfl, rfl⟩
    exact hlooks
  · rw [hlooked]
    exact List.nodup_reverse.mpr hlast
  · rw [hlooked, List.length_reverse, List.length_cons]
    exact Nat.succ_le_succ (htrail.length_le hlast)
  · rcases hends with ⟨hend, hresult⟩ | ⟨hnext, hmet⟩
    · rw [← hresult] at htrail hlast hend
      exact ⟨⟨_, htrail.linked?_length⟩, Or.inl ⟨htrail.not_isCyclic hlast hend, hend⟩⟩
    · obtain ⟨links, _, hlinked⟩ := htrail.exists_linked? hmet
      have hagain := htrail.meetsAgainFirst hlast hnext hmet
      exact ⟨⟨links, hlinked⟩, Or.inr ⟨hagain.isCyclic, hagain⟩⟩

end

/-- A cycle behind its entrance: the first name that is met again is not the one that is asked
for. -/
example : resolve [("a", ⟨"a", some "b"⟩), ("b", ⟨"b", some "c"⟩), ("c", ⟨"c", some "b"⟩)] "a" =
    "b" := by decide

end XPathTaint.Symbols
