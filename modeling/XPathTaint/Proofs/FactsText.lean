import XPathTaint.Facts.Format
import XPathTaint.Proofs.RecordFields

-- The facts of a source unit are read back as they were written, with expressions of any shape and
-- depth, as far as their numbers are words of 64 bits. The lines and the symbols of a unit may be
-- written in any order.

namespace XPathTaint

open Json

/-! ## Numbers that are words -/

/-- The line and the column fit into 64 bits. -/
structure Place.InWords (p : Place) : Prop where
  line : p.line < UInt64.size
  column : p.column < UInt64.size

structure Origin.InWords (o : Origin) : Prop where
  pos : o.pos < UInt64.size
  place : o.place.InWords

/-- All positions in an expression fit into 64 bits. -/
inductive Expr.InWords : Expr → Prop
  | name (id : String) {o : Origin} (ho : o.InWords) : InWords (.name id o)
  | literal (value : String) {o : Origin} (ho : o.InWords) : InWords (.literal value o)
  | member {object : Expr} (attr : String) {o : Origin} (hobject : InWords object)
    (ho : o.InWords) : InWords (.member object attr o)
  | subscript {value index : Expr} {o : Origin} (hvalue : InWords value) (hindex : InWords index)
    (ho : o.InWords) : InWords (.subscript value index o)
  | call {func : Expr} (callee : Option String) {args : List Argument} {o : Origin}
    (hfunc : InWords func) (hargs : ∀ a ∈ args, InWords a.value) (ho : o.InWords) :
    InWords (.call func callee args o)
  | compound {operands : List Expr} {o : Origin} (hoperands : ∀ e ∈ operands, InWords e)
    (ho : o.InWords) : InWords (.compound operands o)
  | unknown {o : Origin} (ho : o.InWords) : InWords (.unknown o)

structure Scope.InWords (s : Scope) : Prop where
  id : s.id < UInt64.size
  parent : ∀ parent ∈ s.parent, parent < UInt64.size
  place : s.place.InWords

structure CallSite.InWords (c : CallSite) : Prop where
  id : c.id < UInt64.size
  func : c.func.InWords
  args : ∀ a ∈ c.args, a.value.InWords
  scope : c.scope < UInt64.size
  block : ∀ n ∈ c.block, n < UInt64.size
  pos : c.pos < UInt64.size
  place : c.place.InWords

structure Binding.InWords (b : Binding) : Prop where
  id : b.id < UInt64.size
  value : b.value.InWords
  scope : b.scope < UInt64.size
  block : ∀ n ∈ b.block, n < UInt64.size
  pos : b.pos < UInt64.size
  place : b.place.InWords

/-- All ids, positions and lines of a unit fit into 64 bits. -/
structure FileFacts.InWords (f : FileFacts) : Prop where
  suppressed : ∀ line ∈ f.suppressed, line < UInt64.size
  scopes : ∀ s ∈ f.scopes, s.InWords
  calls : ∀ c ∈ f.calls, c.InWords
  bindings : ∀ b ∈ f.bindings, b.InWords

/-! ## Places -/

theorem Place.ofJson?_toJson {p : Place} (h : p.InWords) : Place.ofJson? p.toJson = some p := by
  unfold Place.ofJson? Place.toJson
  rw [fields?_object (by simp)]
  simp [List.lookup_cons, asNat?_nat, h.line, h.column]

theorem natsToJson_read {ns : List Nat} (h : ∀ n ∈ ns, n < UInt64.size) :
    asList? asNat? (natsToJson ns) = some ns :=
  asList?_map fun n hn => asNat?_nat (h n hn)

/-! ## Depth -/

namespace Json

variable {j : Json}

theorem depth_pos (j : Json) : 0 < j.depth := by
  cases j <;> simp [depth]

theorem depth_le_of_item {items : List Json} {depth : Nat}
    (hdepth : (array items).depth ≤ depth + 1) (h : j ∈ items) : j.depth ≤ depth := by
  rw [Json.depth, Nat.add_le_add_iff_right] at hdepth
  induction items with
  | nil => cases h
  | cons item rest ih =>
    rw [depthOfItems, Nat.max_le] at hdepth
    rcases List.mem_cons.mp h with rfl | h
    · exact hdepth.1
    · exact ih hdepth.2 h

theorem depth_le_of_member {members : List (String × Json)} (name : String) {depth : Nat}
    (hdepth : (object members).depth ≤ depth + 1) (h : (name, j) ∈ members) : j.depth ≤ depth := by
  rw [Json.depth, Nat.add_le_add_iff_right] at hdepth
  induction members with
  | nil => cases h
  | cons m rest ih =>
    rw [depthOfMembers, Nat.max_le] at hdepth
    rcases List.mem_cons.mp h with rfl | h
    · exact hdepth.1
    · exact ih hdepth.2 h

end Json

/-! ## Expressions -/

theorem argumentsToJson_eq (args : List Argument) :
    argumentsToJson args = args.map argumentToJson := by
  induction args with
  | nil => rfl
  | cons a rest ih => rw [argumentsToJson, ih, List.map_cons]

theorem exprsToJson_eq (es : List Expr) : exprsToJson es = es.map Expr.toJson := by
  induction es with
  | nil => rfl
  | cons e rest ih => rw [exprsToJson, ih, List.map_cons]

/-- An expression is read back with any depth that its JSON form has room in. -/
def Expr.ReadBack (e : Expr) : Prop :=
  ∀ depth, e.toJson.depth ≤ depth → Expr.ofJsonWithin depth e.toJson = some e

/-- No JSON form has room in no depth. -/
theorem Expr.readBack_of_succ {e : Expr} (h : ∀ depth, e.toJson.depth ≤ depth + 1 →
    Expr.ofJsonWithin (depth + 1) e.toJson = some e) : e.ReadBack := by
  intro depth hdepth
  have hpos := depth_pos e.toJson
  obtain ⟨depth, rfl⟩ := Nat.exists_eq_add_one_of_ne_zero (by omega : depth ≠ 0)
  exact h depth hdepth

theorem Splat.read_written (s : Splat) : asChoice? Splat.choices (.string s.written) = some s := by
  cases s <;> rfl

theorem argumentOfJsonWithin_toJson {a : Argument} (h : a.value.ReadBack) {depth : Nat}
    (hdepth : (argumentToJson a).depth ≤ depth) :
    argumentOfJsonWithin depth (argumentToJson a) = some a := by
  obtain ⟨keyword, splat, value⟩ := a
  have hpos := depth_pos (argumentToJson ⟨keyword, splat, value⟩)
  obtain ⟨depth, rfl⟩ := Nat.exists_eq_add_one_of_ne_zero (by omega : depth ≠ 0)
  rw [argumentToJson] at hdepth ⊢
  have hvalue : Expr.ofJsonWithin depth value.toJson = some value :=
    h depth (depth_le_of_member "value" hdepth (by simp))
  rw [argumentOfJsonWithin, fields?_object]
  · cases keyword <;> simp [List.lookup_cons, keywordMember, hvalue, Splat.read_written]
  · cases keyword <;> simp [keywordMember]

theorem arguments_read {args : List Argument} {depth : Nat} (h : ∀ a ∈ args, a.value.ReadBack)
    (hdepth : (Json.array (argumentsToJson args)).depth ≤ depth + 1) :
    asList? (argumentOfJsonWithin depth) (.array (argumentsToJson args)) = some args := by
  rw [argumentsToJson_eq] at hdepth ⊢
  refine asList?_map fun a ha => argumentOfJsonWithin_toJson (h a ha) ?_
  exact depth_le_of_item hdepth (List.mem_map_of_mem ha)

theorem operands_read {operands : List Expr} {depth : Nat} (h : ∀ e ∈ operands, e.ReadBack)
    (hdepth : (Json.array (exprsToJson operands)).depth ≤ depth + 1) :
    asList? (Expr.ofJsonWithin depth) (.array (exprsToJson operands)) = some operands := by
  rw [exprsToJson_eq] at hdepth ⊢
  refine asList?_map fun e he => h e he depth ?_
  exact depth_le_of_item hdepth (List.mem_map_of_mem he)

/-- The position and the place are read back as they were written. -/
theorem Origin.InWords.read {o : Origin} (h : o.InWords) :
    asNat? (.nat o.pos) = some o.pos ∧ Place.ofJson? o.place.toJson = some o.place :=
  ⟨asNat?_nat h.pos, Place.ofJson?_toJson h.place⟩

/-- An expression of any shape is read back: its parts stand at least one level deeper. -/
theorem Expr.InWords.readBack {e : Expr} (h : e.InWords) : e.ReadBack := by
  induction h with
  | name id ho =>
    refine Expr.readBack_of_succ fun depth hdepth => ?_
    rw [Expr.toJson, Expr.ofJsonWithin]
    simp [Record.uniqueField_eq, Origin.members, List.lookup_cons, Expr.kindName?, ho.read]
  | literal value ho =>
    refine Expr.readBack_of_succ fun depth hdepth => ?_
    rw [Expr.toJson, Expr.ofJsonWithin]
    simp [Record.uniqueField_eq, Origin.members, List.lookup_cons, Expr.kindName?, ho.read]
  | member attr hobject ho ih =>
    refine Expr.readBack_of_succ fun depth hdepth => ?_
    rw [Expr.toJson] at hdepth ⊢
    rw [Expr.ofJsonWithin]
    have hpart := ih depth (depth_le_of_member "object" hdepth (by simp))
    simp [Record.uniqueField_eq, Origin.members, List.lookup_cons, Expr.kindName?, ho.read, hpart]
  | subscript hvalue hindex ho ihv ihi =>
    refine Expr.readBack_of_succ fun depth hdepth => ?_
    rw [Expr.toJson] at hdepth ⊢
    rw [Expr.ofJsonWithin]
    have hv := ihv depth (depth_le_of_member "value" hdepth (by simp))
    have hi := ihi depth (depth_le_of_member "index" hdepth (by simp))
    simp [Record.uniqueField_eq, Origin.members, List.lookup_cons, Expr.kindName?, ho.read, hv, hi]
  | @call func callee args o hfunc hargs ho ihf iha =>
    refine Expr.readBack_of_succ fun depth hdepth => ?_
    rw [Expr.toJson] at hdepth ⊢
    rw [Expr.ofJsonWithin]
    have hf := ihf depth (depth_le_of_member "func" hdepth (by simp))
    have hlist : (Json.array (argumentsToJson args)).depth ≤ depth :=
      depth_le_of_member "args" hdepth (by simp)
    have ha := arguments_read iha (Nat.le_succ_of_le hlist)
    simp [Record.uniqueField_eq, Origin.members, List.lookup_cons, Expr.kindName?, ho.read, hf, ha]
  | @compound operands o hoperands ho ih =>
    refine Expr.readBack_of_succ fun depth hdepth => ?_
    rw [Expr.toJson] at hdepth ⊢
    rw [Expr.ofJsonWithin]
    have hlist : (Json.array (exprsToJson operands)).depth ≤ depth :=
      depth_le_of_member "operands" hdepth (by simp)
    have hos := operands_read ih (Nat.le_succ_of_le hlist)
    simp [Record.uniqueField_eq, Origin.members, List.lookup_cons, Expr.kindName?, ho.read, hos]
  | unknown ho =>
    refine Expr.readBack_of_succ fun depth hdepth => ?_
    rw [Expr.toJson, Expr.ofJsonWithin]
    simp [Record.uniqueField_eq, Origin.members, List.lookup_cons, Expr.kindName?, ho.read]

theorem Expr.ofJson?_toJson {e : Expr} (h : e.InWords) : Expr.ofJson? e.toJson = some e :=
  h.readBack _ (Nat.le_refl _)

theorem argumentOfJson?_toJson {a : Argument} (h : a.value.InWords) :
    argumentOfJson? (argumentToJson a) = some a :=
  argumentOfJsonWithin_toJson h.readBack (Nat.le_refl _)

/-! ## Scopes, call sites and bindings -/

theorem Route.ofJson?_toJson (r : Route) : Route.ofJson? r.toJson = some r := by
  unfold Route.ofJson? Route.toJson
  rw [fields?_object (by simp)]
  simp [List.lookup_cons]

theorem Scope.ofJson?_toJson {s : Scope} (h : s.InWords) : Scope.ofJson? s.toJson = some s := by
  have hparams : asList? asString? (.array (s.params.map .string)) = some s.params :=
    asList?_map fun _ _ => rfl
  have hroute : optional Route.ofJson? (some ((s.route.map Route.toJson).getD .null)) =
      some s.route :=
    optional_map fun r _ => ⟨Route.ofJson?_toJson r, by simp [Route.toJson]⟩
  have hparent : optional asNat? (some ((s.parent.map .nat).getD .null)) = some s.parent :=
    optional_map fun parent hp => ⟨asNat?_nat (h.parent parent hp), by simp [Json.nat]⟩
  unfold Scope.ofJson? Scope.toJson
  rw [fields?_object (by simp)]
  simp [List.lookup_cons, asNat?_nat h.id, hparams, hroute, hparent, Place.ofJson?_toJson h.place]

theorem CallSite.ofJson?_toJson {c : CallSite} (h : c.InWords) :
    CallSite.ofJson? c.toJson = some c := by
  have hargs : asList? argumentOfJson? (.array (argumentsToJson c.args)) = some c.args := by
    rw [argumentsToJson_eq]
    exact asList?_map fun a ha => argumentOfJson?_toJson (h.args a ha)
  unfold CallSite.ofJson? CallSite.toJson
  rw [fields?_object (by simp)]
  simp [List.lookup_cons, asNat?_nat h.id, asNat?_nat h.scope, asNat?_nat h.pos, natsToJson_read h.block,
    Expr.ofJson?_toJson h.func, hargs, Place.ofJson?_toJson h.place]

theorem Binding.ofJson?_toJson {b : Binding} (h : b.InWords) :
    Binding.ofJson? b.toJson = some b := by
  unfold Binding.ofJson? Binding.toJson
  rw [fields?_object (by simp)]
  simp [List.lookup_cons, asNat?_nat h.id, asNat?_nat h.scope, asNat?_nat h.pos, natsToJson_read h.block,
    Expr.ofJson?_toJson h.value, Place.ofJson?_toJson h.place]

/-! ## Symbols -/

theorem Symbol.ofJson?_toJson (s : Symbol) : Symbol.ofJson? s.toJson = some s := by
  unfold Symbol.ofJson? Symbol.toJson
  rw [fields?_object (by simp)]
  simp [List.lookup_cons]

/-- A table without repeated names is built anew by entering its symbols one by one. -/
theorem Symbols.foldl_insert (entered symbols : Symbols)
    (h : ((entered ++ symbols).map (·.1)).Nodup) :
    symbols.foldl (fun table entry => Symbols.insert table entry.1 entry.2) entered =
      entered ++ symbols := by
  induction symbols generalizing entered with
  | nil => simp
  | cons entry rest ih =>
    have hnew : entered.filter (fun old => old.1 != entry.1) = entered := by
      rw [List.filter_eq_self]
      intro old hold
      rw [List.map_append, List.nodup_append] at h
      simpa using h.2.2 old.1 (List.mem_map_of_mem hold) entry.1 (by simp)
    rw [List.foldl_cons, Symbols.insert, hnew, ih]
    · simp
    · simpa using h

theorem Symbols.ofJson?_toJson {symbols : Symbols} (h : (symbols.map (·.1)).Nodup) :
    Symbols.ofJson? (.object (symbols.map fun s => (s.1, s.2.toJson))) = some symbols := by
  have hentries : (symbols.map fun s => (s.1, s.2.toJson)).mapM
      (fun m => (Symbol.ofJson? m.2).map fun s => (m.1, s)) = some symbols :=
    mapM_map_of_read fun s _ => by rw [Symbol.ofJson?_toJson, Option.map_some]
  unfold Symbols.ofJson?
  dsimp only
  rw [hentries]
  exact congrArg some (Symbols.foldl_insert [] symbols h)

/-! ## Whole units -/

theorem eraseDups_of_nodup {lines : List Nat} (h : lines.Nodup) : lines.eraseDups = lines := by
  induction lines with
  | nil => rfl
  | cons line rest ih =>
    rw [List.nodup_cons] at h
    have hrest : rest.filter (fun other => !other == line) = rest := by
      rw [List.filter_eq_self]
      intro other hother
      have hne : other ≠ line := fun heq => h.1 (heq ▸ hother)
      simpa using hne
    rw [List.eraseDups_cons, hrest, ih h.2]

/-- The suppressed lines of a unit are a set and its symbols a table, and all its numbers are words
of 64 bits. -/
structure FileFacts.WellFormed (f : FileFacts) : Prop extends f.InWords where
  lines : f.suppressed.Nodup
  names : (f.symbols.map (·.1)).Nodup

theorem FileFacts.ofJson?_toJson {f : FileFacts} (h : f.WellFormed) :
    FileFacts.ofJson? f.toJson = some f := by
  have hscopes : asList? Scope.ofJson? (.array (f.scopes.map Scope.toJson)) = some f.scopes :=
    asList?_map fun s hs => Scope.ofJson?_toJson (h.scopes s hs)
  have hcalls : asList? CallSite.ofJson? (.array (f.calls.map CallSite.toJson)) = some f.calls :=
    asList?_map fun c hc => CallSite.ofJson?_toJson (h.calls c hc)
  have hbindings : asList? Binding.ofJson? (.array (f.bindings.map Binding.toJson)) =
      some f.bindings :=
    asList?_map fun b hb => Binding.ofJson?_toJson (h.bindings b hb)
  unfold FileFacts.ofJson? FileFacts.toJson
  rw [fields?_object (by simp)]
  simp [List.lookup_cons, natsToJson_read h.suppressed, eraseDups_of_nodup h.lines, hscopes, hcalls,
    hbindings, Symbols.ofJson?_toJson h.names]

/-! ## Texts -/

theorem Place.isWhole_toJson {p : Place} (h : p.InWords) : p.toJson.IsWhole := by
  simp [Place.toJson, IsWhole.nat h.line, IsWhole.nat h.column]

theorem isWhole_natsToJson {ns : List Nat} (h : ∀ n ∈ ns, n < UInt64.size) :
    (natsToJson ns).IsWhole :=
  isWhole_map fun n hn => .nat (h n hn)

/-- The object of an expression: its own fields, then where it stands. -/
theorem Origin.InWords.isWhole_object {o : Origin} (h : o.InWords)
    {fields : List (String × Json)} (hfields : ∀ m ∈ fields, m.2.IsWhole) :
    (Json.object (fields ++ o.members)).IsWhole := by
  refine .object (List.forall_mem_append.mpr ⟨hfields, ?_⟩)
  simp [Origin.members, IsWhole.nat h.pos, Place.isWhole_toJson h.place]

theorem isWhole_argumentToJson {a : Argument} (h : a.value.toJson.IsWhole) :
    (argumentToJson a).IsWhole := by
  obtain ⟨keyword, splat, value⟩ := a
  rw [argumentToJson]
  cases keyword <;> simpa [keywordMember] using h

theorem isWhole_argumentsToJson {args : List Argument} (h : ∀ a ∈ args, a.value.toJson.IsWhole) :
    (Json.array (argumentsToJson args)).IsWhole := by
  rw [argumentsToJson_eq]
  exact isWhole_map fun a ha => isWhole_argumentToJson (h a ha)

theorem Expr.isWhole_toJson {e : Expr} (h : e.InWords) : e.toJson.IsWhole := by
  induction h with
  | name id ho =>
    rw [Expr.toJson]
    exact ho.isWhole_object (by simp)
  | literal value ho =>
    rw [Expr.toJson]
    exact ho.isWhole_object (by simp)
  | member attr hobject ho ih =>
    rw [Expr.toJson]
    exact ho.isWhole_object (by simp [ih])
  | subscript hvalue hindex ho ihv ihi =>
    rw [Expr.toJson]
    exact ho.isWhole_object (by simp [ihv, ihi])
  | call callee hfunc hargs ho ihf iha =>
    have hlist := isWhole_argumentsToJson iha
    rw [Expr.toJson]
    exact ho.isWhole_object (by simp [-isWhole_array_iff, ihf, hlist])
  | compound hoperands ho ih =>
    rw [Expr.toJson, exprsToJson_eq]
    exact ho.isWhole_object (by simpa using ih)
  | @unknown o ho =>
    have hkind : ∀ m ∈ [("type", Json.string "opaque")], m.2.IsWhole := by simp
    rw [Expr.toJson]
    exact ho.isWhole_object hkind

theorem Scope.isWhole_toJson {s : Scope} (h : s.InWords) : s.toJson.IsWhole := by
  have hroute : ((s.route.map Route.toJson).getD .null).IsWhole := by
    cases s.route <;> simp [Route.toJson]
  have hparent : ((s.parent.map Json.nat).getD .null).IsWhole := by
    cases hp : s.parent with
    | none => exact .null
    | some parent => exact .nat (h.parent parent hp)
  simp [Scope.toJson, IsWhole.nat h.id, hroute, hparent, Place.isWhole_toJson h.place]

theorem CallSite.isWhole_toJson {c : CallSite} (h : c.InWords) : c.toJson.IsWhole := by
  have hargs := isWhole_argumentsToJson fun a ha => Expr.isWhole_toJson (h.args a ha)
  simp [-isWhole_array_iff, CallSite.toJson, IsWhole.nat h.id, IsWhole.nat h.scope,
    IsWhole.nat h.pos, Expr.isWhole_toJson h.func, hargs, isWhole_natsToJson h.block,
    Place.isWhole_toJson h.place]

theorem Binding.isWhole_toJson {b : Binding} (h : b.InWords) : b.toJson.IsWhole := by
  simp [Binding.toJson, IsWhole.nat h.id, IsWhole.nat h.scope, IsWhole.nat h.pos,
    Expr.isWhole_toJson h.value, isWhole_natsToJson h.block, Place.isWhole_toJson h.place]

theorem FileFacts.isWhole_toJson {f : FileFacts} (h : f.InWords) : f.toJson.IsWhole := by
  have hscopes : (Json.array (f.scopes.map Scope.toJson)).IsWhole :=
    isWhole_map fun s hs => Scope.isWhole_toJson (h.scopes s hs)
  have hcalls : (Json.array (f.calls.map CallSite.toJson)).IsWhole :=
    isWhole_map fun c hc => CallSite.isWhole_toJson (h.calls c hc)
  have hbindings : (Json.array (f.bindings.map Binding.toJson)).IsWhole :=
    isWhole_map fun b hb => Binding.isWhole_toJson (h.bindings b hb)
  have hsymbols : (Json.object (f.symbols.map fun s => (s.1, s.2.toJson))).IsWhole := by
    refine .object fun m hm => ?_
    obtain ⟨s, _, rfl⟩ := List.mem_map.mp hm
    simp [Symbol.toJson]
  simp [-isWhole_array_iff, FileFacts.toJson, isWhole_natsToJson h.suppressed, hscopes, hcalls,
    hbindings, hsymbols]

/-- The text that facts are written as. -/
def FileFacts.written (f : FileFacts) : String := f.toJson.pretty

/-- The facts that a text writes. -/
def FileFacts.read? (text : String) : Option FileFacts :=
  (Json.read? text).bind FileFacts.ofJson?

theorem FileFacts.read?_written {f : FileFacts} (h : f.WellFormed) :
    FileFacts.read? f.written = some f := by
  unfold FileFacts.read? FileFacts.written
  rw [(FileFacts.isWhole_toJson h.toInWords).read?_pretty]
  exact FileFacts.ofJson?_toJson h

/-! ## Any order of lines and symbols -/

/-- The same facts, with the suppressed lines and the symbols perhaps in another order. -/
structure FileFacts.Reordered (f g : FileFacts) : Prop where
  lines : g.suppressed.Perm f.suppressed
  symbols : g.symbols.Perm f.symbols
  rest : g = { f with suppressed := g.suppressed, symbols := g.symbols }

namespace FileFacts

variable {f g k : FileFacts}

theorem Reordered.trans (h : f.Reordered g) (h' : g.Reordered k) : f.Reordered k := by
  refine ⟨h'.lines.trans h.lines, h'.symbols.trans h.symbols, ?_⟩
  have hk := h'.rest
  rw [h.rest] at hk
  exact hk

theorem Reordered.wellFormed (h : f.Reordered g) (hf : f.WellFormed) : g.WellFormed := by
  obtain ⟨hlines, hsymbols, hrest⟩ := h
  rw [hrest]
  exact
    { suppressed := fun line hline => hf.suppressed line (hlines.mem_iff.mp hline)
      scopes := hf.scopes
      calls := hf.calls
      bindings := hf.bindings
      lines := hlines.nodup_iff.mpr hf.lines
      names := (hsymbols.map (·.1)).nodup_iff.mpr hf.names }

end FileFacts

/-- Facts are read back as they were written, in whatever order their lines and symbols are written,
and the facts that were read, written again in any order, give the same facts once more. -/
theorem facts_are_read_back_as_written (f : FileFacts) (hf : f.WellFormed) (g : FileFacts)
    (hg : f.Reordered g) :
    ∃ read, FileFacts.read? g.written = some read ∧ f.Reordered read ∧
      ∀ again, read.Reordered again →
        ∃ reread, FileFacts.read? again.written = some reread ∧ f.Reordered reread := by
  refine ⟨g, FileFacts.read?_written (hg.wellFormed hf), hg, fun again hagain => ?_⟩
  exact ⟨again, FileFacts.read?_written (hagain.wellFormed (hg.wellFormed hf)), hg.trans hagain⟩

/-! ## A unit with expressions of every shape -/

/-- A place at the end of what a word can tell. -/
def farOrigin : Origin := ⟨"x\n", UInt64.size - 1, ⟨"é.py", UInt64.size - 1, 1⟩⟩

/-- The expression `f(o.a, *c["k"], key=x + ...)`. -/
def callOfEveryShape : Expr :=
  .call (.name "f" farOrigin) (some "f")
    [⟨none, .none, .member (.name "o" farOrigin) "a" farOrigin⟩,
      ⟨none, .list, .subscript (.name "c" farOrigin) (.literal "k" farOrigin) farOrigin⟩,
      ⟨some "key", .none, .compound [.name "x" farOrigin, .unknown farOrigin] farOrigin⟩]
    farOrigin

def factsOfEveryShape : FileFacts :=
  { FileFacts.empty "é.py" "python" with
    suppressed := [3, 1]
    bindings := [{ id := UInt64.size - 1, name := "y", value := callOfEveryShape, scope := 0,
                   block := [1, 2], pos := 0, place := ⟨"é.py", 1, 1⟩ }]
    symbols := [("et", ⟨"et", some "lxml.etree"⟩), ("os", ⟨"os", none⟩)] }

/-- The same facts with their lines and symbols the other way round. -/
def factsTheOtherWayRound : FileFacts :=
  { factsOfEveryShape with
    suppressed := factsOfEveryShape.suppressed.reverse
    symbols := factsOfEveryShape.symbols.reverse }

theorem inWords_callOfEveryShape : callOfEveryShape.InWords := by
  have hfar : farOrigin.InWords := ⟨by decide, by decide, by decide⟩
  refine .call _ (.name _ hfar) ?_ hfar
  simp only [List.mem_cons, List.not_mem_nil, or_false, forall_eq_or_imp, forall_eq]
  refine ⟨.member _ (.name _ hfar) hfar, .subscript (.name _ hfar) (.literal _ hfar) hfar,
    .compound ?_ hfar⟩
  simp only [List.mem_cons, List.not_mem_nil, or_false, forall_eq_or_imp, forall_eq]
  exact ⟨.name _ hfar, .unknown hfar⟩

theorem wellFormed_factsOfEveryShape : factsOfEveryShape.WellFormed where
  suppressed := by decide
  scopes := by simp [factsOfEveryShape, FileFacts.empty]
  calls := by simp [factsOfEveryShape, FileFacts.empty]
  bindings := by
    simp only [factsOfEveryShape, List.mem_singleton, forall_eq]
    exact ⟨by decide, inWords_callOfEveryShape, by decide, by decide, by decide,
      by decide, by decide⟩
  lines := by decide
  names := by decide

theorem facts_are_read_back_as_written_of_every_shape :
    factsOfEveryShape.WellFormed ∧ factsOfEveryShape.Reordered factsTheOtherWayRound ∧
      ∃ read, FileFacts.read? factsTheOtherWayRound.written = some read ∧
        factsOfEveryShape.Reordered read := by
  have hf := wellFormed_factsOfEveryShape
  have hg : factsOfEveryShape.Reordered factsTheOtherWayRound :=
    ⟨List.reverse_perm _, List.reverse_perm _, rfl⟩
  obtain ⟨read, hread, hsame, _⟩ := facts_are_read_back_as_written _ hf _ hg
  exact ⟨hf, hg, read, hread, hsame⟩

end XPathTaint
