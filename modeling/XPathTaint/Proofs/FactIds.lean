import XPathTaint.Proofs.FactPlaces
import XPathTaint.Proofs.RecordedFacts
import XPathTaint.Proofs.SinkPlaces

-- What the numbers of facts tell apart. The number of a fact mixes its wording with line and column
-- so that facts of one wording have one number only if they have one place. No two bindings of a
-- program have one name and one place, and no two calls have one text and one place.

namespace XPathTaint

/-! ## Numbers of facts -/

/-- Line and column side by side in one word. -/
theorem toNat_packed {line column : Nat} (hline : line < 2 ^ 32) (hcolumn : column < 2 ^ 32) :
    ((line.toUInt64 <<< 32) ||| column.toUInt64).toNat = line * 2 ^ 32 + column := by
  have hword : ∀ n : Nat, n < 2 ^ 32 → n.toUInt64.toNat = n := fun n hn =>
    UInt64.toNat_ofNat_of_lt' (Nat.lt_trans hn (by decide))
  have hshift : (line.toUInt64 <<< 32).toNat = line <<< 32 := by
    have hcount : (32 : UInt64).toNat % 64 = 32 := rfl
    rw [UInt64.toNat_shiftLeft, hword line hline, hcount, Nat.shiftLeft_eq]
    exact Nat.mod_eq_of_lt (by omega)
  rw [UInt64.toNat_or, hshift, hword column hcolumn, ← Nat.shiftLeft_add_eq_or_of_lt hcolumn,
    Nat.shiftLeft_eq]

/-- Facts of one wording in one file have one number only in one place. -/
theorem stableId_inj {path wording : String} {line column line' column' : Nat}
    (hline : line < 2 ^ 32) (hcolumn : column < 2 ^ 32) (hline' : line' < 2 ^ 32)
    (hcolumn' : column' < 2 ^ 32)
    (h : stableId path line column wording = stableId path line' column' wording) :
    line = line' ∧ column = column' := by
  have hpacked := congrArg UInt64.toNat ((UInt64.xor_right_inj _).mp (UInt64.toNat_inj.mp h))
  rw [toNat_packed hline hcolumn, toNat_packed hline' hcolumn'] at hpacked
  omega

namespace Python

/-! ## Pieces of a text -/

/-- A piece between two places of a text. -/
def Span.IsPieceOf (text : String) (s : Span) : Prop :=
  ∃ m n, s = ((Cursor.ofText text).skip m).to ((Cursor.ofText text).skip (m + n))

/-- How many bytes characters fill. -/
def bytesOf (cs : List Char) : Nat := (cs.map Char.utf8Size).sum

namespace Cursor

theorem skip_pos_le (c : Cursor) (n : Nat) : c.pos ≤ (c.skip n).pos := by
  rcases c.skip_before n with hsame | hbefore
  · rw [hsame]
  · exact Nat.le_of_lt hbefore.1

theorem next_cons {c : Cursor} {ch : Char} {rest : List Char} (h : c.rest = ch :: rest) :
    c.next.rest = rest ∧ c.next.pos = c.pos + ch.utf8Size := by
  unfold next
  split
  · rename_i hnil
    rw [hnil] at h
    cases h
  · rename_i more hline
    obtain ⟨rfl, rfl⟩ := List.cons.inj (hline.symm.trans h)
    exact ⟨rfl, rfl⟩
  · rename_i ch' more _ hcons
    obtain ⟨rfl, rfl⟩ := List.cons.inj (hcons.symm.trans h)
    exact ⟨rfl, rfl⟩

/-- The wording between two places fills the bytes between them. -/
theorem bytesOf_takeBytes (c : Cursor) (n : Nat) :
    bytesOf (takeBytes ((c.skip n).pos - c.pos) c.rest) = (c.skip n).pos - c.pos := by
  induction n generalizing c with
  | zero =>
    rw [skip, Nat.sub_self]
    cases c.rest <;> rfl
  | succ n ih =>
    rw [skip]
    have hrest := ih c.next
    cases h : c.rest with
    | nil =>
      have hnext : c.next = c := by
        unfold next
        rw [h]
      rw [hnext, h] at hrest
      rw [hnext]
      exact hrest
    | cons ch rest =>
      obtain ⟨hnext, hpos⟩ := next_cons h
      have hle := c.next.skip_pos_le n
      have hsize := ch.utf8Size_pos
      have hsplit : (c.next.skip n).pos - c.pos - ch.utf8Size =
          (c.next.skip n).pos - c.next.pos := by omega
      rw [hnext] at hrest
      rw [takeBytes, if_neg (by omega), hsplit, bytesOf, List.map_cons, List.sum_cons, ← bytesOf,
        hrest]
      omega

end Cursor

namespace Span.IsPieceOf

variable {text : String} {s t : Span}

theorem isPlacedIn (h : s.IsPieceOf text) : s.IsPlacedIn text := by
  obtain ⟨m, n, rfl⟩ := h
  exact ⟨m, rfl⟩

/-- A piece ends as many bytes behind its start as its wording fills. -/
theorem stop_eq (h : s.IsPieceOf text) : s.stop = s.pos + bytesOf s.text.toList := by
  obtain ⟨m, n, rfl⟩ := h
  have hbytes := ((Cursor.ofText text).skip m).bytesOf_takeBytes n
  have hle := ((Cursor.ofText text).skip m).skip_pos_le n
  rw [← Cursor.skip_add] at hbytes hle
  rw [Cursor.to, String.toList_ofList, hbytes]
  dsimp only
  omega

/-- Pieces with one wording and one place fill the same bytes. -/
theorem same (hs : s.IsPieceOf text) (ht : t.IsPieceOf text) (htext : s.text = t.text)
    (hplace : (s.line, s.column) = (t.line, t.column)) : s.pos = t.pos ∧ s.stop = t.stop := by
  have hpos := hs.isPlacedIn.pos_eq ht.isPlacedIn hplace
  exact ⟨hpos, by rw [hs.stop_eq, ht.stop_eq, hpos, htext]⟩

end Span.IsPieceOf

/-! ## Programs of a text -/

/-- Where the calls and bindings of a program stand. -/
def Program.factSpans (p : Program) : List Span := p.callSpans ++ p.binders.map (·.2)

/-- A program as it is read from a text: its parts stand one behind the other with their signs, and
its facts are recorded where they stand. -/
structure Program.IsReadFrom (text : String) (p : Program) : Prop where
  laidOut : p.IsLaidOut
  signed : p.IsSigned
  pieces : ∀ s ∈ p.factSpans, s.IsPieceOf text

section

variable {path text : String} {p : Program}

theorem Program.IsReadFrom.call {s : Span} (h : p.IsReadFrom text) (hs : s ∈ p.callSpans) :
    s.IsPieceOf text := h.pieces s (List.mem_append_left _ hs)

theorem Program.IsReadFrom.binder {b : String × Span} (h : p.IsReadFrom text)
    (hb : b ∈ p.binders) : b.2.IsPieceOf text :=
  h.pieces b.2 (List.mem_append_right _ (List.mem_map_of_mem hb))

/-- What is bound under one name stands in different places. -/
theorem binders_places (h : p.IsReadFrom text) :
    p.binders.Pairwise fun b c => b.1 = c.1 → (b.2.line, b.2.column) ≠ (c.2.line, c.2.column) := by
  refine (binders_apart h.laidOut h.signed).imp_of_mem fun {b c} hb hc hapart hname hplace => ?_
  have hpos := (h.binder hb).isPlacedIn.pos_eq (h.binder hc).isPlacedIn hplace
  exact hapart.elim (· hname) (· hpos)

/-- Calls with one text stand in different places. -/
theorem callSpans_places (h : p.IsReadFrom text) :
    p.callSpans.Pairwise fun s t => s.text = t.text → (s.line, s.column) ≠ (t.line, t.column) := by
  refine (callSpans_apart h.laidOut h.signed).imp_of_mem fun {s t} hs ht hapart htext hplace => ?_
  obtain ⟨hpos, hstop⟩ := (h.call hs).same (h.call ht) htext hplace
  exact hapart.elim (· hpos) (· hstop)

/-- Lines and columns of the facts are small enough for their numbers. -/
def Program.HasSmallPlaces (p : Program) : Prop :=
  ∀ s ∈ p.factSpans, s.line < 2 ^ 32 ∧ s.column < 2 ^ 32

/-- Records of one wording have different places and different numbers. -/
def RecordsApart (r r' : Nat × String × Place) : Prop :=
  r.2.1 = r'.2.1 →
    (r.2.2.line, r.2.2.column) ≠ (r'.2.2.line, r'.2.2.column) ∧ r.1 ≠ r'.1

theorem stableId_ne {wording : String} {s t : Span} (hsmall : p.HasSmallPlaces)
    (hs : s ∈ p.factSpans) (ht : t ∈ p.factSpans)
    (hne : (s.line, s.column) ≠ (t.line, t.column)) :
    stableId path s.line s.column wording ≠ stableId path t.line t.column wording := by
  intro h
  obtain ⟨hline, hcolumn⟩ := hsmall s hs
  obtain ⟨hline', hcolumn'⟩ := hsmall t ht
  obtain ⟨hl, hc⟩ := stableId_inj hline hcolumn hline' hcolumn' h
  exact hne (Prod.ext hl hc)

theorem bindingRecords_apart (path : String) (h : p.IsReadFrom text)
    (hsmall : p.HasSmallPlaces) :
    (p.binders.map fun b => bindingRecord path b.1 (placeIn path b.2)).Pairwise RecordsApart := by
  refine List.pairwise_map.mpr ((binders_places h).imp_of_mem fun {b c} hb hc hne hname => ?_)
  have hname : b.1 = c.1 := hname
  refine ⟨hne hname, ?_⟩
  rw [bindingRecord, bindingRecord, hname]
  exact stableId_ne hsmall (List.mem_append_right _ (List.mem_map_of_mem hb))
    (List.mem_append_right _ (List.mem_map_of_mem hc)) (hne hname)

theorem callRecords_apart (path : String) (h : p.IsReadFrom text) (hsmall : p.HasSmallPlaces) :
    (p.callSpans.map (callRecord path)).Pairwise RecordsApart := by
  refine List.pairwise_map.mpr ((callSpans_places h).imp_of_mem fun {s t} hs ht hne htext => ?_)
  have htext : s.text = t.text := htext
  refine ⟨hne htext, ?_⟩
  rw [callRecord, callRecord, htext]
  exact stableId_ne hsmall (List.mem_append_left _ hs) (List.mem_append_left _ ht) (hne htext)

end

/-- In the facts of a program as it is read from a text, no two bindings have one name, line and
column, different bindings of one name have different numbers, and so have different call sites with
one text. -/
theorem facts_of_one_wording_have_different_ids (path text : String) (marker : Option String)
    (p : Program) (facts : FileFacts)
    (hfacts : (FileFacts.ofProgram path text marker p).1 = facts) (hread : p.IsReadFrom text)
    (hsmall : p.HasSmallPlaces) :
    facts.bindings.Pairwise (fun b c =>
        (b.name, b.place.line, b.place.column) ≠ (c.name, c.place.line, c.place.column)) ∧
      facts.bindings.Pairwise (fun b c => b.name = c.name → b.id ≠ c.id) ∧
      facts.calls.Pairwise (fun c d => c.text = d.text → c.id ≠ d.id) := by
  have hbindings := bindingRecords_apart path hread hsmall
  have hcalls := callRecords_apart path hread hsmall
  rw [← bindings_of_facts path facts.symbols, List.pairwise_map] at hbindings
  rw [← calls_of_facts path facts.symbols, List.pairwise_map] at hcalls
  subst hfacts
  refine ⟨hbindings.imp fun hapart heq => ?_, hbindings.imp fun hapart hname => (hapart hname).2,
    hcalls.imp fun hapart htext => (hapart htext).2⟩
  obtain ⟨hname, hplace⟩ := Prod.mk.inj heq
  exact (hapart hname).1 hplace

/-! ## A call and a binding twice -/

def repeatedText : String := "q = f(x)\nq = f(x)\n"

/-- `q = f(x)` in a line that starts at a byte. -/
def assignmentAt (pos line : Nat) : Stmt :=
  .assign (pos + 8) [.name ⟨pos, pos + 1, line, 1, "q"⟩]
    (some (.call ⟨pos + 4, pos + 8, line, 5, "f(x)"⟩ (.name ⟨pos + 4, pos + 5, line, 5, "f"⟩)
      [⟨none, .none, .name ⟨pos + 6, pos + 7, line, 7, "x"⟩⟩]))

def repeatedProgram : Program :=
  { start := ⟨0, 18, 1, 1, repeatedText⟩, isPartial := false
    body := [assignmentAt 0 1, assignmentAt 9 2] }

theorem isReadFrom_repeatedProgram : repeatedProgram.IsReadFrom repeatedText where
  laidOut :=
    ⟨17, 8, ⟨1, ⟨1, by decide +kernel, Nat.le_refl 1⟩, by decide +kernel, Nat.le_refl 8⟩,
      17, ⟨10, ⟨10, by decide +kernel, Nat.le_refl 10⟩, by decide +kernel, Nat.le_refl 17⟩,
      Nat.le_refl 17⟩
  signed := by
    simp [Program.IsSigned, Program.statements, repeatedProgram, assignmentAt, Stmt.nestedOfAll,
      Stmt.nested, Stmt.ownNodes, Node.IsSigned, Node.nodes, Node.nodesOfArguments, Node.HasSigns,
      Node.span]
  pieces := by
    have h : ∀ s ∈ repeatedProgram.factSpans,
        s = ((Cursor.ofText repeatedText).skip s.pos).to
          ((Cursor.ofText repeatedText).skip (s.pos + (s.stop - s.pos))) := by decide +kernel
    exact fun s hs => ⟨s.pos, s.stop - s.pos, h s hs⟩

/-- The facts of the text. -/
def repeatedFacts : FileFacts := (FileFacts.ofProgram "a.py" repeatedText none repeatedProgram).1

theorem facts_of_one_wording_have_different_ids_of_two_lines :
    repeatedProgram.IsReadFrom repeatedText ∧ repeatedProgram.HasSmallPlaces ∧
      (repeatedFacts.bindings.map fun b => (b.name, b.place.line, b.place.column)) =
        [("q", 1, 1), ("q", 2, 1)] ∧
      repeatedFacts.calls.map (·.text) = ["f(x)", "f(x)"] ∧
      repeatedFacts.bindings.Pairwise (fun b c => b.id ≠ c.id) ∧
      repeatedFacts.calls.Pairwise (fun c d => c.id ≠ d.id) := by
  have hsmall : repeatedProgram.HasSmallPlaces := by
    have h : ∀ s ∈ repeatedProgram.factSpans, s.line < 2 ^ 32 ∧ s.column < 2 ^ 32 := by
      decide +kernel
    exact h
  have hnames : ∀ b ∈ repeatedFacts.bindings, b.name = "q" := by decide +kernel
  have htexts : ∀ c ∈ repeatedFacts.calls, c.text = "f(x)" := by decide +kernel
  obtain ⟨-, hbindings, hcalls⟩ := facts_of_one_wording_have_different_ids "a.py" repeatedText none
    repeatedProgram repeatedFacts rfl isReadFrom_repeatedProgram hsmall
  refine ⟨isReadFrom_repeatedProgram, hsmall, by decide +kernel, by decide +kernel, ?bindings,
    ?calls⟩
  case bindings =>
    exact hbindings.imp_of_mem fun hb hc hne => hne ((hnames _ hb).trans (hnames _ hc).symm)
  case calls =>
    exact hcalls.imp_of_mem fun hc hd hne => hne ((htexts _ hc).trans (htexts _ hd).symm)

end Python

end XPathTaint
