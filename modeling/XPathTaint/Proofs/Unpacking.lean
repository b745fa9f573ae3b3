import XPathTaint.Proofs.CourseLowering
import XPathTaint.Proofs.NestedStatements
import XPathTaint.Proofs.UnpackedValues

-- What unpacking keeps of a flow. The lowering does not know how many items a starred operand
-- stands for. It binds each target to the operand in its place if there are as many targets as
-- operands, and else to all of them; the first is right as long as no star moves what stands behind
-- it. Then each name is bound to an expression that keeps all operands that its value comes from.

namespace XPathTaint

/-- `part` is an operand of a value that is made of operands, or of an operand of it, or is the
value itself. -/
inductive Expr.OperandIn (part : Expr) : Expr → Prop
  | self : OperandIn part part
  | operand {e : Expr} {operands : List Expr} {o : Origin} : e ∈ operands → OperandIn part e →
      OperandIn part (.compound operands o)

namespace Python

section

variable {path : String} {symbols : Symbols} {n m t u v : Node} {ns ts parts : List Node}
  {p q : Piece}

/-! ## The expressions of operands -/

theorem expr_of_display? (path : String) (symbols : Symbols) (h : n.display? = some parts) :
    ∃ o, n.expr path symbols = .compound (Node.exprs path symbols parts) o := by
  induction n using Node.ind with
  | paren s lead inner ih => exact ih h
  | walrus s target value ih => exact ih h
  | group s form ns =>
    cases form with
    | sequence =>
      obtain rfl : ns = parts := Option.some.inj h
      exact ⟨_, rfl⟩
    | shortCircuit => cases h
    | conditional => cases h
    | other => cases h
  | _ => cases h

theorem expr_of_star? (path : String) (symbols : Symbols) (h : n.star? = some m) :
    ∃ o, n.expr path symbols = .compound [m.expr path symbols] o := by
  cases n with
  | starred s lead inner =>
    obtain rfl : inner = m := Option.some.inj h
    exact ⟨_, rfl⟩
  | _ => cases h

theorem Node.OperandIn.expr (h : v.OperandIn n) :
    (v.expr path symbols).OperandIn (n.expr path symbols) := by
  induction h with
  | self => exact .self
  | operand hdisplay hmem _ ih =>
    obtain ⟨o, hexpr⟩ := expr_of_display? path symbols hdisplay
    rw [hexpr, exprs_eq_map]
    exact .operand (List.mem_map_of_mem hmem) ih
  | starred hstar _ ih =>
    obtain ⟨o, hexpr⟩ := expr_of_star? path symbols hstar
    rw [hexpr]
    exact .operand (List.mem_singleton_self _) ih

/-- An expression keeps an operand that a value comes from: it is that operand, has it as an
operand, or is an operand of it that held the value. -/
def Keeps (path : String) (symbols : Symbols) (e : Expr) (v : Node) (q : Piece) : Prop :=
  (v.expr path symbols).OperandIn e ∨ ∃ w, w.OperandIn v ∧ q.HeldBy w ∧ e = w.expr path symbols

theorem keeps_of_value {root : Node} (h : (Piece.value root).Under q) (hv : q.ComesFrom v) :
    Keeps path symbols (root.expr path symbols) v q := by
  left
  rcases h.of_comesFrom rfl hv with hin | hsource
  · exact hin.expr
  · rw [List.mem_singleton.mp hsource]
    exact .self

theorem keeps_of_operand {root : Node} (hn : n.OperandIn root)
    (h : (Piece.operand (.value root) n).Under q) (hv : q.ComesFrom v) :
    Keeps path symbols (n.expr path symbols) v q := by
  rcases h.of_comesFrom rfl hv with hin | hsource
  · exact Or.inl hin.expr
  · rcases List.mem_cons.mp hsource with rfl | hroot
    · exact Or.inl .self
    · rw [List.mem_singleton.mp hroot]
      exact Or.inr ⟨n, hn, h.heldBy rfl, rfl⟩

/-! ## Targets -/

/-- The targets of a tuple or list. -/
def Node.targets? : Node → Option (List Node)
  | .group _ .sequence ts => some ts
  | .paren _ _ inner => inner.targets?
  | _ => none

mutual

/-- Whether a comment behind a star or bracket stands in the place of a target. -/
def Node.hidesTarget : Node → Bool
  | .paren _ lead inner => lead.isSome || inner.hidesTarget
  | .starred _ lead inner => lead.isSome || inner.hidesTarget
  | .hidden _ _ => true
  | .group _ .sequence ts => Node.anyHidesTarget ts
  | _ => false

def Node.anyHidesTarget : List Node → Bool
  | [] => false
  | t :: rest => t.hidesTarget || Node.anyHidesTarget rest

end

theorem hidesTarget_of_mem (h : Node.anyHidesTarget ts = false) (ht : t ∈ ts) :
    t.hidesTarget = false := by
  induction ts with
  | nil => cases ht
  | cons first rest ih =>
    rw [Node.anyHidesTarget, Bool.or_eq_false_iff] at h
    rcases List.mem_cons.mp ht with rfl | ht
    · exact h.1
    · exact ih h.2 ht

theorem Course.pieceOf_all {α : Type} {order : PairOrder} {part : Course α} {cs : List (Course α)}
    (h : part ∈ cs) : part.PieceOf (.all order cs) := by
  induction cs with
  | nil => cases h
  | cons first rest ih =>
    rcases List.mem_cons.mp h with rfl | h
    · exact .one .self
    · exact .other (ih h)

/-- A target in a sequence takes the value that is meant for it. -/
theorem pieceOf_group {s : Span} {ahead pairwise : Bool} {pos : Nat} {given value : Expr}
    (h : (value, t) ∈ (valuesFor given pairwise ts.length).zip ts) :
    (t.course path symbols ahead (.target value false pos)).PieceOf
      ((Node.group s .sequence ts).course path symbols ahead (.target given pairwise pos)) := by
  rw [Node.course, coursesOfTargets_eq_map]
  exact Course.pieceOf_all (List.mem_map_of_mem h)

theorem pieceOf_targets? (ahead : Bool) (pos : Nat) {pairwise : Bool} {given value : Expr}
    (hts : n.targets? = some ts) (hhides : n.hidesTarget = false)
    (h : (value, t) ∈ (valuesFor given pairwise ts.length).zip ts) :
    t.hidesTarget = false ∧ (t.course path symbols ahead (.target value false pos)).PieceOf
      (n.course path symbols ahead (.target given pairwise pos)) := by
  induction n using Node.ind with
  | paren s lead inner ih =>
    rw [Node.hidesTarget, Bool.or_eq_false_iff] at hhides
    obtain rfl : lead = none := by simpa using hhides.1
    exact ih hts hhides.2
  | group s form parts =>
    cases form with
    | sequence =>
      obtain rfl : parts = ts := Option.some.inj hts
      exact ⟨hidesTarget_of_mem hhides (List.of_mem_zip h).2, pieceOf_group h⟩
    | shortCircuit => cases hts
    | conditional => cases hts
    | other => cases hts
  | _ => cases hts

theorem exists_parts_of_isSequence (h : n.isSequence = true) :
    ∃ s parts, n = .group s .sequence parts := by
  cases n with
  | group s form parts =>
    cases form with
    | sequence => exact ⟨s, parts, rfl⟩
    | shortCircuit => cases h
    | conditional => cases h
    | other => cases h
  | _ => cases h

theorem valuesFor_whole (value : Expr) (count : Nat) :
    valuesFor value false count = List.replicate count value := by
  unfold valuesFor
  split <;> rfl

/-- The operands of a sequence are paired with the targets if there are as many of both. -/
theorem valuesFor_sequence (s : Span) (parts : List Node) (count : Nat) :
    valuesFor ((Node.group s .sequence parts).expr path symbols) true count =
      if parts.length = count then parts.map (·.expr path symbols)
      else List.replicate count ((Node.group s .sequence parts).expr path symbols) := by
  rw [Node.expr, exprs_eq_map]
  simp [valuesFor]

/-- Unless the operands are paired with the targets, each target is given the whole value. -/
theorem valuesFor_of_not_paired {pairwise : Bool} {value : Node} {count : Nat}
    (hseq : pairwise = true → value.isSequence = true)
    (h : ¬(pairwise = true ∧ ∃ s parts, value = .group s .sequence parts ∧
      parts.length = count)) :
    valuesFor (value.expr path symbols) pairwise count =
      List.replicate count (value.expr path symbols) := by
  cases pairwise with
  | false => exact valuesFor_whole _ _
  | true =>
    obtain ⟨s, parts, rfl⟩ := exists_parts_of_isSequence (hseq rfl)
    rw [valuesFor_sequence, if_neg fun hlen => h ⟨rfl, s, parts, rfl, hlen⟩]

theorem mem_zip_replicate (value : Expr) (h : t ∈ ts) :
    (value, t) ∈ (List.replicate ts.length value).zip ts := by
  induction ts with
  | nil => cases h
  | cons first rest ih =>
    rw [List.length_cons, List.replicate_succ, List.zip_cons_cons]
    rcases List.mem_cons.mp h with rfl | h
    · exact List.mem_cons_self
    · exact List.mem_cons_of_mem _ (ih h)

theorem pieceOf_group_whole {s : Span} {ahead : Bool} {pos : Nat} {given : Expr} (ht : t ∈ ts) :
    (t.course path symbols ahead (.target given false pos)).PieceOf
      ((Node.group s .sequence ts).course path symbols ahead (.target given false pos)) := by
  apply pieceOf_group
  rw [valuesFor_whole]
  exact mem_zip_replicate given ht

/-- Whatever is handed to a name or path, it is bound to the whole value that is assigned. -/
theorem pieceOf_hands {name : String} (ahead : Bool) (given : Expr) (pos : Nat)
    (h : Hands t p u q) (hhides : t.hidesTarget = false)
    (hname : (u.expr path symbols).dotted = some name) :
    (Course.item (.bind ahead name given pos (u.expr path symbols).place)).PieceOf
      (t.course path symbols ahead (.target given false pos)) := by
  induction h with
  | @reached u _ hu =>
    cases u with
    | name s =>
      obtain rfl : s.text = name := Option.some.inj hname
      exact .self
    | member s object attr =>
      have hitem : taking ahead ((Node.member s object attr).expr path symbols) given pos =
          .item (.bind ahead name given pos
            ((Node.member s object attr).expr path symbols).place) := by
        rw [Node.expr, taking, ← Node.expr, hname]
        rfl
      rw [← hitem]
      exact .other .self
    | subscript s value indices => cases hname
    | _ => cases hu
  | @paren s lead t _ _ _ _ ih =>
    rw [Node.hidesTarget, Bool.or_eq_false_iff] at hhides
    obtain rfl : lead = none := by simpa using hhides.1
    exact ih hhides.2 hname
  | @starred s lead t _ _ _ _ ih =>
    rw [Node.hidesTarget, Bool.or_eq_false_iff] at hhides
    obtain rfl : lead = none := by simpa using hhides.1
    exact ih hhides.2 hname
  | hidden => cases hhides
  | @bracket s t u _ _ _ ih =>
    have ht := List.mem_singleton_self t
    exact (ih (hidesTarget_of_mem hhides ht) hname).trans (pieceOf_group_whole ht)
  | @sequence s ts t u _ _ _ _ _ _ _ hmem _ ih =>
    have ht := (List.of_mem_zip hmem).1
    exact (ih (hidesTarget_of_mem hhides ht) hname).trans (pieceOf_group_whole ht)

/-! ## Assignments -/

/-- If a value is a sequence of as many operands as there are targets, then stars meet: no star
moves an operand to another target than the one in its place. -/
def PairsInStep (value : Node) (ts : List Node) : Prop :=
  ∀ s parts, value = .group s .sequence parts → parts.length = ts.length → StarsMeet ts parts

theorem binding_of_pieceOf {prog : Program} {ahead : Bool} {name : String} {value : Expr}
    {pos : Nat} {place : Place}
    (h : (Course.item (.bind ahead name value pos place)).PieceOf (prog.course path symbols)) :
    ∃ b ∈ (lowerProgram path symbols prog).bindings,
      b.name = name ∧ b.value = value ∧ b.pos = pos ∧ b.place = place := by
  obtain ⟨here, n, k, hinfix⟩ := h.leaves_locate .ofModule 0 1
  have hmark :
      Mark.mk here (.bind ahead name value pos place) ∈ (prog.located path symbols).leaves :=
    hinfix.subset (List.mem_singleton_self _)
  obtain ⟨id, hb⟩ := FileFacts.numberBinding_eq path
    { id := 0, name, value, scope := here.scope, block := here.block, pos, place }
  refine ⟨{ id, name, value, scope := here.scope, block := here.block, pos, place }, ?_, rfl, rfl,
    rfl, rfl⟩
  rw [(lowerProgram_facts path symbols prog).2]
  exact List.mem_filterMap.mpr ⟨_, hmark, congrArg some hb⟩

/-- The course of a target of an assignment is a piece of the whole one; only the last target is
read pairwise. -/
theorem pieceOf_assigned (path : String) (symbols : Symbols) {prog : Program} {stop : Nat} {others : List Node} {last value : Node}
    (h : .assign stop (others ++ [last]) (some value) ∈ prog.statements) :
    (∀ t ∈ others, (t.course path symbols false
        (.target (value.expr path symbols) false stop)).PieceOf (prog.course path symbols)) ∧
      (last.course path symbols false
        (.target (value.expr path symbols) value.isSequence stop)).PieceOf
          (prog.course path symbols) := by
  have hstmt : ((Stmt.assign stop (others ++ [last]) (some value)).course path symbols).PieceOf
      (prog.course path symbols) := pieceOf_program h
  rw [Stmt.course, courseOfTargets, List.reverse_append] at hstmt
  constructor
  · intro t ht
    refine Course.PieceOf.trans (.other (Course.pieceOf_all (List.mem_cons_of_mem _ ?_))) hstmt
    exact List.mem_map_of_mem (List.mem_reverse.mpr ht)
  · exact Course.PieceOf.trans (.other (Course.pieceOf_all List.mem_cons_self)) hstmt

/-- What a target in a sequence is given, so that whatever it hands on keeps its operands. -/
theorem exists_value_of_unpacks {pairwise : Bool} {value : Node}
    (hpairwise : pairwise = true → value.isSequence = true ∧ PairsInStep value ts)
    (hunpacks : Unpacks ts (.value value) u q) :
    ∃ t x given, Hands t x u q ∧
      (given, t) ∈ (valuesFor (value.expr path symbols) pairwise ts.length).zip ts ∧
      ∀ v, q.ComesFrom v → Keeps path symbols given v q := by
  obtain ⟨items, shares, t, x, hitems, hshares, hmem, hhands⟩ := hunpacks
  have hwhole : (Piece.value value).Under q := by
    have hshare := Piece.Under.distributes (Piece.Under.self.iterates rfl hitems) hshares
    exact (hshare x (List.of_mem_zip hmem).2).hands rfl hhands
  have hreplicate := mem_zip_replicate (value.expr path symbols) (List.of_mem_zip hmem).1
  by_cases hpairs : pairwise = true ∧ ∃ s parts, value = .group s .sequence parts ∧
      parts.length = ts.length
  · obtain ⟨rfl, s, parts, rfl, hlen⟩ := hpairs
    obtain ⟨n, hn, hunder⟩ := share_of_operand (p := .value (.group s .sequence parts)) rfl hlen
      ((hpairwise rfl).2 s parts rfl hlen) hitems hshares hmem
    refine ⟨t, x, n.expr path symbols, hhands, ?_, ?_⟩
    · rw [valuesFor_sequence, if_pos hlen, List.zip_map_left]
      exact List.mem_map.mpr ⟨(n, t), hn, rfl⟩
    · have hoperand : n.OperandIn (.group s .sequence parts) :=
        .operand rfl (List.of_mem_zip hn).1 .self
      exact fun v => keeps_of_operand hoperand (hunder.hands rfl hhands)
  · refine ⟨t, x, value.expr path symbols, hhands, ?_, fun v => keeps_of_value hwhole⟩
    rw [valuesFor_of_not_paired (fun h => (hpairwise h).1) hpairs]
    exact hreplicate

/-- Unpacking loses no flow where no star moves an operand to another target. For every assignment,
in whatever place, and whatever its starred operands stand for in a run: a name or path of members
that takes a value in the unpacking is bound to an expression that keeps all operands that the value
comes from. The targets before the last one are bound to the whole value in any case. -/
theorem what_is_unpacked_is_kept (path : String) (symbols : Symbols) (prog : Program) (stop : Nat)
    (others : List Node) (last value target : Node) (ts : List Node) (u : Node) (q : Piece)
    (name : String) (hstmt : .assign stop (others ++ [last]) (some value) ∈ prog.statements)
    (htarget : target ∈ others ∨ target = last ∧ PairsInStep value ts)
    (hts : target.targets? = some ts) (hhides : target.hidesTarget = false)
    (hunpacks : Unpacks ts (.value value) u q)
    (hname : (u.expr path symbols).dotted = some name) :
    ∃ b ∈ (lowerProgram path symbols prog).bindings,
      b.name = name ∧ b.pos = stop ∧ b.place = (u.expr path symbols).place ∧
        ∀ v, q.ComesFrom v → Keeps path symbols b.value v q := by
  obtain ⟨hothers, hlast⟩ := pieceOf_assigned path symbols hstmt
  obtain ⟨pairwise, hpairwise, hpiece⟩ : ∃ pairwise : Bool,
      (pairwise = true → value.isSequence = true ∧ PairsInStep value ts) ∧
        (target.course path symbols false
          (.target (value.expr path symbols) pairwise stop)).PieceOf
            (prog.course path symbols) := by
    rcases htarget with hother | ⟨rfl, hstep⟩
    · exact ⟨false, nofun, hothers target hother⟩
    · exact ⟨value.isSequence, fun hseq => ⟨hseq, hstep⟩, hlast⟩
  obtain ⟨t, x, given, hhands, hmem, hkeeps⟩ := exists_value_of_unpacks hpairwise hunpacks
  obtain ⟨hinner, htaken⟩ := pieceOf_targets? false stop hts hhides hmem
  have hitem := pieceOf_hands false given stop hhands hinner hname
  obtain ⟨b, hb, hbname, hbvalue, hbpos, hbplace⟩ :=
    binding_of_pieceOf ((hitem.trans htaken).trans hpiece)
  exact ⟨b, hb, hbname, hbpos, hbplace, hbvalue ▸ hkeeps⟩

end

/-! ## A name and a name for the rest -/

/-- The name in `*b` -/
def restName : Node := .name ⟨4, 5, 1, 5, "b"⟩

/-- `a, *b` -/
def nameAndRest : List Node :=
  [.name ⟨0, 1, 1, 1, "a"⟩, .starred ⟨3, 5, 1, 4, "*b"⟩ none restName]

/-- `a, *b = value` -/
def assignNameAndRest (value : Node) : Program :=
  { start := ⟨0, 0, 1, 1, ""⟩, isPartial := false
    body := [.assign 14 [.group ⟨0, 5, 1, 1, "a, *b"⟩ .sequence nameAndRest] (some value)] }

/-- The rest is whatever comes behind the first item. -/
theorem unpacks_nameAndRest {p first : Piece} {others : List Piece}
    (h : p.Iterates (first :: others)) : Unpacks nameAndRest p restName (.rest others) := by
  have hshares : Distributes ([.name ⟨0, 1, 1, 1, "a"⟩] ++
      .starred ⟨3, 5, 1, 4, "*b"⟩ none restName :: []) ([first] ++ others ++ [])
      ([first] ++ .rest others :: []) :=
    .starred rfl (by simp [Node.star?]) rfl rfl
  exact ⟨first :: others ++ [], [first, .rest others], .starred ⟨3, 5, 1, 4, "*b"⟩ none restName,
    .rest others, by simpa using h, hshares, by simp [nameAndRest], .starred (.reached rfl)⟩

/-- Two operands give the items of the one and then those of the other. -/
theorem iterates_two {p : Piece} {n m : Node} {own own' : List Piece}
    (hdisplay : p.display? = some [n, m]) (hn : n.star? = none → own = [.operand p n])
    (hnstar : ∀ inner, n.star? = some inner →
      Piece.Iterates (.operand (.operand p n) inner) own)
    (hm : m.star? = none → own' = [.operand p m])
    (hmstar : ∀ inner, m.star? = some inner →
      Piece.Iterates (.operand (.operand p m) inner) own') : p.Iterates (own ++ own') := by
  have h := Piece.Iterates.display (p := p) [(n, own), (m, own')] hdisplay
    (by simpa using ⟨hn, hm⟩) (by simpa using ⟨hnstar, hmstar⟩)
  simpa using h

/-- `ys` -/
def spreadNode : Node := .name ⟨12, 14, 1, 13, "ys"⟩

/-- `x, *ys` -/
def starBehind : Node :=
  .group ⟨8, 14, 1, 9, "x, *ys"⟩ .sequence
    [.name ⟨8, 9, 1, 9, "x"⟩, .starred ⟨11, 14, 1, 12, "*ys"⟩ none spreadNode]

theorem what_is_unpacked_is_kept_of_a_name_and_rest :
    .assign 14 [.group ⟨0, 5, 1, 1, "a, *b"⟩ .sequence nameAndRest] (some starBehind) ∈
        (assignNameAndRest starBehind).statements ∧
      PairsInStep starBehind nameAndRest ∧
      ∃ q, Unpacks nameAndRest (.value starBehind) restName q ∧ q.ComesFrom spreadNode ∧
        ∃ b ∈ (lowerProgram "a.py" [] (assignNameAndRest starBehind)).bindings,
          b.name = "b" ∧ b.pos = 14 ∧ b.place = (restName.expr "a.py" []).place ∧
            ∀ v, q.ComesFrom v → Keeps "a.py" [] b.value v q := by
  let p : Piece := .value starBehind
  let spread : Piece :=
    .operand (.operand p (.starred ⟨11, 14, 1, 12, "*ys"⟩ none spreadNode)) spreadNode
  have hstmt : .assign 14 [.group ⟨0, 5, 1, 1, "a, *b"⟩ .sequence nameAndRest] (some starBehind) ∈
      (assignNameAndRest starBehind).statements := List.mem_cons_self
  have hstep : PairsInStep starBehind nameAndRest := by
    rintro s parts ⟨⟩ -
    refine ⟨1, fun j hj => ?_⟩
    match j with
    | 0 => exact ⟨by simp [nameAndRest, Node.star?], by simp [Node.star?]⟩
    | j + 2 => simp [nameAndRest]
  have hitems : p.Iterates ([.operand p (.name ⟨8, 9, 1, 9, "x"⟩)] ++
      (List.range 2).map (.element spread)) := by
    refine iterates_two rfl (fun _ => rfl) nofun nofun ?_
    rintro inner ⟨⟩
    exact .elements 2 rfl nofun
  have hunpacks := unpacks_nameAndRest hitems
  refine ⟨hstmt, hstep, _, hunpacks, .rest List.mem_cons_self (.taken List.mem_cons_self), ?_⟩
  exact what_is_unpacked_is_kept "a.py" [] _ 14 [] _ starBehind _ nameAndRest restName _ "b" hstmt
    (Or.inr ⟨rfl, hstep⟩) rfl rfl hunpacks rfl

/-- `xs` -/
def spreadInFront : Node := .name ⟨9, 11, 1, 10, "xs"⟩

/-- `*xs, y` -/
def starInFront : Node :=
  .group ⟨8, 14, 1, 9, "*xs, y"⟩ .sequence
    [.starred ⟨8, 11, 1, 9, "*xs"⟩ none spreadInFront, .name ⟨13, 14, 1, 14, "y"⟩]

/-- A star in front of the last operand hands more than one item on, so that the rest holds some of
them; but it is bound to the last operand alone. -/
theorem a_star_moves_an_operand_to_another_target :
    .assign 14 [.group ⟨0, 5, 1, 1, "a, *b"⟩ .sequence nameAndRest] (some starInFront) ∈
        (assignNameAndRest starInFront).statements ∧
      ∃ q, Unpacks nameAndRest (.value starInFront) restName q ∧ q.ComesFrom spreadInFront ∧
        ∀ b ∈ (lowerProgram "a.py" [] (assignNameAndRest starInFront)).bindings, b.name = "b" →
          ¬Keeps "a.py" [] b.value spreadInFront q := by
  let p : Piece := .value starInFront
  let spread : Piece :=
    .operand (.operand p (.starred ⟨8, 11, 1, 9, "*xs"⟩ none spreadInFront)) spreadInFront
  have hitems : p.Iterates ((List.range 2).map (.element spread) ++
      [.operand p (.name ⟨13, 14, 1, 14, "y"⟩)]) := by
    refine iterates_two rfl nofun ?_ (fun _ => rfl) nofun
    rintro inner ⟨⟩
    exact .elements 2 rfl nofun
  refine ⟨List.mem_cons_self, _, unpacks_nameAndRest hitems,
    .rest List.mem_cons_self (.taken List.mem_cons_self), ?_⟩
  have hbindings :
      (lowerProgram "a.py" [] (assignNameAndRest starInFront)).bindings.map
          (fun b => (b.name, b.value)) =
        [("a", .compound [spreadInFront.expr "a.py" []] (originIn "a.py" ⟨8, 11, 1, 9, "*xs"⟩)),
          ("b", .name "y" (originIn "a.py" ⟨13, 14, 1, 14, "y"⟩))] := by
    rw [lowerProgram_eq]
    rfl
  intro b hb hname
  have hmem := List.mem_map_of_mem (f := fun b => (b.name, b.value)) hb
  rw [hbindings, hname] at hmem
  obtain ⟨-, hvalue⟩ : "b" = "b" ∧ b.value = .name "y" (originIn "a.py" ⟨13, 14, 1, 14, "y"⟩) := by
    simpa using hmem
  rw [hvalue]
  rintro (hin | ⟨w, hw, -, hexpr⟩)
  · generalize hsource : spreadInFront.expr "a.py" [] = e at hin
    cases hin
    simp [spreadInFront, Node.expr] at hsource
  · cases hw with
    | self => simp [spreadInFront, Node.expr] at hexpr
    | operand hdisplay => cases hdisplay
    | starred hstar => cases hstar

end Python

end XPathTaint
