import Mathlib.Data.List.Forall2
import XPathTaint.Python.Atoms

-- What the targets of an assignment take when the program runs. The items of a tuple or list go to
-- as many targets in turn; a starred operand stands for any number of items, and a starred target
-- takes all that the targets around it leave. Each value knows the operands that it was taken from,
-- so that one can say where it comes from, however deep the unpacking goes.

namespace XPathTaint.Python

/-! ## Operands -/

/-- The operands of a tuple or list, perhaps in brackets or given a name on the way. -/
def Node.display? : Node → Option (List Node)
  | .group _ .sequence parts => some parts
  | .paren _ _ inner => inner.display?
  | .walrus _ _ value => value.display?
  | _ => none

/-- What stands behind a star. -/
def Node.star? : Node → Option Node
  | .starred _ _ inner => some inner
  | _ => none

/-- `part` is an operand of a tuple or list, or of an operand of it, or the node itself. -/
inductive Node.OperandIn (part : Node) : Node → Prop
  | self : OperandIn part part
  | operand {n m : Node} {parts : List Node} : n.display? = some parts → m ∈ parts →
      OperandIn part m → OperandIn part n
  | starred {n inner : Node} : n.star? = some inner → OperandIn part inner → OperandIn part n

theorem Node.OperandIn.trans {part m n : Node} (h : part.OperandIn m) (h' : m.OperandIn n) :
    part.OperandIn n := by
  induction h' with
  | self => exact h
  | operand hdisplay hmem _ ih => exact .operand hdisplay hmem ih
  | starred hstar _ ih => exact .starred hstar ih

/-! ## Values -/

/-- A value in a run, by the way that it was taken. -/
inductive Piece where
  /-- The value of an expression. -/
  | value (n : Node)
  /-- The value of an operand of a tuple or list. -/
  | operand (around : Piece) (n : Node)
  /-- An item of a value that was not written as a tuple or list. -/
  | element (around : Piece) (index : Nat)
  /-- The list that a starred target takes. -/
  | rest (items : List Piece)

namespace Piece

/-- The expression that was evaluated for a value. -/
def node? : Piece → Option Node
  | value n => some n
  | operand _ n => some n
  | _ => none

def display? (p : Piece) : Option (List Node) := p.node?.bind Node.display?

/-- The operands that a value was taken from, the innermost first. -/
def sources : Piece → List Node
  | value n => [n]
  | operand around n => n :: around.sources
  | element around _ => around.sources
  | rest _ => []

/-- What the items of a value are in some run. A starred operand gives the items of what stands
behind the star; nothing tells how many items there are of a value not written as a sequence. -/
inductive Iterates : Piece → List Piece → Prop
  | display {p : Piece} (spread : List (Node × List Piece)) :
      p.display? = some (spread.map (·.1)) →
      (∀ x ∈ spread, x.1.star? = none → x.2 = [.operand p x.1]) →
      (∀ x ∈ spread, ∀ inner, x.1.star? = some inner →
        Iterates (.operand (.operand p x.1) inner) x.2) →
      Iterates p (spread.flatMap (·.2))
  | elements {p : Piece} (count : Nat) : p.display? = none → (∀ items, p ≠ .rest items) →
      Iterates p ((List.range count).map (.element p))
  | rest (items : List Piece) : Iterates (.rest items) items

/-- A value comes from an operand: it was taken from it, was built with it, or is a list with a
value that comes from it. -/
inductive ComesFrom (v : Node) : Piece → Prop
  | taken {p : Piece} : v ∈ p.sources → ComesFrom v p
  | part {p : Piece} {n : Node} : p.node? = some n → v.OperandIn n → ComesFrom v p
  | rest {items : List Piece} {p : Piece} : p ∈ items → ComesFrom v p → ComesFrom v (.rest items)

/-- An operand held a value: it was taken from it, as was each item of a list. -/
inductive HeldBy (v : Node) : Piece → Prop
  | taken {p : Piece} : v ∈ p.sources → HeldBy v p
  | rest {items : List Piece} : (∀ p ∈ items, HeldBy v p) → HeldBy v (.rest items)

end Piece

/-! ## Targets -/

/-- What each of some targets takes of as many items, or with a star among them of any items that
are enough for the others. -/
inductive Distributes : List Node → List Piece → List Piece → Prop
  | plain {ts : List Node} {items : List Piece} : (∀ t ∈ ts, t.star? = none) →
      ts.length = items.length → Distributes ts items items
  | starred {front back : List Node} {star inner : Node} {before between after : List Piece} :
      star.star? = some inner → (∀ t ∈ front ++ back, t.star? = none) →
      front.length = before.length → back.length = after.length →
      Distributes (front ++ star :: back) (before ++ between ++ after)
        (before ++ .rest between :: after)

/-- A value assigned to a target hands a value to a name, member or item in it. Round brackets
around a single target are no sequence, and look like one all the same. -/
inductive Hands : Node → Piece → Node → Piece → Prop
  | reached {u : Node} {p : Piece} : isTarget u = true → Hands u p u p
  | paren {s : Span} {lead : Option Span} {t u : Node} {p q : Piece} : Hands t p u q →
      Hands (.paren s lead t) p u q
  | starred {s : Span} {lead : Option Span} {t u : Node} {p q : Piece} : Hands t p u q →
      Hands (.starred s lead t) p u q
  | hidden {comment : Span} {t u : Node} {p q : Piece} : Hands t p u q →
      Hands (.hidden comment t) p u q
  | bracket {s : Span} {t u : Node} {p q : Piece} : Hands t p u q →
      Hands (.group s .sequence [t]) p u q
  | sequence {s : Span} {ts : List Node} {t u : Node} {p x q : Piece} {items shares : List Piece} :
      p.Iterates items → Distributes ts items shares → (t, x) ∈ ts.zip shares → Hands t x u q →
      Hands (.group s .sequence ts) p u q

/-- Unpacking a value into targets hands a value to a name, member or item in one of them, whether
or not the others can take theirs. -/
def Unpacks (ts : List Node) (p : Piece) (u : Node) (q : Piece) : Prop :=
  ∃ items shares t x, p.Iterates items ∧ Distributes ts items shares ∧ (t, x) ∈ ts.zip shares ∧
    Hands t x u q

/-! ## Values taken from one value -/

/-- A value was taken from `base`, or is a list of such values. -/
inductive Piece.Under (base : Piece) : Piece → Prop
  | self : Under base base
  | operand {p : Piece} {n m : Node} : Under base p → p.node? = some n → m.OperandIn n →
      Under base (.operand p m)
  | element {p : Piece} {i : Nat} : Under base p → (∀ items, p ≠ .rest items) →
      Under base (.element p i)
  | rest {items : List Piece} : (∀ p ∈ items, Under base p) → Under base (.rest items)

namespace Piece

section

variable {base p q : Piece} {n k v : Node} {items : List Piece}

theorem mem_sources_of_node? (h : p.node? = some n) : n ∈ p.sources := by
  cases p with
  | value m =>
    obtain rfl : m = n := Option.some.inj h
    exact List.mem_singleton_self m
  | operand around m =>
    obtain rfl : m = n := Option.some.inj h
    exact List.mem_cons_self
  | element around i => cases h
  | rest items => cases h

theorem ne_rest_of_node? (h : p.node? = some n) (items : List Piece) : p ≠ .rest items := by
  rintro rfl
  cases h

theorem exists_node?_of_display? {parts : List Node} (h : p.display? = some parts) :
    ∃ n, p.node? = some n ∧ n.display? = some parts := Option.bind_eq_some_iff.mp h

/-- The items of a value that was taken from another one were taken from it too. -/
theorem Under.iterates (hbase : base.node? = some n) (h : base.Under p)
    (hitems : p.Iterates items) :
    ∀ q ∈ items, base.Under q := by
  induction hitems with
  | @display p spread hdisplay hplain hstar ih =>
    intro q hq
    obtain ⟨x, hx, hq⟩ := List.mem_flatMap.mp hq
    obtain ⟨k, hk, hparts⟩ := exists_node?_of_display? hdisplay
    have hoperand : base.Under (.operand p x.1) :=
      .operand h hk (.operand hparts (List.mem_map_of_mem hx) .self)
    cases hx1 : x.1.star? with
    | none =>
      rw [hplain x hx hx1] at hq
      rw [List.mem_singleton.mp hq]
      exact hoperand
    | some inner => exact ih x hx inner hx1 (.operand hoperand rfl (.starred hx1 .self)) q hq
  | elements count hnone hrest =>
    intro q hq
    obtain ⟨i, _, rfl⟩ := List.mem_map.mp hq
    exact .element h hrest
  | rest items =>
    cases h with
    | self => cases hbase
    | rest h => exact h

theorem Under.distributes {ts : List Node} {shares : List Piece}
    (h : ∀ q ∈ items, base.Under q) (hshares : Distributes ts items shares) :
    ∀ q ∈ shares, base.Under q := by
  cases hshares with
  | plain => exact h
  | starred =>
    intro q hq
    simp only [List.mem_append, List.mem_cons] at h hq
    rcases hq with hq | rfl | hq
    · exact h q (Or.inl (Or.inl hq))
    · exact .rest fun p hp => h p (Or.inl (Or.inr hp))
    · exact h q (Or.inr hq)

/-- What is handed on of a value was taken from where that was taken from. -/
theorem Under.hands {t u : Node} (hbase : base.node? = some n) (h : base.Under p)
    (hhands : Hands t p u q) : base.Under q := by
  induction hhands with
  | reached => exact h
  | paren _ ih => exact ih h
  | starred _ ih => exact ih h
  | hidden _ ih => exact ih h
  | bracket _ ih => exact ih h
  | sequence hitems hshares hmem _ ih =>
    exact ih (Under.distributes (h.iterates hbase hitems) hshares _ (List.of_mem_zip hmem).2)

/-! ## Sources -/

theorem Under.operandIn (hbase : base.node? = some n) (h : base.Under q) (hk : q.node? = some k) :
    k.OperandIn n := by
  induction h generalizing k with
  | self =>
    obtain rfl := Option.some.inj (hbase.symm.trans hk)
    exact .self
  | operand _ hnode hm ih =>
    obtain rfl := Option.some.inj hk
    exact hm.trans (ih hnode)
  | element => cases hk
  | rest => cases hk

theorem Under.mem_sources (hbase : base.node? = some n) (h : base.Under q)
    (hrest : ∀ items, q ≠ .rest items) : n ∈ q.sources := by
  induction h with
  | self => exact mem_sources_of_node? hbase
  | operand _ hnode _ ih => exact List.mem_cons_of_mem _ (ih (ne_rest_of_node? hnode))
  | element _ hp ih => exact ih hp
  | rest => exact absurd rfl (hrest _)

/-- What is taken from the value of an operand is held by that operand. -/
theorem Under.heldBy (hbase : base.node? = some n) (h : base.Under q) : q.HeldBy n := by
  induction h with
  | self => exact .taken (mem_sources_of_node? hbase)
  | operand hp hnode hm _ => exact .taken ((Under.operand hp hnode hm).mem_sources hbase nofun)
  | element hp hrest _ =>
    have hmem := hp.mem_sources hbase hrest
    exact .taken hmem
  | rest _ ih => exact .rest ih

theorem Under.of_mem_sources (hbase : base.node? = some n) (h : base.Under q) (hv : v ∈ q.sources) :
    v.OperandIn n ∨ v ∈ base.sources := by
  induction h with
  | self => exact Or.inr hv
  | operand hp hnode hm ih =>
    rcases List.mem_cons.mp hv with rfl | hv
    · exact Or.inl (hm.trans (hp.operandIn hbase hnode))
    · exact ih hv
  | element _ _ ih => exact ih hv
  | rest => cases hv

/-- What is taken from a value comes from operands in it, or from where that one was taken from. -/
theorem Under.of_comesFrom (hbase : base.node? = some n) (h : base.Under q) (hv : q.ComesFrom v) :
    v.OperandIn n ∨ v ∈ base.sources := by
  induction hv with
  | taken hv => exact h.of_mem_sources hbase hv
  | part hk hv => exact Or.inl (hv.trans (h.operandIn hbase hk))
  | rest hp _ ih =>
    cases h with
    | self => cases hbase
    | rest h => exact ih (h _ hp)

end

end Piece

/-! ## Targets and operands in step -/

/-- At most in one place, the same for both, there is a star. -/
def StarsMeet (ts parts : List Node) : Prop :=
  ∃ i : Nat, ∀ j, j ≠ i → (∀ t, ts[j]? = some t → t.star? = none) ∧
    ∀ n, parts[j]? = some n → n.star? = none

section

variable {ts parts : List Node}

/-- Around the place where stars meet there are as many targets as operands, all without stars. -/
theorem StarsMeet.split (h : StarsMeet ts parts) (hlen : parts.length = ts.length) (hts : ts ≠ []) :
    ∃ front back t before after n, ts = front ++ t :: back ∧ parts = before ++ n :: after ∧
      front.length = before.length ∧ back.length = after.length ∧
      (∀ t ∈ front ++ back, t.star? = none) ∧ ∀ n ∈ before ++ after, n.star? = none := by
  obtain ⟨i, h⟩ := h
  induction i generalizing ts parts with
  | zero =>
    obtain ⟨t, back, rfl⟩ := List.exists_cons_of_ne_nil hts
    obtain ⟨n, after, rfl⟩ := List.exists_cons_of_length_eq_add_one (hlen.trans List.length_cons)
    refine ⟨[], back, t, [], after, n, rfl, rfl, rfl, by simpa using hlen.symm, ?_, ?_⟩
    · intro t' ht
      obtain ⟨j, hj⟩ := List.mem_iff_getElem?.mp ht
      exact (h (j + 1) (Nat.succ_ne_zero j)).1 t' (by simpa using hj)
    · intro n' hn
      obtain ⟨j, hj⟩ := List.mem_iff_getElem?.mp hn
      exact (h (j + 1) (Nat.succ_ne_zero j)).2 n' (by simpa using hj)
  | succ i ih =>
    obtain ⟨t, ts, rfl⟩ := List.exists_cons_of_ne_nil hts
    obtain ⟨n, parts, rfl⟩ := List.exists_cons_of_length_eq_add_one (hlen.trans List.length_cons)
    have hlen : parts.length = ts.length := by simpa using hlen
    have hfirst := h 0 (Nat.succ_ne_zero i).symm
    by_cases hrest : ts = []
    · subst hrest
      obtain rfl := List.length_eq_zero_iff.mp hlen
      exact ⟨[], [], t, [], [], n, rfl, rfl, rfl, rfl, by simp, by simp⟩
    · obtain ⟨front, back, t', before, after, n', rfl, rfl, hfront, hback, hts, hparts⟩ :=
        ih hlen hrest fun j hj => by
          simpa using h (j + 1) (fun heq => hj (Nat.succ.inj heq))
      refine ⟨t :: front, back, t', n :: before, after, n', rfl, rfl, by simpa using hfront, hback,
        ?_, ?_⟩
      · exact List.forall_mem_cons.mpr ⟨hfirst.1 t rfl, hts⟩
      · exact List.forall_mem_cons.mpr ⟨hfirst.2 n rfl, hparts⟩

/-- A list is split in one way at the only star in it. -/
theorem split_at_star {front back front' back' : List Node} {t star : Node}
    (h : front' ++ star :: back' = front ++ t :: back) (hstar : star.star? ≠ none)
    (hnone : ∀ t ∈ front ++ back, t.star? = none) :
    front' = front ∧ back' = back := by
  rcases List.append_eq_append_iff.mp h with ⟨more, rfl, hrest⟩ | ⟨more, rfl, hrest⟩
  · cases more with
    | nil => exact ⟨by simp, (List.cons.inj hrest).2⟩
    | cons first more =>
      obtain rfl := (List.cons.inj hrest).1
      exact absurd (hnone star (by simp)) hstar
  · cases more with
    | nil => exact ⟨by simp, (List.cons.inj hrest).2.symm⟩
    | cons first more =>
      have hmem : star ∈ back := by simp [(List.cons.inj hrest).2]
      exact absurd (hnone star (List.mem_append_right _ hmem)) hstar

theorem exists_of_forall₂ {α β γ : Type} {R : α → β → Prop} {as : List α} {bs : List β}
    {cs : List γ} {c : γ} {b : β} (h : List.Forall₂ R as bs) (hlen : as.length = cs.length)
    (hmem : (c, b) ∈ cs.zip bs) : ∃ a, (a, c) ∈ as.zip cs ∧ R a b := by
  induction h generalizing cs with
  | nil => simp at hmem
  | @cons a b' as bs hab _ ih =>
    obtain ⟨c', cs, rfl⟩ := List.exists_cons_of_length_eq_add_one hlen.symm
    rw [List.zip_cons_cons] at hmem ⊢
    rcases List.mem_cons.mp hmem with heq | hmem
    · obtain ⟨rfl, rfl⟩ := Prod.mk.inj heq
      exact ⟨a, List.mem_cons_self, hab⟩
    · obtain ⟨a', ha', hab'⟩ := ih (by simpa using hlen) hmem
      exact ⟨a', List.mem_cons_of_mem _ ha', hab'⟩

/-- The share of the target in the place of the star: the one item of the operand there, or the list
of all of them. -/
theorem share_at_star {front back : List Node} {t : Node} {before own after shares : List Piece}
    (hshares : Distributes (front ++ t :: back) (before ++ own ++ after) shares)
    (hfront : front.length = before.length) (hback : back.length = after.length)
    (hnone : ∀ t ∈ front ++ back, t.star? = none) :
    ∃ y, shares = before ++ y :: after ∧ (own = [y] ∨ y = .rest own) := by
  generalize hts : front ++ t :: back = ts at hshares
  generalize hitems : before ++ own ++ after = items at hshares
  cases hshares with
  | plain _ hlen =>
    subst hts hitems
    have hone : own.length = 1 := by
      simp only [List.length_append, List.length_cons] at hlen
      omega
    obtain ⟨y, rfl⟩ := List.length_eq_one_iff.mp hone
    exact ⟨y, by simp, Or.inl rfl⟩
  | @starred front' back' star inner before' between after' hstar _ hfront' hback' =>
    obtain ⟨rfl, rfl⟩ := split_at_star hts.symm (by simp [hstar]) hnone
    obtain ⟨hleft, rfl⟩ := List.append_inj' hitems (hback.symm.trans hback')
    obtain ⟨rfl, rfl⟩ := List.append_inj hleft (hfront.symm.trans hfront')
    exact ⟨.rest own, rfl, Or.inr rfl⟩

/-- Where stars meet, the share of each target was taken from the operand in its place. -/
theorem share_of_operand {p x : Piece} {t : Node} {items shares : List Piece}
    (hparts : p.display? = some parts) (hlen : parts.length = ts.length)
    (hstars : StarsMeet ts parts) (hitems : p.Iterates items)
    (hshares : Distributes ts items shares) (hmem : (t, x) ∈ ts.zip shares) :
    ∃ n, (n, t) ∈ parts.zip ts ∧ (Piece.operand p n).Under x := by
  have hts : ts ≠ [] := by
    rintro rfl
    simp at hmem
  obtain ⟨front, back, t₀, before, after, n₀, rfl, rfl, hfront, hback, hplainTs, hplainParts⟩ :=
    hstars.split hlen hts
  refine exists_of_forall₂ ?_ hlen hmem
  cases hitems with
  | elements count hnone => simp [hparts] at hnone
  | rest => simp [Piece.display?, Piece.node?] at hparts
  | display spread hdisplay hplain hstar =>
    have hspread := Option.some.inj (hdisplay.symm.trans hparts)
    obtain ⟨first, later, rfl, rfl, hlater⟩ := List.map_eq_append_iff.mp hspread
    obtain ⟨⟨n₀, own⟩, last, rfl, rfl, rfl⟩ := List.map_eq_cons_iff.mp hlater
    let share := fun x : Node × List Piece => Piece.operand p x.1
    have hfirst : first.flatMap (·.2) = first.map share := by
      rw [List.map_eq_flatMap]
      exact List.flatMap_congr fun x hx => hplain x (List.mem_append_left _ hx)
        (hplainParts x.1 (List.mem_append_left _ (List.mem_map_of_mem hx)))
    have hlast : last.flatMap (·.2) = last.map share := by
      rw [List.map_eq_flatMap]
      exact List.flatMap_congr fun x hx =>
        hplain x (List.mem_append_right _ (List.mem_cons_of_mem _ hx))
          (hplainParts x.1 (List.mem_append_right _ (List.mem_map_of_mem hx)))
    have hown : ∀ q ∈ own, (Piece.operand p n₀).Under q := by
      have hmem₀ : (n₀, own) ∈ first ++ (n₀, own) :: last := by simp
      cases hstar₀ : n₀.star? with
      | none =>
        intro q hq
        have hsingle : own = [.operand p n₀] := hplain _ hmem₀ hstar₀
        rw [hsingle] at hq
        rw [List.mem_singleton.mp hq]
        exact .self
      | some inner =>
        have hinner : (Piece.operand p n₀).Under (.operand (.operand p n₀) inner) :=
          .operand .self rfl (.starred hstar₀ .self)
        exact hinner.iterates rfl (hstar _ hmem₀ inner hstar₀)
    rw [List.flatMap_append, List.flatMap_cons, hfirst, hlast, ← List.append_assoc] at hshares
    obtain ⟨y, rfl, hy⟩ := share_at_star hshares (by simpa using hfront) (by simpa using hback)
      hplainTs
    have hunder : (Piece.operand p n₀).Under y := by
      rcases hy with rfl | rfl
      · exact hown y (List.mem_singleton_self y)
      · exact .rest hown
    have hsame (l : List (Node × List Piece)) :
        List.Forall₂ (fun n x => (Piece.operand p n).Under x) (l.map (·.1)) (l.map share) := by
      rw [List.forall₂_map_left_iff, List.forall₂_map_right_iff, List.forall₂_same]
      exact fun _ _ => .self
    exact List.rel_append (hsame first) (.cons hunder (hsame last))

end

end XPathTaint.Python
