import Mathlib.Tactic.Common
import XPathTaint.Facts.FileFacts
import XPathTaint.Python.Tree

-- Courses: what is evaluated in a piece of a program, in which order, and what of it may be
-- passed over. Where a thing stands in a course tells the blocks and the scope around it, and
-- with the numbers that blocks and scopes get in turn it tells its block path.

namespace XPathTaint.Python

/-! ## Courses -/

/-- In which order two parts are evaluated that are recorded one behind the other. -/
inductive PairOrder where
  | forward
  | backward
  /-- The text does not tell; the parts may even take turns. -/
  | either
  deriving Repr, DecidableEq

inductive Course (α : Type) where
  | nothing
  | item (x : α)
  | pair (order : PairOrder) (one other : Course α)
  /-- A part that may be evaluated again, such as the condition of a loop. -/
  | again (part : Course α)
  /-- A part that may be passed over; `isBlock` if it is a conditional block. -/
  | optional (isBlock : Bool) (part : Course α)
  /-- The body of a function, class or `lambda`. -/
  | scope (body : Course α)

namespace Course

variable {α : Type}

/-- Parts that are recorded one behind the other. -/
def all (order : PairOrder) : List (Course α) → Course α
  | [] => .nothing
  | part :: rest => .pair order part (all order rest)

/-- All that is evaluated, in all scopes. -/
def leaves : Course α → List α
  | nothing => []
  | item x => [x]
  | pair _ one other => one.leaves ++ other.leaves
  | again part => part.leaves
  | optional _ part => part.leaves
  | scope body => body.leaves

/-- What is evaluated in the scope of the course itself. -/
def own : Course α → List α
  | nothing => []
  | item x => [x]
  | pair _ one other => one.own ++ other.own
  | again part => part.own
  | optional _ part => part.own
  | scope _ => []

/-- What no evaluation of the course passes over. -/
def sure : Course α → List α
  | nothing => []
  | item x => [x]
  | pair _ one other => one.sure ++ other.sure
  | again part => part.sure
  | optional _ _ => []
  | scope _ => []

/-- The bodies of the scopes in a course, without the course itself. -/
def inner : Course α → List (Course α)
  | nothing => []
  | item _ => []
  | pair _ one other => one.inner ++ other.inner
  | again part => part.inner
  | optional _ part => part.inner
  | scope body => body :: body.inner

/-- The course and the bodies of all scopes in it. -/
def bodies (c : Course α) : List (Course α) := c :: c.inner

/-- How many conditional blocks there are. -/
def blocks : Course α → Nat
  | nothing => 0
  | item _ => 0
  | pair _ one other => one.blocks + other.blocks
  | again part => part.blocks
  | optional true part => part.blocks + 1
  | optional false part => part.blocks
  | scope body => body.blocks

/-- How many scopes there are. -/
def scopes : Course α → Nat
  | nothing => 0
  | item _ => 0
  | pair _ one other => one.scopes + other.scopes
  | again part => part.scopes
  | optional _ part => part.scopes
  | scope body => body.scopes + 1

end Course

/-! ## Items -/

/-- What the lowering comes by: a name or path that is read, a call, or the binding of a name or
path. A binding for a clause of a comprehension is recorded ahead of the value. -/
inductive Item where
  | read (span : Span)
  | call (span : Span) (func : Expr) (callee : Option String) (args : List Argument)
  | bind (ahead : Bool) (name : String) (value : Expr) (pos : Nat) (place : Place)

namespace Item

/-- Where a use stands, or from where on a binding counts. -/
def pos : Item → Nat
  | read s => s.pos
  | call s _ _ _ => s.pos
  | bind _ _ _ pos _ => pos

def isBinding : Item → Bool
  | bind _ _ _ _ _ => true
  | _ => false

/-- A binding for a clause of a comprehension. -/
def isAhead : Item → Bool
  | bind ahead _ _ _ _ => ahead
  | _ => false

/-- A read or a call. -/
def isUse (i : Item) : Bool := !i.isBinding

end Item

/-! ## Places in a course -/

/-- The way to a place in a course: at each part with two parts in it, whether the other one was
taken. -/
abbrev Address := List Bool

/-- A place in a course, with the number of its scope. `around` names the conditional blocks around
it in its scope, outermost first, and `skips` the other parts that may be passed over. `sides` names
the pairs whose order the text does not tell, with the side that it is on. -/
structure Here where
  address : Address
  scope : Nat
  block : BlockPath
  around : List Address
  skips : List Address
  sides : List (Address × Bool)

namespace Here

/-- The place of a whole module. -/
def ofModule : Here := ⟨[], moduleScope, [], [], [], []⟩

/-- In a part, the other one of two if `second`. -/
def part (h : Here) (second : Bool) : Here := { h with address := h.address ++ [second] }

/-- In one of two parts. -/
def side (h : Here) (order : PairOrder) (second : Bool) : Here :=
  match order with
  | .either => { h.part second with sides := h.sides ++ [(h.address, second)] }
  | _ => h.part second

/-- In a conditional block with a number. -/
def inBlock (h : Here) (n : Nat) : Here :=
  { h.part false with block := h.block ++ [n], around := h.around ++ [h.address] }

/-- In another part that may be passed over. -/
def inSkip (h : Here) : Here := { h.part false with skips := h.skips ++ [h.address] }

/-- In the body of a scope with a number. -/
def within (h : Here) (id : Nat) : Here := ⟨h.address ++ [false], id, [], [], [], []⟩

@[simp] theorem side_address (h : Here) (order : PairOrder) (second : Bool) :
    (h.side order second).address = h.address ++ [second] := by cases order <;> rfl

@[simp] theorem side_scope (h : Here) (order : PairOrder) (second : Bool) :
    (h.side order second).scope = h.scope := by cases order <;> rfl

@[simp] theorem side_block (h : Here) (order : PairOrder) (second : Bool) :
    (h.side order second).block = h.block := by cases order <;> rfl

@[simp] theorem side_around (h : Here) (order : PairOrder) (second : Bool) :
    (h.side order second).around = h.around := by cases order <;> rfl

@[simp] theorem side_skips (h : Here) (order : PairOrder) (second : Bool) :
    (h.side order second).skips = h.skips := by cases order <;> rfl

end Here

/-- An item and where it stands. -/
structure Mark extends Here where
  item : Item

namespace Mark

def pos (m : Mark) : Nat := m.item.pos

/-- What a call is recorded as. -/
def call? (path : String) (m : Mark) : Option CallSite :=
  match m.item with
  | .call s func callee args => some <| FileFacts.numberCall path
      { id := 0, callee, func, args, scope := m.scope, block := m.block, pos := s.pos,
        place := ⟨path, s.line, s.column⟩, text := s.text }
  | _ => none

/-- What a binding is recorded as. -/
def binding? (path : String) (m : Mark) : Option Binding :=
  match m.item with
  | .bind _ name value pos place => some <| FileFacts.numberBinding path
      { id := 0, name, value, scope := m.scope, block := m.block, pos, place }
  | _ => none

/-- Both stand in a pair whose order the text does not tell, on different sides. -/
def ApartFrom (b u : Mark) : Prop :=
  ∃ address side, (address, side) ∈ b.sides ∧ (address, !side) ∈ u.sides

end Mark

namespace Course

/-- Tells each item its place, where `n` blocks and `k` scopes have their numbers already. -/
def locate (here : Here) (n k : Nat) : Course Item → Course Mark
  | .nothing => .nothing
  | .item x => .item ⟨here, x⟩
  | .pair order one other =>
    .pair order (one.locate (here.side order false) n k)
      (other.locate (here.side order true) (n + one.blocks) (k + one.scopes))
  | .again part => .again (part.locate (here.part false) n k)
  | .optional true part => .optional true (part.locate (here.inBlock (n + 1)) (n + 1) k)
  | .optional false part => .optional false (part.locate here.inSkip n k)
  | .scope body => .scope (body.locate (here.within k) n (k + 1))

theorem leaves_locate (c : Course Item) (here : Here) (n k : Nat) :
    (c.locate here n k).leaves.map (·.item) = c.leaves := by
  induction c generalizing here n k with
  | nothing => rfl
  | item x => rfl
  | pair order one other ih₁ ih₂ => simp [locate, leaves, ih₁, ih₂]
  | again part ih => exact ih _ _ _
  | optional isBlock part ih => cases isBlock <;> exact ih _ _ _
  | scope body ih => exact ih _ _ _

theorem own_locate (c : Course Item) (here : Here) (n k : Nat) :
    (c.locate here n k).own.map (·.item) = c.own := by
  induction c generalizing here n k with
  | nothing => rfl
  | item x => rfl
  | pair order one other ih₁ ih₂ => simp [locate, own, ih₁, ih₂]
  | again part ih => exact ih _ _ _
  | optional isBlock part ih => cases isBlock <;> exact ih _ _ _
  | scope body ih => rfl

theorem sure_locate (c : Course Item) (here : Here) (n k : Nat) :
    (c.locate here n k).sure.map (·.item) = c.sure := by
  induction c generalizing here n k with
  | nothing => rfl
  | item x => rfl
  | pair order one other ih₁ ih₂ => simp [locate, sure, ih₁, ih₂]
  | again part ih => exact ih _ _ _
  | optional isBlock part ih => cases isBlock <;> rfl
  | scope body ih => rfl

end Course

end XPathTaint.Python
