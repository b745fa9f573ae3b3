import XPathTaint.Text.Double
import XPathTaint.Yaml.Node

-- The values of YAML nodes: plain scalars stand for what they look like, references for
-- what they refer to, and the keys of a mapping differ.

namespace XPathTaint.Yaml

inductive Value where
  | null
  | bool (b : Bool)
  | int (n : Int)
  /-- A number in double precision, by its bits. -/
  | float (bits : UInt64)
  | string (s : String)
  | sequence (items : List Value)
  | mapping (members : List (Value × Value))
  | tagged (tag : String) (value : Value)
  deriving Repr, Inhabited

namespace Value

/-! ## Equality -/

mutual

/-- Whether two values are one as keys: the order of members does not count. -/
def same : Value → Value → Bool
  | null, null => true
  | bool a, bool b => a == b
  | int a, int b => a == b
  | float a, float b => a == b
  | string a, string b => a == b
  | sequence as, sequence bs => sameItems as bs
  | mapping as, mapping bs => as.length == bs.length && sameMembers as bs
  | tagged t a, tagged u b => t == u && same a b
  | _, _ => false

def sameItems : List Value → List Value → Bool
  | [], [] => true
  | a :: as, b :: bs => same a b && sameItems as bs
  | _, _ => false

/-- Whether each of some members is among others. -/
def sameMembers : List (Value × Value) → List (Value × Value) → Bool
  | [], _ => true
  | (k, v) :: as, bs => bs.any (fun b => same k b.1 && same v b.2) && sameMembers as bs

end

/-- Whether no two members have the same key. -/
def hasDistinctKeys : List (Value × Value) → Bool
  | [] => true
  | (k, _) :: rest => !rest.any (fun m => same k m.1) && hasDistinctKeys rest

/-! ## Whole numbers -/

def digit? (base : Nat) (c : Char) : Option Nat :=
  (Json.hexDigit? c).bind fun d => if d < base then some d else none

/-- The number that digits in a base write. -/
def natOfDigits? (base : Nat) (digits : List Char) : Option Nat :=
  if digits.isEmpty then none
  else (digits.mapM (digit? base)).map fun ds => ds.foldl (fun n d => n * base + d) 0

/-- Digits behind a zero are no number. -/
def isZeroPadded : List Char → Bool
  | '0' :: c :: rest => (c :: rest).all Char.isDigit
  | _ => false

/-- A number without its sign: decimal, or behind a letter in base sixteen, eight or two. -/
def readMagnitude? : List Char → Option Nat
  | '0' :: 'x' :: digits => natOfDigits? 16 digits
  | '0' :: 'o' :: digits => natOfDigits? 8 digits
  | '0' :: 'b' :: digits => natOfDigits? 2 digits
  | digits => if isZeroPadded digits then none else natOfDigits? 10 digits

def readInt? : List Char → Option Int
  | '-' :: rest => (readMagnitude? rest).map fun n => -(n : Int)
  | '+' :: rest => (readMagnitude? rest).map fun n => (n : Int)
  | rest => (readMagnitude? rest).map fun n => (n : Int)

/-- Whether a whole number fits into 64 bits, unsigned or behind a minus sign. -/
def fitsWord (n : Int) : Bool := decide (Int64.minValue.toInt ≤ n ∧ n < UInt64.size)

/-- Whether a whole number fits into 128 bits, unsigned or behind a minus sign. -/
def fitsWidest (n : Int) : Bool :=
  decide (-((1 <<< 127 : Nat) : Int) ≤ n ∧ n < ((1 <<< 128 : Nat) : Int))

/-! ## Numbers in double precision -/

/-- The number of decimal text: digits, a point among or around them, a power of ten. -/
def readDecimal? (minus : Bool) (cs : List Char) : Option UInt64 := do
  let d ← Double.Decimal.read? cs
  if d.whole.isEmpty && d.fraction.isEmpty then none else d.nearest? minus

def infinityBits : UInt64 := 0x7FF0000000000000
def minusInfinityBits : UInt64 := 0xFFF0000000000000
def nanBits : UInt64 := 0x7FF8000000000000

def readFloat? (text : String) : Option UInt64 :=
  if [".inf", ".Inf", ".INF", "+.inf", "+.Inf", "+.INF"].contains text then some infinityBits
  else if ["-.inf", "-.Inf", "-.INF"].contains text then some minusInfinityBits
  else if [".nan", ".NaN", ".NAN"].contains text then some nanBits
  else
    match text.toList with
    | '-' :: rest => readDecimal? true rest
    | '+' :: rest => readDecimal? false rest
    | rest => readDecimal? false rest

/-! ## Scalars -/

def isNullText (s : String) : Bool := ["null", "Null", "NULL", "~"].contains s

def readBool? (s : String) : Option Bool :=
  if ["true", "True", "TRUE"].contains s then some true
  else if ["false", "False", "FALSE"].contains s then some false
  else none

/-- The value of a number's text, if it is one. The inner `none` refuses whole numbers that
are too large for a value but not for a number. -/
def ofIntText? (s : String) : Option (Option Value) :=
  match readInt? s.toList with
  | none => none
  | some n => if fitsWord n then some (some (.int n)) else if fitsWidest n then some none else none

/-- What a plain scalar looks like. -/
def ofPlain? (s : String) : Option Value :=
  if s.isEmpty || isNullText s then some .null
  else
    match readBool? s, ofIntText? s with
    | some b, _ => some (.bool b)
    | none, some found => found
    | none, none =>
      let digits := match s.toList with
        | '-' :: rest => rest
        | '+' :: rest => rest
        | rest => rest
      match if isZeroPadded digits then none else readFloat? s with
      | some bits => some (.float bits)
      | none => some (.string s)

/-- The name of a local tag without its mark; the lone mark is its own name. -/
def localTag? (tag : String) : Option String :=
  match tag.toList with
  | ['!'] => some "!"
  | '!' :: name => some (String.ofList name)
  | _ => none

/-- The value of a scalar. A tag of a known type must fit the text, a local tag stays, and
with any other tag the scalar is a text. -/
def ofScalar? (tag : Option String) (s : String) (isPlain : Bool) : Option Value :=
  let look : Option Value := if isPlain then ofPlain? s else some (.string s)
  match tag with
  | none => look
  | some tag =>
    match localTag? tag with
    | some name => look.map (.tagged name)
    | none =>
      match tag with
      | "tag:yaml.org,2002:null" => if isNullText s then some .null else none
      | "tag:yaml.org,2002:bool" => (readBool? s).map .bool
      | "tag:yaml.org,2002:int" => (ofIntText? s).join
      | "tag:yaml.org,2002:float" => (readFloat? s).map .float
      | _ => some (.string s)

/-- A collection under its local tag, if it has one. -/
def underTag (tag : Option String) (v : Value) : Value :=
  match tag.bind localTag? with
  | some name => .tagged name v
  | none => v

end Value

/-! ## References -/

/-- The value of a node, how many references lead to parts of it, each counted as often as
it is reached, and how deep its collections nest. -/
structure Resolved where
  value : Value
  jumps : Nat
  depth : Nat
  deriving Inhabited

/-- The anchors seen so far, the last one first; those of open collections have no value
yet. -/
abbrev Anchors := List (String × Option Resolved)

/-- Notes a scalar's anchor. -/
def noteAnchor (anchor : Option String) (r : Resolved) (seen : Anchors) : Anchors :=
  match anchor with
  | some name => (name, some r) :: seen
  | none => seen

/-- Notes the anchor of a collection that opens. -/
def openAnchor (anchor : Option String) (seen : Anchors) : Anchors :=
  match anchor with
  | some name => (name, none) :: seen
  | none => seen

/-- Gives the anchor of a collection its value where it was noted. -/
def closeAnchor (anchor : Option String) (r : Resolved) (before after : Anchors) : Anchors :=
  match anchor with
  | some name => after.set (after.length - before.length - 1) (name, some r)
  | none => after

namespace Node

mutual

/-- The value of a node. A reference must lead to an anchor whose node has ended; more than
`limit` of them are refused, and so is a key that comes twice. -/
def resolve? (limit : Nat) : Node → Anchors → Option (Resolved × Anchors)
  | .reference name, seen =>
    match seen.find? fun a => a.1 == name with
    | some (_, some r) => if r.jumps < limit then some ({ r with jumps := r.jumps + 1 }, seen) else none
    | _ => none
  | .scalar props text isPlain, seen => do
    let r : Resolved := ⟨← Value.ofScalar? props.tag text isPlain, 0, 0⟩
    some (r, noteAnchor props.anchor r seen)
  | .sequence props items, seen => do
    let (rs, after) ← resolveItems? limit items (openAnchor props.anchor seen)
    let jumps := (rs.map (·.jumps)).sum
    if limit < jumps then none
    let r : Resolved := ⟨Value.underTag props.tag (.sequence (rs.map (·.value))), jumps,
      (rs.map (·.depth)).foldl max 0 + 1⟩
    some (r, closeAnchor props.anchor r seen after)
  | .mapping props members, seen => do
    let (rs, after) ← resolveMembers? limit members (openAnchor props.anchor seen)
    let jumps := (rs.map fun m => m.1.jumps + m.2.jumps).sum
    let values := rs.map fun m => (m.1.value, m.2.value)
    if limit < jumps || !Value.hasDistinctKeys values then none
    let r : Resolved := ⟨Value.underTag props.tag (.mapping values), jumps,
      (rs.map fun m => max m.1.depth m.2.depth).foldl max 0 + 1⟩
    some (r, closeAnchor props.anchor r seen after)

def resolveItems? (limit : Nat) : List Node → Anchors → Option (List Resolved × Anchors)
  | [], seen => some ([], seen)
  | item :: items, seen => do
    let (r, seen) ← resolve? limit item seen
    let (rs, seen) ← resolveItems? limit items seen
    some (r :: rs, seen)

def resolveMembers? (limit : Nat) :
    List (Node × Node) → Anchors → Option (List (Resolved × Resolved) × Anchors)
  | [], seen => some ([], seen)
  | (key, value) :: members, seen => do
    let (k, seen) ← resolve? limit key seen
    let (v, seen) ← resolve? limit value seen
    let (rs, seen) ← resolveMembers? limit members seen
    some ((k, v) :: rs, seen)

end

mutual

/-- The number of marks that a node takes: one for what has no parts, two around what has. -/
def eventCount : Node → Nat
  | .reference _ => 1
  | .scalar _ _ _ => 1
  | .sequence _ items => 2 + eventCounts items
  | .mapping _ members => 2 + memberEventCounts members

def eventCounts : List Node → Nat
  | [] => 0
  | n :: rest => n.eventCount + eventCounts rest

def memberEventCounts : List (Node × Node) → Nat
  | [] => 0
  | (k, v) :: rest => k.eventCount + v.eventCount + memberEventCounts rest

end

end Node

/-! ## Texts -/

/-- How deep collections may nest. -/
def maxDepth : Nat := 128

/-- How many references may be followed for each mark of a document. -/
def jumpsPerEvent : Nat := 100

/-- The value of a text that holds one document. -/
def Value.ofText? (text : String) : Option Value := do
  let node ← Node.ofTokens? (← Token.ofText? text)
  let (r, _) ← node.resolve? (jumpsPerEvent * node.eventCount) []
  if r.depth ≤ maxDepth then some r.value else none

end XPathTaint.Yaml
