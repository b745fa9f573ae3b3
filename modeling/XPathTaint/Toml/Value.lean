-- The values of a TOML text and the tables that it builds up: each table is defined once,
-- by a header or by dotted keys, and each key is given once.

namespace XPathTaint.Toml

inductive Value where
  | string (s : String)
  | int (n : Int)
  | float (bits : UInt64)
  | bool (b : Bool)
  | date (text : String)
  | array (items : List Value)
  | table (members : List (String × Value))
  deriving Repr, Inhabited

/-! ## Tables that are being built -/

/-- How a table came to be: by a header of its own or braces, on the way to another table,
or by dotted keys. -/
inductive Origin where
  | given
  | implied
  | dotted
  deriving Repr, DecidableEq, Inhabited

inductive Item where
  | value (v : Value)
  | table (origin : Origin) (members : List (String × Item))
  /-- The tables of one header in double brackets. -/
  | rows (rows : List (List (String × Item)))
  deriving Repr, Inhabited

abbrev Members := List (String × Item)

namespace Members

def find? (ms : Members) (key : String) : Option Item :=
  (List.find? (fun m => m.1 == key) ms).map (·.2)

/-- The members with one in place of that of the same key, or at the end. -/
def set (ms : Members) (key : String) (item : Item) : Members :=
  if ms.any fun m => m.1 == key then
    ms.map fun m => if m.1 == key then (key, item) else m
  else ms ++ [(key, item)]

/-- Changes the table that keys lead to; tables on the way are made where there are none.
Of several tables of one header the last one counts. Dotted keys lead through no table
that was given. -/
def change? (dotted : Bool) (f : Origin → Members → Option Members) :
    List String → Origin → Members → Option Members
  | [], origin, ms => f origin ms
  | key :: keys, _, ms => do
    let made : Origin := if dotted then .dotted else .implied
    match find? ms key with
    | none => some (set ms key (.table made (← change? dotted f keys made [])))
    | some (.value _) => none
    | some (.table origin inner) =>
      if dotted && origin == .given then none
      else some (set ms key (.table origin (← change? dotted f keys origin inner)))
    | some (.rows rows) => do
      let last ← rows.getLast?
      some (set ms key (.rows (rows.dropLast ++ [← change? dotted f keys .given last])))

/-- Sets a key that has no value yet; a dotted key sets it in a table of dotted keys. -/
def setValue? (path : List String) (v : Value) (ms : Members) : Option Members := do
  let key ← path.getLast?
  change? true (fun origin inner =>
    if (origin == .dotted) == path.dropLast.isEmpty || (find? inner key).isSome then none
    else some (set inner key (.value v))) path.dropLast .given ms

/-- Starts the table of a header, which no other header or key may have given. -/
def startTable? (path : List String) (ms : Members) : Option Members := do
  let key ← path.getLast?
  change? false (fun _ inner =>
    match find? inner key with
    | none => some (set inner key (.table .given []))
    | some (.table .implied found) => some (set inner key (.table .given found))
    | some _ => none) path.dropLast .given ms

/-- Starts one more table of a header in double brackets. -/
def startRow? (path : List String) (ms : Members) : Option Members := do
  let key ← path.getLast?
  change? false (fun _ inner =>
    match find? inner key with
    | none => some (set inner key (.rows [[]]))
    | some (.rows rows) => some (set inner key (.rows (rows ++ [[]])))
    | some _ => none) path.dropLast .given ms

end Members

/-! ## Values of finished tables -/

mutual

def Item.toValue : Item → Value
  | .value v => v
  | .table _ members => .table (memberValues members)
  | .rows rows => .array (rowValues rows)

def memberValues : List (String × Item) → List (String × Value)
  | [] => []
  | (key, item) :: rest => (key, item.toValue) :: memberValues rest

def rowValues : List (List (String × Item)) → List Value
  | [] => []
  | row :: rest => .table (memberValues row) :: rowValues rest

end

end XPathTaint.Toml
