import XPathTaint.Json.Value
import XPathTaint.Record

-- Reads records out of JSON values. A record is an object with its fields by name, or an
-- array with them in their order; fields that are not its own are passed over unless the
-- record is closed.

namespace XPathTaint.Json

/-! ## Plain values -/

def asString? : Json → Option String
  | .string s => some s
  | _ => none

def asBool? : Json → Option Bool
  | .bool b => some b
  | _ => none

/-- A whole number of at most 64 bits, written without sign, point or power. -/
def asNat? : Json → Option Nat
  | .number (.whole n) => if n < UInt64.size then some n else none
  | _ => none

/-- The items of an array, each read by `item`; one that cannot be read spoils all. -/
def asList? {α : Type} (item : Json → Option α) : Json → Option (List α)
  | .array items => items.mapM item
  | _ => none

/-- `null`, or a value read by `value`. -/
def asOption? {α : Type} (value : Json → Option α) : Json → Option (Option α)
  | .null => some none
  | j => (value j).map some

/-- One of a list of named choices: its name alone, or an object that maps it to `null`. -/
def asChoice? {α : Type} (choices : List (String × α)) (j : Json) : Option α :=
  let choice (name : String) := (choices.find? fun c => c.1 == name).map (·.2)
  match j with
  | .string name => choice name
  | .object [(name, .null)] => choice name
  | _ => none

/-! ## Fields -/

/-- The values of the fields `names`: by name from an object, by order from an array of at
least `least` and at most as many items. A closed record has no other members. -/
def fields? (names : List String) (least : Nat) (closed : Bool) : Json → Option (List (Option Json))
  | .object members => Record.ofMembers? names closed members
  | .array items => Record.ofItems? names least items
  | _ => none

/-- A field that must be there. -/
def required {α : Type} (value : Json → Option α) : Option Json → Option α :=
  Record.required value

/-- A field that stands for `default` when it is not there. -/
def withDefault {α : Type} (default : α) (value : Json → Option α) : Option Json → Option α :=
  Record.withDefault default value

/-- A field that may be missing or `null`. -/
def optional {α : Type} (value : Json → Option α) : Option Json → Option (Option α) :=
  withDefault none (asOption? value)

end XPathTaint.Json
