-- JSON values. An object keeps its members in the order in which they are written, and
-- keeps members of one name apart, so that a reader of records can refuse them.

namespace XPathTaint

/-- A number as far as records tell numbers apart: a whole number that fits into 64 bits,
the same behind a minus sign, or the text of any other number. -/
inductive Json.Number where
  | whole (n : Nat)
  | negative (n : Nat)
  | decimal (text : String)
  deriving Repr, DecidableEq, Inhabited

inductive Json where
  | null
  | bool (b : Bool)
  | number (n : Json.Number)
  | string (s : String)
  | array (items : List Json)
  | object (members : List (String × Json))
  deriving Repr, Inhabited

namespace Json

def nat (n : Nat) : Json := .number (.whole n)

/-- A text or `null`. -/
def stringOrNull : Option String → Json
  | some s => .string s
  | none => .null

/-- The last member of a name, which is the one that counts where names may repeat. -/
def get? (j : Json) (name : String) : Option Json :=
  match j with
  | .object members => (members.reverse.find? fun m => m.1 == name).map (·.2)
  | _ => none

end Json

end XPathTaint
