import XPathTaint.Json.Record
import XPathTaint.Text.LowerCase

-- How severe a finding is: six grades in a fixed order, their names in output, and the
-- words that users may write for them.

namespace XPathTaint

/-- The grades, least first. -/
inductive Severity where
  | info
  | error
  | low
  | medium
  | high
  | critical
  deriving Repr, DecidableEq, Inhabited

namespace Severity

/-- The place of a grade in the order. -/
def rank : Severity → Nat
  | info => 0
  | error => 1
  | low => 2
  | medium => 3
  | high => 4
  | critical => 5

instance : LE Severity := ⟨fun a b => a.rank ≤ b.rank⟩

instance (a b : Severity) : Decidable (a ≤ b) := inferInstanceAs (Decidable (a.rank ≤ b.rank))

def written : Severity → String
  | info => "INFO"
  | error => "ERROR"
  | low => "LOW"
  | medium => "MEDIUM"
  | high => "HIGH"
  | critical => "CRITICAL"

def all : List Severity := [info, error, low, medium, high, critical]

/-- The words for a grade, in lower case; a warning is of medium severity. -/
def words : List (String × Severity) :=
  [("info", info), ("error", error), ("low", low), ("medium", medium), ("high", high),
    ("critical", critical), ("warning", medium)]

/-- The grade of a word in any case, or what is wrong with it. -/
def read (s : String) : Except String Severity :=
  let word := Text.toLower s
  match words.find? fun w => w.1 == word with
  | some (_, severity) => .ok severity
  | none => .error ("unknown severity '" ++ word ++ "'")

def toJson (s : Severity) : Json := .string s.written

/-- Only the exact names are read from JSON. -/
def ofJson? (j : Json) : Option Severity := j.asChoice? (all.map fun s => (s.written, s))

/-- The most severe of several grades. -/
def maximum? (severities : List Severity) : Option Severity :=
  severities.foldl (fun best s =>
    match best with
    | none => some s
    | some b => if b ≤ s then some s else some b) none

end Severity

end XPathTaint
