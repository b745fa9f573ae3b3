-- Fields of records in any format: picked by name from named members, or by order from a
-- row of values.

namespace XPathTaint.Record

variable {α β : Type}

/-- The value of a field, if a member has its name; a field given twice is refused. -/
def uniqueField (members : List (String × α)) (name : String) : Option (Option α) :=
  match members.filter fun m => m.1 == name with
  | [] => some none
  | [(_, value)] => some (some value)
  | _ => none

/-- The values of the fields `names`, each by its name. A closed record has no other
members. -/
def ofMembers? (names : List String) (closed : Bool) (members : List (String × α)) :
    Option (List (Option α)) :=
  if closed && members.any (fun m => !names.contains m.1) then none
  else names.mapM (uniqueField members)

/-- The values of the fields `names` in their order; at least `least` must be there. -/
def ofItems? (names : List String) (least : Nat) (items : List α) : Option (List (Option α)) :=
  if least ≤ items.length ∧ items.length ≤ names.length then
    some (items.map some ++ List.replicate (names.length - items.length) none)
  else none

/-- A field that must be there. -/
def required (value : α → Option β) : Option α → Option β
  | some a => value a
  | none => none

/-- A field that stands for `default` when it is not there. -/
def withDefault (default : β) (value : α → Option β) : Option α → Option β
  | some a => value a
  | none => some default

end XPathTaint.Record
