import Candlestick.Json.Basic

/-!
# Records in JSON

A record is an object with a member for each field, in any order, or an array with an item for
each field, in the order of the fields. Records of data have all their fields and may have other
members besides, whose values may be anything; settings may leave fields out and have no other
members. The name of a member is a text.
-/

namespace Candlestick.Json

/-- The value of a field among the members of an object: `none` if it is given twice, and
`some none` if it is not given. -/
def member? (members : List (Option String × Json)) (name : String) : Option (Option Json) :=
  match members.filter (·.1 == some name) with
  | [] => some none
  | [(_, value)] => some (some value)
  | _ => none

/-- The values of the fields of a record of data; a field may be missing from an object. -/
def dataFields? (names : List String) : Json → Option (List (Option Json))
  | array items => if items.length = names.length then some (items.map some) else none
  | object members => if members.all (·.1.isSome) then names.mapM (member? members) else none
  | _ => none

/-- The values of the fields that settings give. -/
def settingFields? (names : List String) : Json → Option (List (Option Json))
  | array items =>
    if items.length ≤ names.length then
      some (items.map some ++ .replicate (names.length - items.length) none)
    else none
  | object members =>
    if members.all (·.1.any names.contains) then names.mapM (member? members) else none
  | _ => none

/-- The value of a field, or the default if it is not given. -/
def orDefault? {α : Type} (read? : Json → Option α) (default : α) : Option Json → Option α
  | none => some default
  | some value => read? value

def optional? {α : Type} (read? : Json → Option α) : Option Json → Option (Option α)
  | none | some null => some none
  | some value => (read? value).map some

end Candlestick.Json
