/-!
# JSON values

The values of JSON texts. The members of an object keep their order and may repeat a name. A
string may escape half of a character without the other half; it is a string like any other as
long as nobody asks for its text.
-/

namespace Candlestick

/-- A JSON value. -/
inductive Json
  | null
  | bool (b : Bool)
  /-- A number written with nothing but digits. -/
  | natural (n : Nat)
  /-- Any other number, as it is written. -/
  | number (text : List Char)
  /-- A string, with its text if it has one. -/
  | string (s : Option String)
  | array (items : List Json)
  | object (members : List (Option String × Json))

namespace Json

/-- The object with the given names of members and their values. -/
def record (names : List String) (values : List Json) : Json :=
  .object ((names.map some).zip values)

/-- The natural number below a bound that a value is. -/
def natBelow? (bound : Nat) : Json → Option Nat
  | natural n => if n < bound then some n else none
  | _ => none

/-- The text that a value is. -/
def text? : Json → Option String
  | string s => s
  | _ => none

/-- The named choice that a value is: the name alone, or an object that gives it null. -/
def choice? {α : Type} (ofName? : String → Option α) : Json → Option α
  | string (some name) => ofName? name
  | object [(some name, null)] => ofName? name
  | _ => none

end Json

end Candlestick
