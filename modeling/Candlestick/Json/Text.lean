import Candlestick.Json.Basic
import Candlestick.Json.Token

/-!
# JSON texts

`Json.text` writes a value without blanks. `Json.ofText?` reads a value: it takes the tokens of
the text one by one and keeps the arrays and objects that are still open on a stack, however many
they are.
-/

namespace Candlestick

namespace Json

/-! ### Writing -/

/-- Lists of tokens with commas between them. -/
def joinTokens : List (List Token) → List Token
  | [] => []
  | [ts] => ts
  | ts :: rest => ts ++ .comma :: joinTokens rest

mutual

def tokens : Json → List Token
  | null => [.null]
  | bool b => [.bool b]
  | natural n => [.natural n]
  | number text => [.number text]
  | string s => [.string s]
  | array items => .openBracket :: joinTokens (itemTokens items) ++ [.closeBracket]
  | object members => .openBrace :: joinTokens (memberTokens members) ++ [.closeBrace]

def itemTokens : List Json → List (List Token)
  | [] => []
  | item :: items => tokens item :: itemTokens items

def memberTokens : List (Option String × Json) → List (List Token)
  | [] => []
  | (name, value) :: members =>
    (.string name :: .colon :: tokens value) :: memberTokens members

end

def chars (v : Json) : List Char :=
  v.tokens.flatMap Token.chars

def text (v : Json) : String :=
  .ofList v.chars

/-! ### Reading -/

/-- An array or object that is still open; what it has so far is kept last one first. -/
inductive Frame
  | array (items : List Json)
  /-- An object that waits for the value of a member. -/
  | object (members : List (Option String × Json)) (name : Option String)

/-- The arrays and objects that are open, innermost first. -/
abbrev Stack := List Frame

/-- What has been read, by what has to follow. -/
inductive Reader
  /-- A value has to follow. -/
  | value (stack : Stack)
  /-- The first item of an array has to follow, or its end. -/
  | firstItem (stack : Stack)
  /-- The first name of an object has to follow, or its end. -/
  | firstName (stack : Stack)
  /-- The next name of an object has to follow. -/
  | nextName (members : List (Option String × Json)) (stack : Stack)
  /-- A colon has to follow. -/
  | colon (members : List (Option String × Json)) (name : Option String) (stack : Stack)
  /-- A value is complete. -/
  | after (v : Json) (stack : Stack)

/-- Starts a value with a token. -/
def Reader.start? (stack : Stack) : Token → Option Reader
  | .null => some (.after .null stack)
  | .bool b => some (.after (.bool b) stack)
  | .natural n => some (.after (.natural n) stack)
  | .number text => some (.after (.number text) stack)
  | .string s => some (.after (.string s) stack)
  | .openBracket => some (.firstItem stack)
  | .openBrace => some (.firstName stack)
  | _ => none

def Reader.step? : Reader → Token → Option Reader
  | .value stack, t => start? stack t
  | .firstItem stack, .closeBracket => some (.after (.array []) stack)
  | .firstItem stack, t => start? (.array [] :: stack) t
  | .firstName stack, .closeBrace => some (.after (.object []) stack)
  | .firstName stack, .string name => some (.colon [] name stack)
  | .nextName members stack, .string name => some (.colon members name stack)
  | .colon members name stack, .colon => some (.value (.object members name :: stack))
  | .after v (.array items :: stack), .comma => some (.value (.array (v :: items) :: stack))
  | .after v (.array items :: stack), .closeBracket =>
    some (.after (.array (v :: items).reverse) stack)
  | .after v (.object members name :: stack), .comma =>
    some (.nextName ((name, v) :: members) stack)
  | .after v (.object members name :: stack), .closeBrace =>
    some (.after (.object ((name, v) :: members).reverse) stack)
  | _, _ => none

/-- The value that a list of tokens stands for. -/
def ofTokens? (ts : List Token) : Option Json :=
  match ts.foldlM Reader.step? (.value []) with
  | some (.after v []) => some v
  | _ => none

def ofChars? (cs : List Char) : Option Json :=
  (Token.scan? cs).bind ofTokens?

def ofText? (text : String) : Option Json :=
  ofChars? text.toList

end Json

end Candlestick
