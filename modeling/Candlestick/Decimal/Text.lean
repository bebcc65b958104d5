import Candlestick.Decimal.Basic
import Candlestick.Rounding

/-!
# Decimals as text

`Decimal.text` writes every decimal place. `Decimal.ofText?` reads what it writes, the sign of a
zero apart, and more: a plus sign, a point with no digits before or after it, underscores between
digits, more places than a decimal has room for, which are rounded, and an exponent.
-/

namespace Candlestick

namespace Decimal

/-! ### Writing -/

def chars (x : Decimal) : List Char :=
  let sign := if x.negative then ['-'] else []
  let places := if x.scale = 0 then [] else '.' :: Digits.fixed 10 x.scale x.magnitude
  sign ++ Digits.decimal (x.magnitude / 10 ^ x.scale) ++ places

/-- The text of a decimal, with all its places. -/
def text (x : Decimal) : String :=
  .ofList x.chars

instance : ToString Decimal := ⟨text⟩

/-! ### Reading -/

/-- The parts of a decimal in which `m` at `scale` is followed by one more digit. -/
def roundLast? (m scale digit : Nat) : Option (Nat × Nat) :=
  if digit < 5 then some (m, scale)
  else if m + 1 < 2 ^ 96 then some (m + 1, scale)
  else if scale = 0 then none
  else some ((m + 5) / 10, scale - 1)

/-- Whether a character may stand among the digits after the first. -/
def isDigitOrSeparator (c : Char) : Bool :=
  c.isDigit || c == '_'

/-- A number below this bound has room for one more digit in 64 bits, with some to spare. -/
def wordBound : Nat := (2 ^ 64 - 1) / 10 - 255

/-- Whether an underscore ends the number read so far: all places are taken, and the digits before
the last one make a number below `wordBound`. After a greater number the digit that follows the
underscore still rounds the last place. -/
def endsAtSeparator (m scale : Nat) : Bool :=
  scale == 28 && m / 10 < wordBound

/--
Reads on from the mantissa and scale read so far. `point` tells whether the point has been read,
and `started` whether a digit has.
-/
def readDigits? (m scale : Nat) (point started : Bool) : List Char → Option (Nat × Nat)
  | [] => if started then some (m, scale) else none
  | c :: cs =>
    if c.isDigit then
      let m' := 10 * m + Digits.digit c
      if point then
        if scale < 28 ∧ m' < 2 ^ 96 then readDigits? m' (scale + 1) true true cs
        else if cs.all isDigitOrSeparator then roundLast? m scale (Digits.digit c)
        else none
      else if m' < 2 ^ 96 then readDigits? m' scale false true cs
      else none
    else if c = '.' ∧ !point then readDigits? m scale true started cs
    else if c = '_' ∧ started then
      if endsAtSeparator m scale then
        if cs.all isDigitOrSeparator then some (m, scale) else none
      else readDigits? m scale point started cs
    else none

/-- Reads a number without sign. -/
def readUnsigned? (cs : List Char) : Option Decimal :=
  (readDigits? 0 0 false false cs).bind fun (m, scale) => ofParts? false m scale

/-- Reads a number without exponent. -/
def readPlain? : List Char → Option Decimal
  | '-' :: cs => (readUnsigned? cs).map neg
  | '+' :: cs => readUnsigned? cs
  | cs => readUnsigned? cs

/-- Reads the size of an exponent, a 32-bit number. -/
def readExponent? : List Char → Option Nat
  | '+' :: cs => Digits.natBelow? (2 ^ 32) cs
  | cs => Digits.natBelow? (2 ^ 32) cs

/-- The decimal divided by `10 ^ n`, rounded to 28 places, half away from zero. What is rounded to
zero keeps its sign. -/
def shiftDown? (x : Decimal) (n : Nat) : Option Decimal :=
  if 28 < n then none
  else if x.scale + n ≤ 28 then ofParts? x.negative x.magnitude (x.scale + n)
  else ofParts? x.negative (Rounding.toGreater x.magnitude (10 ^ (x.scale + n - 28))) 28

/-- The decimal multiplied by `10 ^ n`. It has `n` places fewer, or none. -/
def shiftUp? (x : Decimal) (n : Nat) : Option Decimal :=
  if n ≤ x.scale then ofParts? x.negative x.magnitude (x.scale - n)
  else if 28 < n then none
  else ofParts? x.negative (x.magnitude * 10 ^ (n - x.scale)) 0

/-- Whether a character opens an exponent. -/
def isExponentMark (c : Char) : Bool :=
  c == 'e' || c == 'E'

/-- Reads a number with an exponent. -/
def readScientific? (cs : List Char) : Option Decimal :=
  match cs.dropWhile (!isExponentMark ·) with
  | [] => none
  | _ :: exponent =>
    (readPlain? (cs.takeWhile (!isExponentMark ·))).bind fun base =>
      match exponent with
      | '-' :: size => (readExponent? size).bind base.shiftDown?
      | size => (readExponent? size).bind base.shiftUp?

def ofChars? (cs : List Char) : Option Decimal :=
  (readPlain? cs).or (readScientific? cs)

def ofText? (text : String) : Option Decimal :=
  ofChars? text.toList

end Decimal

end Candlestick
