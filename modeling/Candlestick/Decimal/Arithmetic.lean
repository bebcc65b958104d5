import Candlestick.Decimal.Basic
import Candlestick.Rounding

/-!
# Sums, differences and doubles

The exact result is kept if it has room. If not, it loses as few decimal places as possible, the
last one kept being rounded half to even, and it overflows if no number of places makes it fit.
-/

namespace Candlestick

namespace Decimal

/-- The operation whose result has no room in a decimal. -/
inductive Overflow
  | addition
  | subtraction
  | multiplication
deriving DecidableEq, Repr

/-- The text that reports an overflow. -/
def Overflow.message : Overflow → String
  | addition => "Addition overflowed"
  | subtraction => "Subtraction overflowed"
  | multiplication => "Multiplication overflowed"

/-- The decimal for `m / 10 ^ scale` without its last `dropped` places, if it has room. -/
def dropPlaces? (m : Int) (scale dropped : Nat) : Option Decimal :=
  ofMantissa? (m.sign * Rounding.toEven m.natAbs (10 ^ dropped)) (scale - dropped)

/-- The decimal for `m / 10 ^ scale` with as many places as there is room for. -/
def fit? (m : Int) (scale : Nat) : Option Decimal :=
  (List.range (scale + 1)).findSome? (dropPlaces? m scale)

/-- The mantissa of `x` at a scale no smaller than its own. -/
def mantissaAt (x : Decimal) (scale : Nat) : Int :=
  x.mantissa * 10 ^ (scale - x.scale)

/-- The exact sum at the greater scale, fitted. -/
def fittedSum? (x y : Decimal) : Option Decimal :=
  let scale := max x.scale y.scale
  fit? (x.mantissaAt scale + y.mantissaAt scale) scale

/-- The sum. A zero leaves the other summand as it is, with its own scale. -/
def add (x y : Decimal) : Except Overflow Decimal :=
  if x.magnitude = 0 then .ok y
  else if y.magnitude = 0 then .ok x
  else (fittedSum? x y).elim (.error .addition) .ok

/-- The difference. A zero leaves the other operand as it is, up to the sign. -/
def sub (x y : Decimal) : Except Overflow Decimal :=
  if x.magnitude = 0 then .ok y.neg
  else if y.magnitude = 0 then .ok x
  else (fittedSum? x y.neg).elim (.error .subtraction) .ok

/-- Twice the decimal. The double of a zero has no decimal places. -/
def double (x : Decimal) : Except Overflow Decimal :=
  if x.magnitude = 0 then .ok zero
  else (fit? (2 * x.mantissa) x.scale).elim (.error .multiplication) .ok

theorem dropPlaces?_zero (m : Int) (scale : Nat) :
    dropPlaces? m scale 0 = ofMantissa? m scale := by
  rw [dropPlaces?, Nat.pow_zero, Rounding.toEven_one, Int.sign_mul_natAbs, Nat.sub_zero]

theorem fit?_of_room {m : Int} {scale : Nat} {x : Decimal} (h : ofMantissa? m scale = some x) :
    fit? m scale = some x := by
  rw [fit?, List.range_succ_eq_map, List.findSome?_cons, dropPlaces?_zero, h]

end Decimal

end Candlestick
