import Candlestick.Digits

/-!
# Decimal numbers

A `Decimal` is a sign and a whole number of at most 96 bits over a power of ten. Sign and scale
are part of the value: `1.0` and `1.00` are different decimals with the same number
`Decimal.toRat`, and so are `0` and `-0`. The order is that of the numbers.
-/

namespace Candlestick

/-- The number `magnitude / 10 ^ scale`, or its opposite if it is `negative`. -/
structure Decimal where
  negative : Bool
  magnitude : Nat
  scale : Nat
  magnitude_lt : magnitude < 2 ^ 96
  scale_le : scale ≤ 28
deriving DecidableEq

namespace Decimal

/-- The decimal with the given parts, if they are within bounds. -/
def ofParts? (negative : Bool) (magnitude scale : Nat) : Option Decimal :=
  if h : magnitude < 2 ^ 96 ∧ scale ≤ 28 then some ⟨negative, magnitude, scale, h.1, h.2⟩ else none

/-- The decimal for `m / 10 ^ scale`, if there is one. A zero has no sign. -/
def ofMantissa? (m : Int) (scale : Nat) : Option Decimal :=
  ofParts? (m < 0) m.natAbs scale

/-- Zero, with no decimal places. -/
def zero : Decimal := ⟨false, 0, 0, by decide, by decide⟩

instance : Inhabited Decimal := ⟨zero⟩

/-- The signed number of units of the last place. -/
def mantissa (x : Decimal) : Int :=
  if x.negative then -x.magnitude else x.magnitude

/-- The number that a decimal stands for. -/
def toRat (x : Decimal) : Rat :=
  mkRat x.mantissa (10 ^ x.scale)

/-- The decimal with the other sign; a zero keeps the sign it has. -/
def neg (x : Decimal) : Decimal :=
  if x.magnitude = 0 then x else { x with negative := !x.negative }

/-- The decimal without its sign. -/
def abs (x : Decimal) : Decimal :=
  { x with negative := false }

/-! ### Order -/

/-- The mantissa of `x` at the sum of the scales of `x` and `y`. -/
def alignedTo (x y : Decimal) : Int :=
  x.mantissa * 10 ^ y.scale

instance : LT Decimal := ⟨fun x y => x.alignedTo y < y.alignedTo x⟩

instance : LE Decimal := ⟨fun x y => x.alignedTo y ≤ y.alignedTo x⟩

instance (x y : Decimal) : Decidable (x < y) :=
  inferInstanceAs (Decidable (x.alignedTo y < y.alignedTo x))

instance (x y : Decimal) : Decidable (x ≤ y) :=
  inferInstanceAs (Decidable (x.alignedTo y ≤ y.alignedTo x))

/-- Whether two decimals stand for the same number. -/
def sameNumber (x y : Decimal) : Bool :=
  x.alignedTo y == y.alignedTo x

/-- The greater of two decimals, the first of them if they are the same number. -/
protected def max (x y : Decimal) : Decimal :=
  if x < y then y else x

/-- The smaller of two decimals, the first of them if they are the same number. -/
protected def min (x y : Decimal) : Decimal :=
  if y < x then y else x

theorem ofParts?_eq_some_iff {negative : Bool} {m s : Nat} {x : Decimal} :
    ofParts? negative m s = some x ↔ x.negative = negative ∧ x.magnitude = m ∧ x.scale = s := by
  unfold ofParts?
  constructor
  · intro h
    split at h
    · cases h; exact ⟨rfl, rfl, rfl⟩
    · cases h
  · rintro ⟨rfl, rfl, rfl⟩
    rw [dif_pos ⟨x.magnitude_lt, x.scale_le⟩]

theorem ofParts?_self (x : Decimal) : ofParts? x.negative x.magnitude x.scale = some x :=
  ofParts?_eq_some_iff.2 ⟨rfl, rfl, rfl⟩

@[simp] theorem natAbs_mantissa (x : Decimal) : x.mantissa.natAbs = x.magnitude := by
  unfold mantissa
  split <;> omega

theorem mantissa_neg (x : Decimal) : x.neg.mantissa = -x.mantissa := by
  unfold neg
  split
  · next h => simp [mantissa, h]
  · cases h : x.negative <;> simp [mantissa, h]

theorem mantissa_of_ofMantissa? {m : Int} {s : Nat} {x : Decimal} (h : ofMantissa? m s = some x) :
    x.mantissa = m := by
  obtain ⟨hn, hm, -⟩ := ofParts?_eq_some_iff.1 h
  rw [mantissa, hn, hm]
  by_cases hneg : m < 0
  · rw [if_pos (decide_eq_true hneg)]
    omega
  · rw [if_neg (by simpa using hneg)]
    omega

end Decimal

end Candlestick
