/-!
# Digit words

Natural numbers as words of digits: `Digits.fixed` writes a set number of digits in a base of at
most sixteen, `Digits.decimal` writes as many decimal digits as the number needs, and
`Digits.value` reads a decimal word back.
-/

-- `10 ^ n` stands for the same term here and where a library with powers of its own is imported.
attribute [instance (high + 1), default_instance (high + 1)] instPowNat

namespace Candlestick.Digits

/-- The last `width` digits of `n`, padded with zeros on the left. -/
def fixed (base : Nat) : (width n : Nat) → List Char
  | 0, _ => []
  | width + 1, n => fixed base width (n / base) ++ [(n % base).digitChar]

/-- The decimal digits of `n`, with no leading zero unless `n` is zero. -/
def decimal (n : Nat) : List Char :=
  if n < 10 then [n.digitChar] else decimal (n / 10) ++ [(n % 10).digitChar]

/-- The number that a decimal digit stands for. -/
def digit (c : Char) : Nat :=
  c.toNat - '0'.toNat

/-- The number that a word of decimal digits stands for; the empty word is zero. -/
def value (ds : List Char) : Nat :=
  ds.foldl (fun v c => 10 * v + digit c) 0

/-- The digits at the front of a text, and what follows them. -/
def span (cs : List Char) : List Char × List Char :=
  (cs.takeWhile Char.isDigit, cs.dropWhile Char.isDigit)

/-- The digits at the front of a text, of which there is at least one, and what follows them. -/
def word? (cs : List Char) : Option (List Char × List Char) :=
  if (span cs).1 = [] then none else some (span cs)

/-- A word of decimal digits read as a number below `bound`. -/
def natBelow? (bound : Nat) (cs : List Char) : Option Nat :=
  if cs ≠ [] ∧ cs.all Char.isDigit ∧ value cs < bound then some (value cs) else none

@[simp] theorem length_fixed (base width n : Nat) : (fixed base width n).length = width := by
  induction width generalizing n with
  | zero => rfl
  | succ width ih => simp [fixed, ih]

theorem decimal_of_lt {n : Nat} (h : n < 10) : decimal n = [n.digitChar] := by
  rw [decimal, if_pos h]

theorem decimal_of_le {n : Nat} (h : 10 ≤ n) :
    decimal n = decimal (n / 10) ++ [(n % 10).digitChar] := by
  rw [decimal, if_neg (by omega)]

theorem append_span (cs : List Char) : (span cs).1 ++ (span cs).2 = cs :=
  List.takeWhile_append_dropWhile

theorem length_of_word?_eq_some {cs ds rest : List Char} (h : word? cs = some (ds, rest)) :
    rest.length < cs.length := by
  unfold word? at h
  split at h
  · cases h
  · next hne =>
    have hs := append_span cs
    rw [Option.some.inj h] at hs hne
    have : 0 < ds.length := List.length_pos_iff.2 hne
    simp only [← hs, List.length_append]
    omega

end Candlestick.Digits
