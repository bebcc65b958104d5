/-!
# Rounded division

Two ways to round the quotient of natural numbers to a nearest whole number; they differ in what
happens to a quotient that lies half way between two.
-/

namespace Candlestick.Rounding

/-- The quotient rounded to the nearest whole number, half way to the even one. -/
def toEven (n d : Nat) : Nat :=
  if d < 2 * (n % d) ∨ d = 2 * (n % d) ∧ n / d % 2 = 1 then n / d + 1 else n / d

/-- The quotient rounded to the nearest whole number, half way to the greater one. -/
def toGreater (n d : Nat) : Nat :=
  if d ≤ 2 * (n % d) then n / d + 1 else n / d

theorem toEven_one (n : Nat) : toEven n 1 = n := by
  simp [toEven, Nat.mod_one]

theorem toEven_mul_self (n : Nat) {d : Nat} (hd : 0 < d) : toEven (n * d) d = n := by
  simp [toEven, Nat.mul_div_cancel n hd, Nat.ne_of_gt hd]

/-- A rounded quotient is within half a unit of the exact one. -/
theorem toEven_nearest (n : Nat) {d : Nat} (hd : 0 < d) :
    2 * (d * toEven n d) ≤ 2 * n + d ∧ 2 * n ≤ 2 * (d * toEven n d) + d := by
  have hn := Nat.div_add_mod n d
  have hr := Nat.mod_lt n hd
  unfold toEven
  split
  · rw [Nat.mul_add, Nat.mul_one]
    omega
  · omega

/-- A rounded quotient is within half a unit of the exact one. -/
theorem toGreater_nearest (n : Nat) {d : Nat} (hd : 0 < d) :
    2 * (d * toGreater n d) ≤ 2 * n + d ∧ 2 * n ≤ 2 * (d * toGreater n d) + d := by
  have hn := Nat.div_add_mod n d
  have hr := Nat.mod_lt n hd
  unfold toGreater
  split
  · rw [Nat.mul_add, Nat.mul_one]
    omega
  · omega

end Candlestick.Rounding
