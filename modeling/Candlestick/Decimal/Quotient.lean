import Candlestick.Decimal.Basic
import Candlestick.Rounding

/-!
# Quotients by a whole number

Division brings down up to nine digits at a time for as long as there is a remainder and room for
more digits, and then rounds. Trailing zeros of a quotient that had a remainder are taken off by
eights, fours, twos and ones, each tried only where the low bits of the mantissa allow it; one
zero may be left standing.
-/

namespace Candlestick

namespace Decimal

/-- How many more digits, at most nine, a mantissa of `q` at `scale` has room for. -/
def room (q scale : Nat) : Nat :=
  ([9, 8, 7, 6, 5, 4, 3, 2, 1].find? fun p => p + scale ≤ 28 ∧ q * 10 ^ p < 2 ^ 96).getD 0

theorem room_le (q : Nat) {scale : Nat} (h : scale ≤ 28) : room q scale + scale ≤ 28 := by
  unfold room
  cases hf : [9, 8, 7, 6, 5, 4, 3, 2, 1].find? fun p => p + scale ≤ 28 ∧ q * 10 ^ p < 2 ^ 96 with
  | none => simpa using h
  | some p =>
    have hp := List.find?_some hf
    simp only [decide_eq_true_eq] at hp
    simpa using hp.1

theorem room_le_nine (q scale : Nat) : room q scale ≤ 9 := by
  unfold room
  cases hf : [9, 8, 7, 6, 5, 4, 3, 2, 1].find? fun p => p + scale ≤ 28 ∧ q * 10 ^ p < 2 ^ 96 with
  | none => simp
  | some p =>
    have hp := List.mem_of_find?_eq_some hf
    simp only [List.mem_cons, List.not_mem_nil, or_false] at hp
    simp only [Option.getD_some]
    omega

theorem mul_pow_room_lt {q scale : Nat} (h : q < 2 ^ 96) : q * 10 ^ room q scale < 2 ^ 96 := by
  unfold room
  cases hf : [9, 8, 7, 6, 5, 4, 3, 2, 1].find? fun p => p + scale ≤ 28 ∧ q * 10 ^ p < 2 ^ 96 with
  | none => simpa using h
  | some p =>
    have hp := List.find?_some hf
    simp only [decide_eq_true_eq] at hp
    simpa using hp.2

/-- Takes the last digit off a mantissa that has no room; `more` tells whether digits follow it. -/
def shedDigit (q scale : Nat) (more : Bool) : Nat × Nat :=
  if q < 2 ^ 96 then (q, scale)
  else
    let up := 5 < q % 10 || q % 10 == 5 && (more || q / 10 % 2 == 1)
    (if up then q / 10 + 1 else q / 10, scale - 1)

/-- Whether a remainder rounds the quotient up. -/
def roundsUp (d q r : Nat) : Bool :=
  d < 2 * r || d == 2 * r && q % 2 == 1

/-- The mantissa and scale of a quotient whose digits so far are `q`, with remainder `r`. -/
def bringDown (d q r scale : Nat) : Nat × Nat :=
  if r = 0 then (q, scale)
  else if hp : room q scale = 0 ∨ 28 < scale then
    shedDigit (if roundsUp d q r then q + 1 else q) scale true
  else
    let p := room q scale
    let q' := q * 10 ^ p + r * 10 ^ p / d
    let r' := r * 10 ^ p % d
    if q' < 2 ^ 96 then bringDown d q' r' (scale + p)
    else shedDigit q' (scale + p) (r' != 0)
termination_by 28 - scale
decreasing_by
  have : room q scale + scale ≤ 28 := room_le q (by omega)
  omega

/-- Takes eight zeros off the end of a mantissa while its lowest 32 bits are clear. -/
def stripEights (q scale : Nat) : Nat × Nat :=
  if h : q % 2 ^ 32 = 0 ∧ 8 ≤ scale ∧ q % 10 ^ 8 = 0 then stripEights (q / 10 ^ 8) (scale - 8)
  else (q, scale)
termination_by scale
decreasing_by omega

/-- Takes `k` zeros off the end of a mantissa once, if its lowest `k` bits are clear. -/
def stripOnce (k : Nat) (v : Nat × Nat) : Nat × Nat :=
  if v.1 % 2 ^ k = 0 ∧ k ≤ v.2 ∧ v.1 % 10 ^ k = 0 then (v.1 / 10 ^ k, v.2 - k) else v

/-- Takes zeros off the end of a mantissa, though not always all of them. -/
def stripZeros (v : Nat × Nat) : Nat × Nat :=
  stripOnce 1 (stripOnce 2 (stripOnce 4 (stripEights v.1 v.2)))

/-- The mantissa and scale of a natural mantissa `m` at `scale` divided by `d`. -/
def quotientParts (m scale d : Nat) : Nat × Nat :=
  if m % d = 0 then (m / d, scale) else stripZeros (bringDown d (m / d) (m % d) scale)

/-! ### Quotients are within bounds -/

/-- The bounds on the parts of a decimal. -/
def InBounds (v : Nat × Nat) : Prop :=
  v.1 < 2 ^ 96 ∧ v.2 ≤ 28

theorem inBounds_shedDigit {q scale : Nat} (more : Bool) (hq : q < 2 ^ 96 + 10 ^ 9)
    (hs : scale ≤ 28) : InBounds (shedDigit q scale more) := by
  unfold shedDigit InBounds
  split
  · exact ⟨‹_›, hs⟩
  · refine ⟨?_, ?_⟩
    · dsimp only
      split <;> omega
    · dsimp only
      omega

theorem inBounds_bringDown (d q r scale : Nat) (hd : 0 < d) (hr : r < d) (hq : q < 2 ^ 96)
    (hs : scale ≤ 28) : InBounds (bringDown d q r scale) := by
  fun_induction bringDown d q r scale with
  | case1 => exact ⟨hq, hs⟩
  | case2 q r scale _ hp =>
    apply inBounds_shedDigit _ _ hs
    split <;> omega
  | case3 q r scale hr₀ hp p q' r' hq' ih =>
    exact ih (Nat.mod_lt _ hd) hq' (by have := room_le q hs; omega)
  | case4 q r scale hr₀ hp p q' r' hq' =>
    apply inBounds_shedDigit _ _ (by have := room_le q hs; omega)
    have h₁ : q * 10 ^ p < 2 ^ 96 := mul_pow_room_lt hq
    have h₂ : r * 10 ^ p / d < 10 ^ p := by
      rw [Nat.div_lt_iff_lt_mul hd, Nat.mul_comm]
      exact Nat.mul_lt_mul_of_pos_left hr (Nat.pow_pos (by decide))
    have h₃ : 10 ^ p ≤ 10 ^ 9 := Nat.pow_le_pow_right (by decide) (room_le_nine q scale)
    have h₄ : q' = q * 10 ^ p + r * 10 ^ p / d := rfl
    omega

theorem inBounds_stripEights (q scale : Nat) (h : InBounds (q, scale)) :
    InBounds (stripEights q scale) := by
  fun_induction stripEights q scale with
  | case1 q scale hc ih =>
    exact ih ⟨Nat.lt_of_le_of_lt (Nat.div_le_self _ _) h.1, Nat.le_trans (Nat.sub_le _ _) h.2⟩
  | case2 => exact h

theorem inBounds_stripOnce (k : Nat) {v : Nat × Nat} (h : InBounds v) :
    InBounds (stripOnce k v) := by
  unfold stripOnce
  split
  · exact ⟨Nat.lt_of_le_of_lt (Nat.div_le_self _ _) h.1, Nat.le_trans (Nat.sub_le _ _) h.2⟩
  · exact h

theorem inBounds_stripZeros {v : Nat × Nat} (h : InBounds v) : InBounds (stripZeros v) :=
  inBounds_stripOnce _ (inBounds_stripOnce _ (inBounds_stripOnce _ (inBounds_stripEights _ _ h)))

theorem inBounds_quotientParts {m scale d : Nat} (hd : 0 < d) (h : InBounds (m, scale)) :
    InBounds (quotientParts m scale d) := by
  have hm : m / d < 2 ^ 96 := Nat.lt_of_le_of_lt (Nat.div_le_self _ _) h.1
  unfold quotientParts
  split
  · exact ⟨hm, h.2⟩
  · exact inBounds_stripZeros (inBounds_bringDown _ _ _ _ hd (Nat.mod_lt _ hd) hm h.2)

/-- The quotient by a positive whole number. The quotient of a zero has no decimal places, and a
quotient that is zero has no sign. -/
def divNat (x : Decimal) (d : Nat) (hd : 0 < d) : Decimal :=
  if x.magnitude = 0 then zero
  else
    { negative := x.negative && (quotientParts x.magnitude x.scale d).1 != 0
      magnitude := (quotientParts x.magnitude x.scale d).1
      scale := (quotientParts x.magnitude x.scale d).2
      magnitude_lt := (inBounds_quotientParts hd ⟨x.magnitude_lt, x.scale_le⟩).1
      scale_le := (inBounds_quotientParts hd ⟨x.magnitude_lt, x.scale_le⟩).2 }

end Decimal

end Candlestick
