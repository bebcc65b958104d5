import Candlestick.Decimal.Quotient
import Candlestick.Proofs.Decimal.Number
import Mathlib.Data.Nat.Cast.Field
import Mathlib.Tactic.Positivity
import Mathlib.Tactic.Ring

/-!
# Quotients as numbers

A quotient by a whole number is exact, or it lies less than a unit of its last place from the exact
one and there is no room for one more place (`Decimal.rounds_quotientParts`). Hence rounding never
takes a quotient past a decimal whose places there is room for (`Decimal.divNat_within`). The
quotient of a multiple is exact (`Decimal.toRat_divNat_of_dvd`).
-/

namespace Candlestick

namespace Decimal

variable {e : ℚ} {d q r scale k : Nat} {v : Nat × Nat}

/-! ### Units of a place -/

/-- How many units of the `k`-th place a number is. -/
def units (e : ℚ) (k : Nat) : ℚ :=
  e * ((10 ^ k : Nat) : ℚ)

lemma units_add (e : ℚ) (k p : Nat) : units e (k + p) = units e k * ((10 ^ p : Nat) : ℚ) := by
  rw [units, units, Nat.pow_add, Nat.cast_mul, mul_assoc]

lemma units_succ (e : ℚ) (k : Nat) : units e (k + 1) = units e k * 10 :=
  units_add e k 1

/-- There is no room for one more place after the `k`-th one. -/
def Ends (e : ℚ) (k : Nat) : Prop :=
  28 ≤ k ∨ 2 ^ 96 ≤ units e (k + 1) + 1

/-- The parts of a number, or of one next to it where its places end. -/
def Rounds (e : ℚ) (v : Nat × Nat) : Prop :=
  units e v.2 = v.1 ∨ |units e v.2 - v.1| < 1 ∧ Ends e v.2

/-! ### Bringing down digits -/

lemma ends_of_room (hq : (q : ℚ) ≤ units e scale) (h : room q scale = 0) : Ends e scale := by
  have hone : ¬(1 + scale ≤ 28 ∧ q * 10 ^ 1 < 2 ^ 96) := by
    intro hroom
    unfold room at h
    cases hfind : [9, 8, 7, 6, 5, 4, 3, 2, 1].find? fun p =>
        p + scale ≤ 28 ∧ q * 10 ^ p < 2 ^ 96 with
    | none => exact List.find?_eq_none.mp hfind 1 (by decide) (decide_eq_true hroom)
    | some p =>
      rw [hfind, Option.getD_some] at h
      subst h
      exact absurd (List.mem_of_find?_eq_some hfind) (by decide)
  by_cases hscale : 28 ≤ scale
  · exact .inl hscale
  · have hfull : 2 ^ 96 ≤ q * 10 := by omega
    have hcast : (2 ^ 96 : ℚ) ≤ q * 10 := by exact_mod_cast hfull
    rw [Ends, units_succ]
    refine .inr ?_
    linarith

/-- A digit is taken off by going to one of the nearest tens. -/
lemma shedDigit_near (scale : Nat) (more : Bool) (hq : 2 ^ 96 ≤ q) :
    (shedDigit q scale more).2 = scale - 1 ∧
      10 * (shedDigit q scale more).1 ≤ q + 5 ∧ q ≤ 10 * (shedDigit q scale more).1 + 5 := by
  rw [shedDigit, if_neg (Nat.not_lt.mpr hq)]
  refine ⟨rfl, ?_⟩
  simp only [Bool.or_eq_true, Bool.and_eq_true, decide_eq_true_eq, beq_iff_eq]
  split_ifs <;> omega

/-- What is less than a unit away is rounded to a neighbour when it sheds a digit. -/
lemma rounds_shedDigit (more : Bool) (hnear : |units e scale - q| < 1)
    (hends : q < 2 ^ 96 → Ends e scale) (hscale : 2 ^ 96 ≤ q → 0 < scale) :
    Rounds e (shedDigit q scale more) := by
  by_cases hq : q < 2 ^ 96
  · rw [shedDigit, if_pos hq]
    exact .inr ⟨hnear, hends hq⟩
  · have hfull := Nat.not_lt.mp hq
    obtain ⟨hplaces, habove, hbelow⟩ := shedDigit_near scale more hfull
    generalize shedDigit q scale more = v at hplaces habove hbelow
    have hunits := units_succ e (scale - 1)
    rw [Nat.sub_add_cancel (hscale hfull)] at hunits
    have hfull' : (2 ^ 96 : ℚ) ≤ q := by exact_mod_cast hfull
    have habove' : (10 : ℚ) * v.1 ≤ q + 5 := by exact_mod_cast habove
    have hbelow' : (q : ℚ) ≤ 10 * v.1 + 5 := by exact_mod_cast hbelow
    rw [abs_lt] at hnear
    rw [Rounds, Ends, hplaces, Nat.sub_add_cancel (hscale hfull), abs_lt]
    refine .inr ⟨⟨?_, ?_⟩, .inr ?_⟩ <;> linarith

/-- The digits brought down so far, with the remainder. -/
def Holds (e : ℚ) (d q r scale : Nat) : Prop :=
  units e scale = q + r / d

lemma Holds.bounds (h : Holds e d q r scale) (hd : 0 < d) (hr : r < d) :
    (q : ℚ) ≤ units e scale ∧ units e scale < q + 1 := by
  have hfraction : (r : ℚ) / d < 1 := by
    rw [div_lt_one (by exact_mod_cast hd)]
    exact_mod_cast hr
  have hnonneg : (0 : ℚ) ≤ (r : ℚ) / d := by positivity
  rw [Holds] at h
  constructor <;> linarith

/-- Bringing down digits keeps the number. -/
lemma Holds.next (h : Holds e d q r scale) (hd : 0 < d) (p : Nat) :
    Holds e d (q * 10 ^ p + r * 10 ^ p / d) (r * 10 ^ p % d) (scale + p) := by
  have hdivision : ((r * 10 ^ p : Nat) : ℚ) =
      d * (r * 10 ^ p / d : Nat) + (r * 10 ^ p % d : Nat) := by
    exact_mod_cast (Nat.div_add_mod (r * 10 ^ p) d).symm
  have hne : (d : ℚ) ≠ 0 := by exact_mod_cast hd.ne'
  rw [Holds] at h ⊢
  rw [units_add, h, Nat.cast_add, Nat.cast_mul]
  rw [Nat.cast_mul] at hdivision
  field_simp
  linarith

lemma rounds_bringDown (h : Holds e d q r scale) (hd : 0 < d) (hr : r < d) (hq : q < 2 ^ 96)
    (hs : scale ≤ 28) (hscale : q + 1 < 2 ^ 96 ∨ 0 < scale) :
    Rounds e (bringDown d q r scale) := by
  fun_induction bringDown d q r scale with
  | case1 =>
    left
    rw [Holds] at h
    simpa using h
  | case2 q r scale hr₀ hp =>
    obtain ⟨hle, hlt⟩ := h.bounds hd hr
    have hpos : (0 : ℚ) < (r : ℚ) / d := by
      have hrpos : 0 < r := Nat.pos_of_ne_zero hr₀
      positivity
    have hlt' : (q : ℚ) < units e scale := by
      rw [h]
      linarith
    apply rounds_shedDigit
    · rw [abs_lt]
      split_ifs
      · push_cast
        constructor <;> linarith
      · constructor <;> linarith
    · intro _
      exact ends_of_room hle (hp.resolve_right (by omega))
    · split_ifs <;> omega
  | case3 q r scale hr₀ hp p q' r' hq' ih =>
    refine ih (h.next hd p) (Nat.mod_lt _ hd) hq' ?_ ?_
    · have hplaces := room_le q hs
      omega
    · omega
  | case4 q r scale hr₀ hp p q' r' hq' =>
    obtain ⟨hle, hlt⟩ := (h.next hd p).bounds hd (Nat.mod_lt _ hd)
    apply rounds_shedDigit
    · rw [abs_lt]
      constructor <;> linarith
    · intro hlt
      exact absurd hlt hq'
    · intro _
      omega

/-! ### Taking off zeros -/

/-- The number with the given parts. -/
def number (v : Nat × Nat) : ℚ :=
  v.1 / ((10 ^ v.2 : Nat) : ℚ)

/-- Zeros at the end of a mantissa do not count. -/
lemma number_drop (hk : k ≤ scale) (hzeros : q % 10 ^ k = 0) :
    number (q / 10 ^ k, scale - k) = number (q, scale) := by
  have hq : (q : ℚ) = (q / 10 ^ k : Nat) * ((10 ^ k : Nat) : ℚ) := by
    exact_mod_cast (Nat.div_mul_cancel (Nat.dvd_of_mod_eq_zero hzeros)).symm
  have hpow : ((10 ^ scale : Nat) : ℚ) =
      ((10 ^ (scale - k) : Nat) : ℚ) * ((10 ^ k : Nat) : ℚ) := by
    rw [← Nat.cast_mul, ← Nat.pow_add, Nat.sub_add_cancel hk]
  rw [number, number, hq, hpow, mul_div_mul_right _ _ (cast_pow_pos k).ne']

lemma number_stripEights (q scale : Nat) : number (stripEights q scale) = number (q, scale) := by
  fun_induction stripEights q scale with
  | case1 q scale h ih => exact ih.trans (number_drop h.2.1 h.2.2)
  | case2 => rfl

lemma number_stripOnce (k : Nat) (v : Nat × Nat) : number (stripOnce k v) = number v := by
  rw [stripOnce]
  split_ifs with h
  · exact number_drop h.2.1 h.2.2
  · rfl

lemma number_stripZeros (v : Nat × Nat) : number (stripZeros v) = number v := by
  rw [stripZeros, number_stripOnce, number_stripOnce, number_stripOnce, number_stripEights]

/-! ### Quotients -/

/-- A quotient is the exact one, or a neighbour of it where its places end. -/
lemma rounds_quotientParts {m : Nat} (hd : 2 ≤ d) (hm : m < 2 ^ 96) (hs : scale ≤ 28) :
    ∃ v, Rounds (number (m, scale) / d) v ∧ number (quotientParts m scale d) = number v := by
  have hpos : 0 < d := by omega
  have hholds : Holds (number (m, scale) / d) d (m / d) (m % d) scale := by
    have hdivision : (m : ℚ) = d * (m / d : Nat) + (m % d : Nat) := by
      exact_mod_cast (Nat.div_add_mod m d).symm
    have hne : (d : ℚ) ≠ 0 := by exact_mod_cast hpos.ne'
    rw [Holds, units, number, div_mul_eq_mul_div, div_mul_cancel₀ _ (cast_pow_pos scale).ne',
      div_eq_iff hne, add_mul, div_mul_cancel₀ _ hne]
    linarith
  rw [quotientParts]
  split_ifs with hzero
  · refine ⟨_, .inl ?_, rfl⟩
    rw [Holds, hzero] at hholds
    simpa using hholds
  · have hq : m / d ≤ m / 2 := Nat.div_le_div_left hd (by decide)
    refine ⟨bringDown d (m / d) (m % d) scale, ?_, number_stripZeros _⟩
    exact rounds_bringDown hholds hpos (Nat.mod_lt _ hpos) (by omega) hs (.inl (by omega))

lemma units_mono {p : Nat} (he : 0 ≤ e) (h : k ≤ p) : units e k ≤ units e p := by
  have hpow : 10 ^ k ≤ 10 ^ p := Nat.pow_le_pow_right (by decide) h
  exact mul_le_mul_of_nonneg_left (Nat.cast_le.mpr hpow) he

/-- Where there is room for `k` places, they are not rounded. -/
lemma Rounds.cases (h : Rounds e v) (he : 0 ≤ e) (hk : k ≤ 28) (hroom : units e k + 1 < 2 ^ 96) :
    number v = e ∨ k ≤ v.2 ∧ |units e v.2 - v.1| < 1 := by
  rcases h with hexact | ⟨hnear, hends⟩
  · rw [number, ← hexact, units, mul_div_cancel_right₀ _ (cast_pow_pos v.2).ne']
    exact .inl rfl
  · refine .inr ⟨?_, hnear⟩
    by_contra hlt
    rcases hends with hlast | hfull
    · omega
    · have hmono := units_mono he (Nat.lt_of_not_le hlt)
      linarith

lemma exists_units_eq {l : ℚ} {n : Int} {p : Nat} (hn : units l k = n) (h : k ≤ p) :
    ∃ m : Int, units l p = m := by
  refine ⟨n * 10 ^ (p - k), ?_⟩
  rw [← Nat.add_sub_cancel' h, units_add, hn, Nat.add_sub_cancel_left]
  push_cast
  rfl

/-- Rounding does not go past a number whose places there is room for. -/
lemma Rounds.within {l : ℚ} {n : Int} (h : Rounds e v) (he : 0 ≤ e) (hk : k ≤ 28)
    (hroom : units e k + 1 < 2 ^ 96) (hn : units l k = n) :
    (l ≤ e → l ≤ number v) ∧ (e ≤ l → number v ≤ l) := by
  rcases h.cases he hk hroom with hexact | ⟨hplaces, hnear⟩
  · rw [hexact]
    exact ⟨id, id⟩
  · obtain ⟨m, hm⟩ := exists_units_eq hn hplaces
    have hpos := cast_pow_pos v.2
    rw [abs_lt] at hnear
    rw [number, le_div_iff₀ hpos, div_le_iff₀ hpos]
    change (_ → units l v.2 ≤ v.1) ∧ (_ → (v.1 : ℚ) ≤ units l v.2)
    -- Whole numbers less than a unit apart in the wrong direction are equal.
    constructor
    · intro hl
      have hle : units l v.2 ≤ units e v.2 := mul_le_mul_of_nonneg_right hl hpos.le
      have hlt : (m : ℚ) < v.1 + 1 := by linarith
      have hmantissa : m ≤ v.1 := Int.lt_add_one_iff.mp (by exact_mod_cast hlt)
      rw [hm]
      exact_mod_cast hmantissa
    · intro hl
      have hle : units e v.2 ≤ units l v.2 := mul_le_mul_of_nonneg_right hl hpos.le
      have hlt : (v.1 : ℚ) < m + 1 := by linarith
      have hmantissa : v.1 ≤ m := Int.lt_add_one_iff.mp (by exact_mod_cast hlt)
      rw [hm]
      exact_mod_cast hmantissa

/-! ### Signs -/

variable {x y : Decimal} {m n : Int}

/-- The number of a decimal without its sign. -/
def size (x : Decimal) : ℚ :=
  number (x.magnitude, x.scale)

lemma size_nonneg (x : Decimal) : 0 ≤ x.size :=
  div_nonneg (Nat.cast_nonneg _) (cast_pow_pos _).le

lemma toRat_eq_size (x : Decimal) : x.toRat = if x.negative then -x.size else x.size := by
  rw [toRat_eq_div, mantissa, size, number]
  split_ifs
  · rw [Int.cast_neg, neg_div]
    rfl
  · rfl

lemma abs_toRat (x : Decimal) : |x.toRat| = x.size := by
  rw [toRat_eq_size]
  split_ifs
  · rw [abs_neg, abs_of_nonneg x.size_nonneg]
  · exact abs_of_nonneg x.size_nonneg

/-- The sign of a quotient is that of the dividend. -/
lemma toRat_divNat (x : Decimal) (hd : 0 < d) :
    (x.divNat d hd).toRat =
      if x.negative then -number (quotientParts x.magnitude x.scale d)
      else number (quotientParts x.magnitude x.scale d) := by
  by_cases hzero : x.magnitude = 0
  · have hparts : number (quotientParts x.magnitude x.scale d) = 0 := by
      rw [quotientParts, hzero, if_pos (Nat.zero_mod d), Nat.zero_div, number, Nat.cast_zero,
        zero_div]
    rw [divNat, if_pos hzero, toRat_zero, hparts, neg_zero, ite_self]
  · rw [toRat_eq_size, divNat, if_neg hzero]
    simp only [size]
    by_cases hparts : (quotientParts x.magnitude x.scale d).1 = 0
    · have hnumber : number (quotientParts x.magnitude x.scale d) = 0 := by
        rw [number, hparts, Nat.cast_zero, zero_div]
      rw [hnumber, neg_zero, ite_self, ite_self]
    · simp only [bne_iff_ne.mpr hparts, Bool.and_true]

lemma units_size (hx : x.StandsFor m k) : units x.size k = m.natAbs := by
  rw [← abs_toRat, hx, units, abs_div, abs_of_pos (cast_pow_pos k),
    div_mul_cancel₀ _ (cast_pow_pos k).ne', ← Int.cast_abs, Int.abs_eq_natAbs, Int.cast_natCast]

/-- Rounding does not take a quotient past a number whose places there is room for. -/
lemma toRat_divNat_within {l : ℚ} (hx : x.StandsFor m k) (hk : k ≤ 28) (hd : 2 ≤ d) (hpos : 0 < d)
    (hroom : m.natAbs < 2 ^ 96) (hl : units l k = n) :
    (l ≤ x.toRat / d → l ≤ (x.divNat d hpos).toRat) ∧
      (x.toRat / d ≤ l → (x.divNat d hpos).toRat ≤ l) := by
  have hcast : (2 : ℚ) ≤ d := by exact_mod_cast hd
  have hunits : units (x.size / d) k + 1 < 2 ^ 96 := by
    have hlt : (m.natAbs : ℚ) + 1 ≤ 2 ^ 96 := by exact_mod_cast hroom
    have hhalf : (m.natAbs : ℚ) / d ≤ m.natAbs / 2 :=
      div_le_div_of_nonneg_left (Nat.cast_nonneg _) (by decide) hcast
    rw [units, div_mul_eq_mul_div, ← units, units_size hx]
    linarith
  have hneg : units (-l) k = (-n : Int) := by
    rw [units, neg_mul, Int.cast_neg, ← hl, units]
  have he : 0 ≤ x.size / d := div_nonneg x.size_nonneg (by linarith)
  obtain ⟨v, hv, hparts⟩ := rounds_quotientParts hd x.magnitude_lt x.scale_le
  obtain ⟨hlow, hhigh⟩ := Rounds.within hv he hk hunits hl
  obtain ⟨hlow', hhigh'⟩ := Rounds.within hv he hk hunits hneg
  rw [toRat_divNat, hparts, toRat_eq_size]
  split_ifs
  · rw [neg_div]
    exact ⟨fun h => le_neg_of_le_neg (hhigh' (le_neg_of_le_neg h)),
      fun h => neg_le_of_neg_le (hlow' (neg_le_of_neg_le h))⟩
  · exact ⟨hlow, hhigh⟩

/-- A quotient lies on the same side of a decimal as the exact one, if there is room for the places
of both. -/
lemma divNat_within (hx : x.StandsFor m k) (hy : y.StandsFor n k) (hk : k ≤ 28) (hd : 2 ≤ d)
    (hpos : 0 < d) (hroom : m.natAbs < 2 ^ 96) :
    (d * n ≤ m → y ≤ x.divNat d hpos) ∧ (m ≤ d * n → x.divNat d hpos ≤ y) := by
  have hcast : (0 : ℚ) < d := Nat.cast_pos.mpr hpos
  have hl : units y.toRat k = n := by
    rw [units, hy, div_mul_cancel₀ _ (cast_pow_pos k).ne']
  have hquotient : x.toRat / d = m / d / ((10 ^ k : Nat) : ℚ) := by rw [hx, div_right_comm]
  have hwithin := toRat_divNat_within hx hk hd hpos hroom hl
  rw [← le_iff_toRat, ← le_iff_toRat, hquotient, hy, div_le_div_iff_of_pos_right (cast_pow_pos k),
    div_le_div_iff_of_pos_right (cast_pow_pos k), le_div_iff₀ hcast, div_le_iff₀ hcast, mul_comm]
    at hwithin
  exact_mod_cast hwithin

/-- The quotient of a multiple is exact. -/
lemma toRat_divNat_of_dvd (hd : 0 < d) (h : d ∣ x.magnitude) :
    (x.divNat d hd).toRat = x.toRat / d := by
  have hparts : number (quotientParts x.magnitude x.scale d) = x.size / d := by
    have hne : (d : ℚ) ≠ 0 := Nat.cast_ne_zero.mpr hd.ne'
    rw [quotientParts, if_pos (Nat.mod_eq_zero_of_dvd h), number, Nat.cast_div h hne, size, number,
      div_right_comm]
  rw [toRat_divNat, toRat_eq_size, hparts]
  split_ifs
  · rw [neg_div]
  · rfl

/-- Mantissas of one number at two scales have the same divisors, but for twos and fives. -/
lemma dvd_magnitude (hx : x.StandsFor m k) (hd : d.Coprime 10) (h : (d : Int) ∣ m) :
    d ∣ x.magnitude := by
  have hmantissa : x.mantissa * 10 ^ k = m * 10 ^ x.scale := by
    rw [StandsFor, toRat_eq_div, div_eq_div_iff (cast_pow_pos _).ne' (cast_pow_pos _).ne'] at hx
    exact_mod_cast hx
  have hmagnitude : x.magnitude * 10 ^ k = m.natAbs * 10 ^ x.scale := by
    have habs := congrArg Int.natAbs hmantissa
    rwa [Int.natAbs_mul, Int.natAbs_mul, Int.natAbs_pow, Int.natAbs_pow, natAbs_mantissa] at habs
  have hdvd : d ∣ x.magnitude * 10 ^ k := by
    rw [hmagnitude]
    exact (Int.natCast_dvd.mp h).mul_right _
  exact (hd.pow_right k).dvd_of_dvd_mul_right hdvd

end Decimal

end Candlestick
