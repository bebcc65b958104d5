import Candlestick.Decimal.Arithmetic
import Mathlib.Algebra.Order.Field.Basic
import Mathlib.Data.Rat.Lemmas
import Mathlib.Tactic.FieldSimp
import Mathlib.Tactic.Linarith

/-!
# Decimals as numbers

The order of decimals and their sums are those of the numbers they stand for. A sum is rounded only
if no decimal stands for the exact one (`Decimal.add_exact`), and so are differences and doubles.
Mantissas at one scale are added as whole numbers (`Decimal.StandsFor.add`).
-/

namespace Candlestick

namespace Decimal

variable {x y z : Decimal} {m : Int} {scale : Nat}

lemma toRat_eq_div (x : Decimal) : x.toRat = x.mantissa / ((10 ^ x.scale : Nat) : ℚ) :=
  Rat.mkRat_eq_div _ _

lemma cast_pow_pos (n : Nat) : (0 : ℚ) < ((10 ^ n : Nat) : ℚ) :=
  Nat.cast_pos.mpr (Nat.pow_pos (by decide))

/-! ### Order -/

lemma cast_alignedTo (x y : Decimal) :
    ((x.alignedTo y : Int) : ℚ) = x.mantissa * ((10 ^ y.scale : Nat) : ℚ) := by
  rw [alignedTo]
  push_cast
  rfl

lemma lt_iff_toRat : x < y ↔ x.toRat < y.toRat := by
  rw [toRat_eq_div, toRat_eq_div, div_lt_div_iff₀ (cast_pow_pos _) (cast_pow_pos _),
    ← cast_alignedTo, ← cast_alignedTo]
  exact Int.cast_lt.symm

lemma le_iff_toRat : x ≤ y ↔ x.toRat ≤ y.toRat := by
  rw [← not_lt, ← lt_iff_toRat]
  exact Int.not_lt.symm

instance : Preorder Decimal where
  le_refl x := le_iff_toRat.mpr le_rfl
  le_trans x y z hxy hyz := by
    rw [le_iff_toRat] at *
    exact hxy.trans hyz
  lt_iff_le_not_ge x y := by
    rw [lt_iff_toRat, le_iff_toRat, le_iff_toRat]
    exact lt_iff_le_not_ge

lemma not_lt_iff : ¬x < y ↔ y ≤ x :=
  Int.not_lt

instance : Std.Total (α := Decimal) (· ≤ ·) where
  total x y := by
    rw [le_iff_toRat, le_iff_toRat]
    exact le_total _ _

instance : Std.Total (α := Decimal) (· ≥ ·) where
  total x y := Std.Total.total (r := (· ≤ ·)) y x

lemma sameNumber_iff : x.sameNumber y ↔ x.toRat = y.toRat := by
  rw [toRat_eq_div, toRat_eq_div, div_eq_div_iff (cast_pow_pos _).ne' (cast_pow_pos _).ne',
    ← cast_alignedTo, ← cast_alignedTo, Int.cast_inj]
  exact beq_iff_eq

lemma sameNumber_refl (x : Decimal) : x.sameNumber x :=
  sameNumber_iff.mpr rfl

lemma max_eq_ite (x y : Decimal) : x.max y = if y ≤ x then x else y := by
  rw [Decimal.max]
  simp only [← not_lt_iff, ite_not]

lemma min_eq_ite (x y : Decimal) : x.min y = if y ≥ x then x else y := by
  rw [Decimal.min]
  simp only [ge_iff_le, ← not_lt_iff, ite_not]

protected lemma le_max_left (x y : Decimal) : x ≤ x.max y := by
  rw [Decimal.max]
  split_ifs with hlt
  · exact hlt.le
  · exact le_rfl

protected lemma le_max_right (x y : Decimal) : y ≤ x.max y := by
  rw [Decimal.max]
  split_ifs with hlt
  · exact le_rfl
  · exact Int.not_lt.mp hlt

protected lemma min_le_left (x y : Decimal) : x.min y ≤ x := by
  rw [Decimal.min]
  split_ifs with hlt
  · exact hlt.le
  · exact le_rfl

protected lemma min_le_right (x y : Decimal) : x.min y ≤ y := by
  rw [Decimal.min]
  split_ifs with hlt
  · exact le_rfl
  · exact Int.not_lt.mp hlt

lemma max_assoc (x y z : Decimal) : (x.max y).max z = x.max (y.max z) := by
  simp only [Decimal.max, lt_iff_toRat]
  split_ifs <;> first | rfl | linarith

lemma min_assoc (x y z : Decimal) : (x.min y).min z = x.min (y.min z) := by
  simp only [Decimal.min, lt_iff_toRat]
  split_ifs <;> first | rfl | linarith

/-! ### Sums -/

lemma toRat_of_magnitude_eq_zero (h : x.magnitude = 0) : x.toRat = 0 := by
  have hmantissa : x.mantissa = 0 := by rw [← Int.natAbs_eq_zero, natAbs_mantissa, h]
  rw [toRat_eq_div, hmantissa, Int.cast_zero, zero_div]

lemma toRat_zero : zero.toRat = 0 :=
  toRat_of_magnitude_eq_zero rfl

lemma toRat_of_ofMantissa? (h : ofMantissa? m scale = some x) :
    x.toRat = m / ((10 ^ scale : Nat) : ℚ) := by
  obtain ⟨-, -, hscale⟩ := ofParts?_eq_some_iff.mp h
  rw [toRat_eq_div, mantissa_of_ofMantissa? h, hscale]

lemma exists_ofMantissa? (hm : m.natAbs < 2 ^ 96) (hscale : scale ≤ 28) :
    ∃ x, ofMantissa? m scale = some x := by
  rw [ofMantissa?, ofParts?, dif_pos ⟨hm, hscale⟩]
  exact ⟨_, rfl⟩

/-- A mantissa at a scale no smaller than the decimal's own stands for the same number. -/
lemma cast_mantissaAt (h : x.scale ≤ scale) :
    ((x.mantissaAt scale : Int) : ℚ) = x.toRat * ((10 ^ scale : Nat) : ℚ) := by
  have hpow : ((10 ^ scale : Nat) : ℚ) =
      ((10 ^ x.scale : Nat) : ℚ) * ((10 ^ (scale - x.scale) : Nat) : ℚ) := by
    rw [← Nat.cast_mul, ← Nat.pow_add, Nat.add_sub_cancel' h]
  have hne := (cast_pow_pos x.scale).ne'
  rw [mantissaAt, toRat_eq_div, hpow, ← mul_assoc, div_mul_cancel₀ _ hne]
  push_cast
  rfl

/-- Places that are all zero are dropped without rounding. -/
lemma dropPlaces?_of_zeros (m : Int) (scale k : Nat) :
    dropPlaces? (m * 10 ^ k) scale k = ofMantissa? m (scale - k) := by
  have hpos : 0 < 10 ^ k := Nat.pow_pos (by decide)
  have habs : (m * 10 ^ k).natAbs = m.natAbs * 10 ^ k := by
    rw [Int.natAbs_mul, Int.natAbs_pow]
    rfl
  have hsign : (m * 10 ^ k).sign = m.sign := by
    rw [Int.sign_mul, Int.sign_eq_one_of_pos (Int.pow_pos (by decide)), Int.mul_one]
  rw [dropPlaces?, habs, hsign, Rounding.toEven_mul_self _ hpos, Int.sign_mul_natAbs]

/-- What is left when zeros are dropped stands for the same number. -/
lemma toRat_of_dropPlaces? {k : Nat} (hk : k ≤ scale)
    (h : dropPlaces? (m * 10 ^ k) scale k = some x) :
    x.toRat = (m * 10 ^ k : Int) / ((10 ^ scale : Nat) : ℚ) := by
  have hpow : ((10 ^ scale : Nat) : ℚ) = ((10 ^ (scale - k) : Nat) : ℚ) * ((10 ^ k : Nat) : ℚ) := by
    rw [← Nat.cast_mul, ← Nat.pow_add, Nat.sub_add_cancel hk]
  have hcast : ((m * 10 ^ k : Int) : ℚ) = m * ((10 ^ k : Nat) : ℚ) := by
    push_cast
    rfl
  rw [dropPlaces?_of_zeros] at h
  rw [toRat_of_ofMantissa? h, hpow, hcast, mul_div_mul_right _ _ (cast_pow_pos k).ne']

/-- If dropping `k` zeros makes room, then no more are dropped and nothing is rounded. -/
lemma fit?_of_zeros {k : Nat} (hk : k ≤ scale) (h : ofMantissa? m (scale - k) = some x) :
    ∃ w, fit? (m * 10 ^ k) scale = some w ∧ w.toRat = x.toRat := by
  have hrange : List.range (scale + 1) =
      List.range (k + 1) ++ (List.range (scale - k)).map (k + 1 + ·) := by
    rw [← List.range_add]
    congr 1
    omega
  have hx : dropPlaces? (m * 10 ^ k) scale k = some x := (dropPlaces?_of_zeros m scale k).trans h
  have hsome : ((List.range (k + 1)).findSome? (dropPlaces? (m * 10 ^ k) scale)).isSome := by
    rw [List.findSome?_isSome_iff]
    exact ⟨k, List.mem_range.mpr (Nat.lt_succ_self k), by rw [hx]; rfl⟩
  obtain ⟨w, hw⟩ := Option.isSome_iff_exists.mp hsome
  refine ⟨w, by rw [fit?, hrange, List.findSome?_append, hw]; rfl, ?_⟩
  obtain ⟨d, hd, hfound⟩ := List.exists_of_findSome?_eq_some hw
  have hdk : d ≤ k := Nat.le_of_lt_succ (List.mem_range.mp hd)
  have hsplit : m * 10 ^ k = m * 10 ^ (k - d) * 10 ^ d := by
    rw [Int.mul_assoc, ← Int.pow_add, Nat.sub_add_cancel hdk]
  rw [hsplit] at hfound
  rw [toRat_of_dropPlaces? (hdk.trans hk) hfound, ← hsplit, toRat_of_dropPlaces? hk hx]

/-- What a decimal can stand for is fitted without rounding. -/
lemma fit?_exact (hscale : scale ≤ 28) (h : z.toRat = m / ((10 ^ scale : Nat) : ℚ)) :
    ∃ w, fit? m scale = some w ∧ w.toRat = z.toRat := by
  have hmantissa : z.mantissa * 10 ^ scale = m * 10 ^ z.scale := by
    rw [toRat_eq_div, div_eq_div_iff (cast_pow_pos _).ne' (cast_pow_pos _).ne'] at h
    exact_mod_cast h
  have hpos (n : Nat) : (10 ^ n : Int) ≠ 0 := (Int.pow_pos (by decide)).ne'
  rcases Nat.le_total scale z.scale with hle | hle
  · -- The mantissa is no greater than that of the decimal.
    have hz : z.mantissa = m * 10 ^ (z.scale - scale) := by
      rw [← Nat.add_sub_cancel' hle, Int.pow_add, Int.mul_comm (10 ^ scale),
        ← Int.mul_assoc] at hmantissa
      exact Int.eq_of_mul_eq_mul_right (hpos scale) hmantissa
    have habs : m.natAbs < 2 ^ 96 := by
      have hlt := z.magnitude_lt
      rw [← natAbs_mantissa, hz, Int.natAbs_mul, Int.natAbs_pow] at hlt
      exact (Nat.le_mul_of_pos_right _ (Nat.pow_pos (by decide))).trans_lt hlt
    obtain ⟨w, hw⟩ := exists_ofMantissa? habs hscale
    exact ⟨w, fit?_of_room hw, (toRat_of_ofMantissa? hw).trans h.symm⟩
  · -- The mantissa is that of the decimal and zeros.
    have hm : m = z.mantissa * 10 ^ (scale - z.scale) := by
      rw [← Nat.sub_add_cancel hle, Int.pow_add, ← Int.mul_assoc] at hmantissa
      exact (Int.eq_of_mul_eq_mul_right (hpos z.scale) hmantissa).symm
    obtain ⟨x, hx⟩ := exists_ofMantissa? (by rw [natAbs_mantissa]; exact z.magnitude_lt) z.scale_le
    have hscale' : scale - (scale - z.scale) = z.scale := Nat.sub_sub_self hle
    obtain ⟨w, hw, heq⟩ := fit?_of_zeros (Nat.sub_le scale z.scale) (hscale'.symm ▸ hx)
    rw [hm]
    exact ⟨w, hw, heq.trans ((toRat_of_ofMantissa? hx).trans (toRat_eq_div z).symm)⟩

/-- A sum is exact if a decimal stands for it. -/
lemma add_exact (h : z.toRat = x.toRat + y.toRat) : ∃ w, x.add y = .ok w ∧ w.toRat = z.toRat := by
  rw [add]
  split_ifs with hx hy
  · exact ⟨y, rfl, by rw [h, toRat_of_magnitude_eq_zero hx, zero_add]⟩
  · exact ⟨x, rfl, by rw [h, toRat_of_magnitude_eq_zero hy, add_zero]⟩
  · have hscale : max x.scale y.scale ≤ 28 := max_le x.scale_le y.scale_le
    have hsum : z.toRat = (x.mantissaAt (max x.scale y.scale) + y.mantissaAt (max x.scale y.scale) :
        Int) / ((10 ^ max x.scale y.scale : Nat) : ℚ) := by
      rw [Int.cast_add, cast_mantissaAt (le_max_left _ _), cast_mantissaAt (le_max_right _ _),
        ← add_mul, mul_div_cancel_right₀ _ (cast_pow_pos _).ne', h]
    obtain ⟨w, hw, heq⟩ := fit?_exact hscale hsum
    rw [fittedSum?, hw]
    exact ⟨w, rfl, heq⟩

/-! ### Differences and doubles -/

lemma toRat_neg (x : Decimal) : x.neg.toRat = -x.toRat := by
  have hscale : x.neg.scale = x.scale := by
    rw [neg]
    split_ifs <;> rfl
  rw [toRat_eq_div, toRat_eq_div, mantissa_neg, hscale, Int.cast_neg, neg_div]

lemma toRat_abs (x : Decimal) : x.abs.toRat = |x.toRat| := by
  have hmantissa : x.abs.mantissa = |x.mantissa| := by
    rw [Int.abs_eq_natAbs, natAbs_mantissa]
    rfl
  rw [toRat_eq_div, toRat_eq_div, hmantissa, abs_div, abs_of_pos (cast_pow_pos x.scale),
    Int.cast_abs]
  rfl

lemma sub_of_add_neg (h : x.add y.neg = .ok z) : x.sub y = .ok z := by
  have hmagnitude : y.neg.magnitude = y.magnitude := by
    rw [neg]
    split_ifs <;> rfl
  rw [add, hmagnitude] at h
  rw [sub]
  split_ifs at h ⊢
  · exact h
  · exact h
  · cases hfit : fittedSum? x y.neg with
    | none =>
      rw [hfit] at h
      cases h
    | some w =>
      rw [hfit] at h
      exact h

/-- A difference is exact if a decimal stands for it. -/
lemma sub_exact (h : z.toRat = x.toRat - y.toRat) : ∃ w, x.sub y = .ok w ∧ w.toRat = z.toRat := by
  rw [sub_eq_add_neg, ← toRat_neg] at h
  obtain ⟨w, hadd, hw⟩ := add_exact h
  exact ⟨w, sub_of_add_neg hadd, hw⟩

/-- A double is exact if a decimal stands for it. -/
lemma double_exact (h : z.toRat = 2 * x.toRat) : ∃ w, x.double = .ok w ∧ w.toRat = z.toRat := by
  rw [double]
  split_ifs with hx
  · exact ⟨zero, rfl, by rw [h, toRat_of_magnitude_eq_zero hx, toRat_zero, mul_zero]⟩
  · have hdouble : z.toRat = (2 * x.mantissa : Int) / ((10 ^ x.scale : Nat) : ℚ) := by
      rw [h, toRat_eq_div, ← mul_div_assoc, Int.cast_mul]
      rfl
    obtain ⟨w, hw, heq⟩ := fit?_exact x.scale_le hdouble
    rw [hw]
    exact ⟨w, rfl, heq⟩

/-! ### Mantissas at one scale -/

/-- The decimal can be written with the mantissa `m` at `scale`, whatever its own scale is. -/
def StandsFor (x : Decimal) (m : Int) (scale : Nat) : Prop :=
  x.toRat = m / ((10 ^ scale : Nat) : ℚ)

lemma exists_standsFor (hm : m.natAbs < 2 ^ 96) (hscale : scale ≤ 28) :
    ∃ x : Decimal, x.StandsFor m scale := by
  obtain ⟨x, hx⟩ := exists_ofMantissa? hm hscale
  exact ⟨x, toRat_of_ofMantissa? hx⟩

/-- A decimal can be written at any scale no smaller than its own. -/
lemma standsFor_mantissaAt (h : x.scale ≤ scale) : x.StandsFor (x.mantissaAt scale) scale := by
  rw [StandsFor, cast_mantissaAt h, mul_div_cancel_right₀ _ (cast_pow_pos scale).ne']

lemma StandsFor.le_iff {n : Int} (hx : x.StandsFor m scale) (hy : y.StandsFor n scale) :
    x ≤ y ↔ m ≤ n := by
  rw [le_iff_toRat, hx, hy, div_le_div_iff_of_pos_right (cast_pow_pos scale), Int.cast_le]

lemma StandsFor.unique {n : Int} (hx : x.StandsFor m scale) (hx' : x.StandsFor n scale) : m = n :=
  le_antisymm ((hx.le_iff hx').mp le_rfl) ((hx'.le_iff hx).mp le_rfl)

lemma StandsFor.add {n : Int} (hx : x.StandsFor m scale) (hy : y.StandsFor n scale)
    (hscale : scale ≤ 28) (hroom : (m + n).natAbs < 2 ^ 96) :
    ∃ w, x.add y = .ok w ∧ w.StandsFor (m + n) scale := by
  obtain ⟨z, hz⟩ := exists_standsFor hroom hscale
  have hsum : z.toRat = x.toRat + y.toRat := by rw [hz, hx, hy, Int.cast_add, add_div]
  obtain ⟨w, hadd, hw⟩ := add_exact hsum
  exact ⟨w, hadd, hw.trans hz⟩

lemma StandsFor.sub {n : Int} (hx : x.StandsFor m scale) (hy : y.StandsFor n scale)
    (hscale : scale ≤ 28) (hroom : (m - n).natAbs < 2 ^ 96) :
    ∃ w, x.sub y = .ok w ∧ w.StandsFor (m - n) scale := by
  obtain ⟨z, hz⟩ := exists_standsFor hroom hscale
  have hdifference : z.toRat = x.toRat - y.toRat := by rw [hz, hx, hy, Int.cast_sub, sub_div]
  obtain ⟨w, hsub, hw⟩ := sub_exact hdifference
  exact ⟨w, hsub, hw.trans hz⟩

lemma StandsFor.double (hx : x.StandsFor m scale) (hscale : scale ≤ 28)
    (hroom : (2 * m).natAbs < 2 ^ 96) : ∃ w, x.double = .ok w ∧ w.StandsFor (2 * m) scale := by
  obtain ⟨z, hz⟩ := exists_standsFor hroom hscale
  have htwice : z.toRat = 2 * x.toRat := by
    rw [hz, hx, Int.cast_mul, mul_div_assoc]
    rfl
  obtain ⟨w, hdouble, hw⟩ := double_exact htwice
  exact ⟨w, hdouble, hw.trans hz⟩

/-! ### Running sums -/

/-- Decimals are added to another one without rounding. -/
def AddsUp (v : Decimal) : List Decimal → Prop
  | [] => True
  | q :: qs => ∃ w, v.add q = .ok w ∧ w.toRat = v.toRat + q.toRat ∧ w.AddsUp qs

/-- What adds up without rounding does not overflow. -/
lemma AddsUp.foldlM_add {v : Decimal} {qs : List Decimal} (h : v.AddsUp qs) :
    ∃ w, qs.foldlM add v = .ok w ∧ w.toRat = v.toRat + (qs.map toRat).sum := by
  induction qs generalizing v with
  | nil => exact ⟨v, rfl, by rw [List.map_nil, List.sum_nil, add_zero]⟩
  | cons q qs ih =>
    obtain ⟨w, hadd, hw, hrest⟩ := h
    obtain ⟨total, htotal, hsum⟩ := ih hrest
    refine ⟨total, ?_, ?_⟩
    · rw [List.foldlM_cons, hadd]
      exact htotal
    · rw [hsum, hw, List.map_cons, List.sum_cons, add_assoc]

/-- Decimals stand for all running sums that start with `v`. -/
def HasRunningSums (v : Decimal) (qs : List Decimal) : Prop :=
  ∀ n, ∃ z : Decimal, z.toRat = v.toRat + ((qs.take n).map toRat).sum

/-- Running sums that decimals stand for are not rounded. -/
lemma HasRunningSums.addsUp {v : Decimal} {qs : List Decimal} (h : v.HasRunningSums qs) :
    v.AddsUp qs := by
  induction qs generalizing v with
  | nil => exact trivial
  | cons q qs ih =>
    obtain ⟨z, hz⟩ := h 1
    rw [List.take_one, List.head?_cons, Option.toList_some, List.map_singleton, List.sum_singleton]
      at hz
    obtain ⟨w, hadd, hw⟩ := add_exact hz
    refine ⟨w, hadd, hw.trans hz, ih ?_⟩
    intro n
    obtain ⟨z', hz'⟩ := h (n + 1)
    rw [List.take_succ_cons, List.map_cons, List.sum_cons, ← add_assoc, ← hz, ← hw] at hz'
    exact ⟨z', hz'⟩

lemma hasRunningSums_singleton (q : Decimal) : zero.HasRunningSums [q] := by
  intro n
  cases n with
  | zero => exact ⟨zero, (add_zero _).symm⟩
  | succ n =>
    refine ⟨q, ?_⟩
    rw [List.take_of_length_le (by simp), List.map_singleton, List.sum_singleton, toRat_zero,
      zero_add]

/-- Every running sum has a decimal. -/
lemma AddsUp.exists_prefix {v : Decimal} {qs rs : List Decimal} (h : v.AddsUp (qs ++ rs)) :
    ∃ z : Decimal, z.toRat = v.toRat + (qs.map toRat).sum := by
  induction qs generalizing v with
  | nil => exact ⟨v, by rw [List.map_nil, List.sum_nil, add_zero]⟩
  | cons q qs ih =>
    obtain ⟨w, -, hw, hrest⟩ := h
    obtain ⟨z, hz⟩ := ih hrest
    exact ⟨z, by rw [hz, hw, List.map_cons, List.sum_cons, add_assoc]⟩

end Decimal

end Candlestick
