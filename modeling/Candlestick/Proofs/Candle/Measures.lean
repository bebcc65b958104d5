import Candlestick.Proofs.Candle.Prices
import Candlestick.Proofs.Decimal.Quotient

/-!
# The measures of a bar

If the prices of a bar can all be written at one scale, with room for four times their mantissas,
none of its measures overflows. The range and the body are exact, and the means are rounded to
decimals that do not leave the bar (`Candle.exists_measures`).
-/

namespace Candlestick

namespace Decimal

/-- The decimal can be written at `scale`, and there is room for four times its mantissa. -/
def IsRoomy (x : Decimal) (scale : Nat) : Prop :=
  ∃ m : Int, x.StandsFor m scale ∧ 4 * m.natAbs ≤ 2 ^ 96 - 1

end Decimal

namespace Candle

variable {c : Candle} {ts : List Tick} {scale : Nat} {o h l m : Int}

/-- The prices of a bar as mantissas at one scale. -/
structure Written (c : Candle) (scale : Nat) (o h l m : Int) : Prop where
  opening : c.opening.StandsFor o scale
  high : c.high.StandsFor h scale
  low : c.low.StandsFor l scale
  closing : c.closing.StandsFor m scale
  low_le_opening : l ≤ o
  opening_le_high : o ≤ h
  low_le_closing : l ≤ m
  closing_le_high : m ≤ h
  high_roomy : 4 * h.natAbs ≤ 2 ^ 96 - 1
  low_roomy : 4 * l.natAbs ≤ 2 ^ 96 - 1

lemma exists_written {ps : List Decimal} (hordered : c.Ordered) (hdrawn : c.DrawnFrom ps)
    (hps : ∀ p ∈ ps, p.IsRoomy scale) : ∃ o h l m, c.Written scale o h l m := by
  obtain ⟨o, ho, -⟩ := hps _ hdrawn.opening_mem
  obtain ⟨h, hh, hhroomy⟩ := hps _ hdrawn.high_mem
  obtain ⟨l, hl, hlroomy⟩ := hps _ hdrawn.low_mem
  obtain ⟨m, hm, -⟩ := hps _ hdrawn.closing_mem
  exact ⟨o, h, l, m, ho, hh, hl, hm, (hl.le_iff ho).mp hordered.low_le_opening,
    (ho.le_iff hh).mp hordered.opening_le_high, (hl.le_iff hm).mp hordered.low_le_closing,
    (hm.le_iff hh).mp hordered.closing_le_high, hhroomy, hlroomy⟩

namespace Written

/-- There is room for all that the measures add up. -/
lemma room (hw : c.Written scale o h l m) :
    ((h - l).natAbs < 2 ^ 96 ∧ (m - o).natAbs < 2 ^ 96) ∧
      ((h + l).natAbs < 2 ^ 96 ∧ (h + l + m).natAbs < 2 ^ 96) ∧
      (2 * m).natAbs < 2 ^ 96 ∧ (h + l + 2 * m).natAbs < 2 ^ 96 := by
  obtain ⟨-, -, -, -, hlo, hoh, hlm, hmh, hhigh, hlow⟩ := hw
  omega

lemma range (hw : c.Written scale o h l m) (hscale : scale ≤ 28) :
    ∃ range, c.range = .ok range ∧ range.toRat = c.high.toRat - c.low.toRat := by
  obtain ⟨range, hrange, hfor⟩ := hw.high.sub hw.low hscale hw.room.1.1
  refine ⟨range, hrange, ?_⟩
  rw [hfor, hw.high, hw.low, Int.cast_sub, sub_div]

lemma body (hw : c.Written scale o h l m) (hscale : scale ≤ 28) :
    ∃ body, c.body = .ok body ∧ body.toRat = |c.closing.toRat - c.opening.toRat| := by
  obtain ⟨step, hstep, hfor⟩ := hw.closing.sub hw.opening hscale hw.room.1.2
  refine ⟨step.abs, ?_, ?_⟩
  · rw [Candle.body, hstep]
    rfl
  · rw [Decimal.toRat_abs, hfor, hw.closing, hw.opening, Int.cast_sub, sub_div]

/-- The mean of the highest, lowest and last price stays inside the bar. It is rounded only if their
sum is no multiple of three. -/
lemma typicalPrice (hw : c.Written scale o h l m) (hscale : scale ≤ 28) :
    ∃ typical, c.typicalPrice = .ok typical ∧ (c.low ≤ typical ∧ typical ≤ c.high) ∧
      (3 ∣ h + l + m → typical.toRat = (c.high.toRat + c.low.toRat + c.closing.toRat) / 3) := by
  obtain ⟨-, ⟨hroom, hroom'⟩, -⟩ := hw.room
  obtain ⟨extremes, hadd, hextremes⟩ := hw.high.add hw.low hscale hroom
  obtain ⟨total, hadd', htotal⟩ := hextremes.add hw.closing hscale hroom'
  have hsum : total.toRat = c.high.toRat + c.low.toRat + c.closing.toRat := by
    rw [htotal, hw.high, hw.low, hw.closing, Int.cast_add, Int.cast_add, add_div, add_div]
  refine ⟨total.divNat 3 (by decide), ?_, ⟨?_, ?_⟩, ?_⟩
  · rw [Candle.typicalPrice, hadd]
    change (extremes.add c.closing >>= _) = _
    rw [hadd']
    rfl
  · refine (Decimal.divNat_within htotal hw.low hscale (by decide) (by decide) hroom').1 ?_
    have hle := hw.low_le_closing
    have hle' := hw.closing_le_high
    omega
  · refine (Decimal.divNat_within htotal hw.high hscale (by decide) (by decide) hroom').2 ?_
    have hle := hw.low_le_closing
    have hle' := hw.closing_le_high
    omega
  · intro hdvd
    have hmagnitude := Decimal.dvd_magnitude htotal (by decide : Nat.Coprime 3 10) hdvd
    rw [Decimal.toRat_divNat_of_dvd _ hmagnitude, hsum]
    rfl

/-- The mean that counts the last price twice stays inside the bar. -/
lemma weightedClose (hw : c.Written scale o h l m) (hscale : scale ≤ 28) :
    ∃ weighted, c.weightedClose = .ok weighted ∧ c.low ≤ weighted ∧ weighted ≤ c.high := by
  obtain ⟨-, ⟨hroom, -⟩, hroom', hroom''⟩ := hw.room
  obtain ⟨extremes, hadd, hextremes⟩ := hw.high.add hw.low hscale hroom
  obtain ⟨twice, hdouble, htwice⟩ := hw.closing.double hscale hroom'
  obtain ⟨total, hadd', htotal⟩ := hextremes.add htwice hscale hroom''
  have hle := hw.low_le_closing
  have hle' := hw.closing_le_high
  refine ⟨total.divNat 4 (by decide), ?_, ?_, ?_⟩
  · rw [Candle.weightedClose, hadd, hdouble]
    change (extremes.add twice >>= _) = _
    rw [hadd']
    rfl
  · refine (Decimal.divNat_within htotal hw.low hscale (by decide) (by decide) hroom'').1 ?_
    omega
  · refine (Decimal.divNat_within htotal hw.high hscale (by decide) (by decide) hroom'').2 ?_
    omega

end Written

/-- What the measures of a bar come to, its prices being written at `scale`. -/
structure Measures (c : Candle) (scale : Nat) (range body typical weighted : Decimal) : Prop where
  range_eq : c.range = .ok range
  body_eq : c.body = .ok body
  typicalPrice_eq : c.typicalPrice = .ok typical
  weightedClose_eq : c.weightedClose = .ok weighted
  toRat_range : range.toRat = c.high.toRat - c.low.toRat
  toRat_body : body.toRat = |c.closing.toRat - c.opening.toRat|
  body_nonneg : .zero ≤ body
  body_le_range : body ≤ range
  low_le_typical : c.low ≤ typical
  typical_le_high : typical ≤ c.high
  low_le_weighted : c.low ≤ weighted
  weighted_le_high : weighted ≤ c.high
  /-- A mean of three is not rounded if there is nothing to round. -/
  toRat_typical : ∀ h l m : Int, c.high.StandsFor h scale → c.low.StandsFor l scale →
    c.closing.StandsFor m scale → 3 ∣ h + l + m →
    typical.toRat = (c.high.toRat + c.low.toRat + c.closing.toRat) / 3
  not_both : ¬(c.isBullish ∧ c.isBearish)
  neither_iff : ¬c.isBullish ∧ ¬c.isBearish ↔ body.toRat = 0

lemma Ordered.body_le_range (h : c.Ordered) :
    |c.closing.toRat - c.opening.toRat| ≤ c.high.toRat - c.low.toRat := by
  obtain ⟨hlow, hhigh, hlow', hhigh'⟩ := h
  rw [Decimal.le_iff_toRat] at hlow hhigh hlow' hhigh'
  rw [abs_le]
  constructor <;> linarith

lemma neither_iff (c : Candle) :
    ¬c.isBullish ∧ ¬c.isBearish ↔ |c.closing.toRat - c.opening.toRat| = 0 := by
  rw [isBullish, isBearish, decide_eq_true_eq, decide_eq_true_eq, Decimal.lt_iff_toRat,
    Decimal.lt_iff_toRat, not_lt, not_lt, abs_eq_zero, sub_eq_zero]
  exact le_antisymm_iff.symm

lemma exists_measures (hordered : c.Ordered) (hw : c.Written scale o h l m) (hscale : scale ≤ 28) :
    ∃ range body typical weighted, c.Measures scale range body typical weighted := by
  obtain ⟨range, hrange, hrangerat⟩ := hw.range hscale
  obtain ⟨body, hbody, hbodyrat⟩ := hw.body hscale
  obtain ⟨typical, htypical, ⟨hlow, hhigh⟩, hexact⟩ := hw.typicalPrice hscale
  obtain ⟨weighted, hweighted, hlow', hhigh'⟩ := hw.weightedClose hscale
  refine ⟨range, body, typical, weighted, hrange, hbody, htypical, hweighted, hrangerat, hbodyrat,
    ?_, ?_, hlow, hhigh, hlow', hhigh', ?_, ?_, ?_⟩
  · rw [Decimal.le_iff_toRat, Decimal.toRat_zero, hbodyrat]
    exact abs_nonneg _
  · rw [Decimal.le_iff_toRat, hbodyrat, hrangerat]
    exact hordered.body_le_range
  · intro h' l' m' hh' hl' hm' hdvd
    rw [hh'.unique hw.high, hl'.unique hw.low, hm'.unique hw.closing] at hdvd
    exact hexact hdvd
  · rintro ⟨hbull, hbear⟩
    exact lt_asymm (of_decide_eq_true hbull) (of_decide_eq_true hbear)
  · rw [hbodyrat]
    exact c.neither_iff

/--
The measures of a bar do not overflow if there is room for four times the mantissas of its prices at
one scale. The range and the body are exact, and the means do not leave the bar.
-/
theorem measures_of_ofTicks (hts : ts ≠ []) (hscale : scale ≤ 28)
    (hprices : ∀ t ∈ ts, t.price.IsRoomy scale) (hc : ofTicks ts = .ok c) :
    ∃ range body typical weighted, c.Measures scale range body typical weighted := by
  obtain ⟨hordered, hdrawn⟩ := bar_ofTicks hts hc
  have hroomy : ∀ p ∈ ts.map (·.price), p.IsRoomy scale := by
    intro p hp
    obtain ⟨t, ht, rfl⟩ := List.mem_map.mp hp
    exact hprices t ht
  obtain ⟨o, h, l, m, hw⟩ := exists_written hordered hdrawn hroomy
  exact exists_measures hordered hw hscale

/-- Prices on both sides of zero, at two scales. -/
def crossingPrices : List Decimal :=
  [(Decimal.ofMantissa? 10 1).get rfl, (Decimal.ofMantissa? (-2) 0).get rfl,
    (Decimal.ofMantissa? 50 2).get rfl]

/-- The prices without quantities. -/
def crossingTicks : List Tick :=
  crossingPrices.map (⟨·, none⟩)

lemma isRoomy_crossingTicks : ∀ t ∈ crossingTicks, t.price.IsRoomy 2 := by
  intro t ht
  obtain ⟨p, hp, rfl⟩ := List.mem_map.mp ht
  have hall : ∀ p ∈ crossingPrices, p.scale ≤ 2 ∧ 4 * (p.mantissaAt 2).natAbs ≤ 2 ^ 96 - 1 := by
    decide
  obtain ⟨hscale, hroomy⟩ := hall p hp
  exact ⟨_, Decimal.standsFor_mantissaAt hscale, hroomy⟩

/-- A bar across zero whose sums have to be rounded when they are divided. -/
theorem measures_of_ofTicks_crossing :
    crossingTicks ≠ [] ∧ 2 ≤ 28 ∧ (∀ t ∈ crossingTicks, t.price.IsRoomy 2) ∧
      ∃ c range body typical weighted, ofTicks crossingTicks = .ok c ∧
        c.Measures 2 range body typical weighted := by
  have hne : crossingTicks ≠ [] := List.cons_ne_nil _ _
  obtain ⟨range, body, typical, weighted, h⟩ :=
    measures_of_ofTicks hne (by decide) isRoomy_crossingTicks (ofTicks_of_prices crossingPrices)
  exact ⟨hne, by decide, isRoomy_crossingTicks, _, range, body, typical, weighted,
    ofTicks_of_prices crossingPrices, h⟩

end Candle

end Candlestick
