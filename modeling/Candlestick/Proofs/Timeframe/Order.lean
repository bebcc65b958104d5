import Candlestick.Proofs.Timestamp.Order
import Candlestick.Timeframe.Period
import Mathlib.Tactic.Linarith

/-!
# Periods are in the order of their moments

The start of a period is a multiple of its length, or the leap second right before one
(`Timeframe.parts_of_periodStart?`). A later moment never lies in an earlier period
(`Timeframe.periodStart?_mono`), although a leap second has a greater nanosecond count than the
moments after it.
-/

namespace Candlestick

namespace Timestamp

/-- The whole seconds of the nanosecond count. -/
def wholeSeconds (t : Timestamp) : Int :=
  t.stamp / 10 ^ 9

lemma wholeSeconds_mono {t u : Timestamp} (h : t ≤ u) : t.wholeSeconds ≤ u.wholeSeconds := by
  have ht := t.nanos_lt
  rw [le_iff] at h
  simp only [wholeSeconds, stamp]
  omega

lemma parts_of_back? {t a : Timestamp} {span : Nat} (h : t.back? span = some a) :
    if 10 ^ 9 ≤ t.nanos ∧ span < 10 ^ 9 then a.seconds = t.seconds ∧ a.nanos = t.nanos - span
    else a.seconds = (t.stamp - span) / 10 ^ 9 ∧ a.nanos = ((t.stamp - span) % 10 ^ 9).toNat := by
  simp only [back?, isLeap, decide_eq_true_eq] at h
  split_ifs at h ⊢ <;> exact ofParts?_eq_some_iff.mp h

end Timestamp

namespace Timeframe

variable {f : Timeframe} {t u a b : Timestamp} {seconds : Nat}

lemma seconds_pos (h : f.seconds? = some seconds) : 0 < seconds := by
  cases f <;> cases h <;> decide

/-- The last multiple of a length that is not above the whole seconds of a moment. -/
def multipleBelow (seconds : Nat) (t : Timestamp) : Int :=
  seconds * (t.wholeSeconds / seconds)

lemma multipleBelow_mono (hpos : 0 < seconds) (h : t ≤ u) :
    multipleBelow seconds t ≤ multipleBelow seconds u := by
  have hdiv := Int.ediv_le_ediv (Int.natCast_pos.mpr hpos) (Timestamp.wholeSeconds_mono h)
  exact Int.mul_le_mul_of_nonneg_left hdiv (Int.natCast_nonneg _)

lemma multipleBelow_bounds (hpos : 0 < seconds) (t : Timestamp) :
    multipleBelow seconds t ≤ t.wholeSeconds ∧
      t.wholeSeconds < multipleBelow seconds t + seconds := by
  have hdivision := Int.mul_ediv_add_emod t.wholeSeconds seconds
  have hnonneg := Int.emod_nonneg t.wholeSeconds (Int.natCast_ne_zero.mpr (Nat.ne_of_gt hpos))
  have hlt := Int.emod_lt_of_pos t.wholeSeconds (Int.natCast_pos.mpr hpos)
  rw [multipleBelow]
  omega

/-- How far a moment is past a multiple of a length: by whole seconds, and by a part of one. -/
lemma natCast_pastMultiple (hpos : 0 < seconds) (t : Timestamp) :
    (t.pastMultiple seconds : Int) =
      (t.wholeSeconds - multipleBelow seconds t) * 10 ^ 9 + t.stamp % 10 ^ 9 := by
  have hlength : (0 : Int) < seconds * 10 ^ 9 := Int.mul_pos (Int.natCast_pos.mpr hpos) (by decide)
  have hquotient : t.stamp / (seconds * 10 ^ 9) = t.wholeSeconds / seconds := by
    rw [Int.mul_comm, Timestamp.wholeSeconds, Int.ediv_ediv_of_nonneg (by decide)]
  have hstamp := Int.mul_ediv_add_emod t.stamp (10 ^ 9)
  rw [Timestamp.pastMultiple, Int.toNat_of_nonneg (Int.emod_nonneg _ hlength.ne'), Int.emod_def,
    hquotient, multipleBelow]
  rw [← Timestamp.wholeSeconds] at hstamp
  linarith

/-- A period starts at a multiple of its length, unless it is a leap second right before one. -/
lemma parts_of_periodStart? (hseconds : f.seconds? = some seconds)
    (h : f.periodStart? t = some a) :
    if 10 ^ 9 ≤ t.nanos ∧ t.seconds + 1 = multipleBelow seconds t then
      a.seconds = t.seconds ∧ a.nanos = 10 ^ 9
    else a.seconds = multipleBelow seconds t ∧ a.nanos = 0 := by
  have hpast := natCast_pastMultiple (seconds_pos hseconds) t
  have hbounds := multipleBelow_bounds (seconds_pos hseconds) t
  have hnanos := t.nanos_lt
  simp only [periodStart?, hseconds] at h
  simp only [Timestamp.wholeSeconds, Timestamp.stamp] at hpast hbounds
  split_ifs at h with halign hzero
  · cases h
    split_ifs <;> omega
  · have hparts := Timestamp.parts_of_back? h
    simp only [Timestamp.stamp] at hparts
    split_ifs at hparts ⊢ <;> omega

/-- A later moment does not lie in an earlier period. -/
lemma periodStart?_mono (h : t ≤ u) (ht : f.periodStart? t = some a)
    (hu : f.periodStart? u = some b) : a ≤ b := by
  cases hseconds : f.seconds? with
  | none =>
    simp only [periodStart?, hseconds, Option.some.injEq] at ht hu
    rwa [← ht, ← hu]
  | some seconds =>
    have hpos := seconds_pos hseconds
    have hmono := multipleBelow_mono hpos h
    have hbounds := multipleBelow_bounds hpos t
    have hbounds' := multipleBelow_bounds hpos u
    have hparts := parts_of_periodStart? hseconds ht
    have hparts' := parts_of_periodStart? hseconds hu
    have hnanos := t.nanos_lt
    have hnanos' := u.nanos_lt
    simp only [Timestamp.wholeSeconds, Timestamp.stamp] at hbounds hbounds'
    rw [Timestamp.le_iff] at h ⊢
    split_ifs at hparts hparts' <;> omega

end Timeframe

end Candlestick
