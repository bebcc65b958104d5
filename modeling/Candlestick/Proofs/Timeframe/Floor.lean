import Candlestick.Proofs.Rollup.Admission
import Candlestick.Proofs.Timeframe.Order
import Mathlib.Order.Bounds.Basic

/-!
# Periods start at the last multiple, and are nested

A moment has a period if its nanosecond count has room, and outside leap seconds this starts at the
last multiple of its length that is not after the moment (`Timeframe.periodStart?_exact`). Periods
are in the order of their moments and start before them, and the starts of finer periods lie in the
coarser periods of their moments, in leap seconds too (`Timeframe.periodStart?_ordered_nested`).
-/

namespace Candlestick

namespace Timestamp

variable {t a : Timestamp} {span : Nat}

lemma exists_ofParts? {seconds : Int} {nanos : Nat} (h : InBounds seconds nanos) :
    ∃ a, ofParts? seconds nanos = some a :=
  ⟨_, dif_pos h⟩

/-- Going back a few days from a moment with a period does not leave the calendar. -/
lemma exists_back? (h : t.IsAlignable) (hspan : span ≤ 86400 * 10 ^ 9) :
    ∃ a, t.back? span = some a := by
  obtain ⟨hlow, hhigh⟩ := h
  rw [back?]
  split_ifs
  · exact exists_ofParts? ⟨⟨t.seconds_ge, t.seconds_le⟩, (Nat.sub_le _ _).trans_lt t.nanos_lt⟩
  · refine exists_ofParts? ⟨?_, ?_⟩ <;> omega

/-- The last moment at a multiple of a length that is not after `t`. -/
structure IsFloor (a t : Timestamp) (length : Nat) : Prop where
  nanos_eq : a.nanos = 0
  isGreatest : IsGreatest {m : Int | (length : Int) ∣ m ∧ m ≤ t.seconds} a.seconds
  le : a ≤ t
  lt_add : t.stamp < a.stamp + length * 10 ^ 9

lemma IsFloor.unique {b : Timestamp} {length : Nat} (ha : a.IsFloor t length)
    (hb : b.IsFloor t length) : a = b :=
  ext_parts (ha.isGreatest.unique hb.isGreatest) (ha.nanos_eq.trans hb.nanos_eq.symm)

end Timestamp

namespace Timeframe

variable {f c : Timeframe} {t u a b : Timestamp} {length fine coarse : Nat}

/-! ### Which moments have a period -/

lemma length_le_day (h : f.seconds? = some length) : length ≤ 86400 := by
  cases f <;> cases h <;> decide

lemma pastMultiple_le_day (h : f.seconds? = some length) (t : Timestamp) :
    t.pastMultiple length ≤ 86400 * 10 ^ 9 := by
  have hpast := natCast_pastMultiple (seconds_pos h) t
  have hbounds := multipleBelow_bounds (seconds_pos h) t
  have hday := length_le_day h
  omega

lemma exists_periodStart? (f : Timeframe) (h : t.IsAlignable) : ∃ a, f.periodStart? t = some a := by
  rw [periodStart?]
  cases hlength : f.seconds? with
  | none => exact ⟨t, rfl⟩
  | some length =>
    dsimp only
    rw [if_pos h]
    split_ifs
    · exact ⟨t, rfl⟩
    · exact Timestamp.exists_back? h (pastMultiple_le_day hlength t)

lemma periodStart?_eq_none (hlength : f.seconds? = some length) (h : ¬t.IsAlignable) :
    f.periodStart? t = none := by
  rw [periodStart?, hlength]
  exact if_neg h

lemma isAlignable_of_periodStart? (hlength : f.seconds? = some length)
    (h : f.periodStart? t = some a) : t.IsAlignable := by
  by_contra hnot
  rw [periodStart?_eq_none hlength hnot] at h
  cases h

/-! ### The last multiple -/

lemma isGreatest_multipleBelow (hpos : 0 < length) (t : Timestamp) :
    IsGreatest {m : Int | (length : Int) ∣ m ∧ m ≤ t.wholeSeconds} (multipleBelow length t) := by
  refine ⟨⟨Int.dvd_mul_right _ _, (multipleBelow_bounds hpos t).1⟩, ?_⟩
  rintro _ ⟨⟨k, rfl⟩, hle⟩
  rw [Int.mul_comm] at hle
  have hk : k ≤ t.wholeSeconds / length :=
    Int.le_ediv_of_mul_le (Int.natCast_pos.mpr hpos) hle
  exact Int.mul_le_mul_of_nonneg_left hk (Int.natCast_nonneg _)

/-- Outside leap seconds a period starts at the last multiple. -/
lemma isFloor_of_periodStart? (hlength : f.seconds? = some length) (hleap : t.isLeap = false)
    (h : f.periodStart? t = some a) : a.IsFloor t length := by
  have hnanos : t.nanos < 10 ^ 9 := by
    rw [Timestamp.isLeap, decide_eq_false_iff_not] at hleap
    omega
  have hwhole : t.wholeSeconds = t.seconds := by
    simp only [Timestamp.wholeSeconds, Timestamp.stamp]
    omega
  have hparts := parts_of_periodStart? hlength h
  rw [if_neg (by omega)] at hparts
  obtain ⟨hseconds, hzero⟩ := hparts
  have hgreatest := isGreatest_multipleBelow (seconds_pos hlength) t
  have hbounds := multipleBelow_bounds (seconds_pos hlength) t
  rw [← hseconds, hwhole] at hgreatest hbounds
  refine ⟨hzero, hgreatest, ?_, ?_⟩
  · rw [Timestamp.le_iff]
    omega
  · simp only [Timestamp.stamp]
    omega

/--
Every moment is its own period of a tick. Of any other timeframe a moment has a period if its count
of nanoseconds has room; if not, a rollup refuses it. Outside leap seconds the period starts at the
last multiple of its length.
-/
theorem periodStart?_exact (hlength : f.seconds? = some length) (hleap : t.isLeap = false) :
    ((∃ a, f.periodStart? t = some a) ↔ t.IsAlignable) ∧
      (t.IsAlignable → ∀ a, f.periodStart? t = some a ↔ a.IsFloor t length) ∧
      (¬t.IsAlignable → ∀ s : Rollup, s.timeframe = f →
        Rollup.rollTo t s = .error (.unalignable t) s) ∧
      ∀ u, tick.periodStart? u = some u := by
  refine ⟨⟨?_, f.exists_periodStart?⟩, ?_, ?_, periodStart?_tick⟩
  · rintro ⟨a, ha⟩
    exact isAlignable_of_periodStart? hlength ha
  · intro h a
    refine ⟨isFloor_of_periodStart? hlength hleap, ?_⟩
    intro ha
    obtain ⟨b, hb⟩ := f.exists_periodStart? h
    rw [hb, (isFloor_of_periodStart? hlength hleap hb).unique ha]
  · rintro h s rfl
    exact Rollup.rollTo_of_none (periodStart?_eq_none hlength h)

/-- A moment in the last second of 1969. -/
def lastOf1969 : Timestamp := (Timestamp.ofParts? (-1) 250000000).get rfl

/-- A moment whose count of nanoseconds has no room. -/
def outOfRange : Timestamp := (Timestamp.ofParts? (-9223372037) 145224191).get rfl

/-- The four hours before 1970 start a multiple below zero; a nanosecond before the moments that
have periods there is none. -/
theorem periodStart?_exact_below_zero :
    hour4.seconds? = some 14400 ∧ lastOf1969.isLeap = false ∧ outOfRange.isLeap = false ∧
      (∃ a, hour4.periodStart? lastOf1969 = some a ∧ a.IsFloor lastOf1969 14400 ∧
        a.seconds = -14400) ∧
      ¬∃ a, hour4.periodStart? outOfRange = some a := by
  have hlength : hour4.seconds? = some 14400 := rfl
  have hleap : lastOf1969.isLeap = false := by decide
  have hleap' : outOfRange.isLeap = false := by decide
  obtain ⟨-, hfloor, -⟩ := periodStart?_exact hlength hleap
  obtain ⟨hsome, -⟩ := periodStart?_exact hlength hleap'
  have hstart : ∃ a, hour4.periodStart? lastOf1969 = some a ∧ a.seconds = -14400 := ⟨_, rfl, rfl⟩
  obtain ⟨a, ha, hseconds⟩ := hstart
  refine ⟨hlength, hleap, hleap', ⟨a, ha, (hfloor (by decide) a).mp ha, hseconds⟩, ?_⟩
  exact mt hsome.mp (by decide)

/-! ### Finer and coarser periods -/

lemma le_of_periodStart? (h : f.periodStart? t = some a) : a ≤ t := by
  cases hlength : f.seconds? with
  | none =>
    simp only [periodStart?, hlength, Option.some.injEq] at h
    exact h.ge
  | some length =>
    have hparts := parts_of_periodStart? hlength h
    have hbounds := multipleBelow_bounds (seconds_pos hlength) t
    have hnanos := t.nanos_lt
    simp only [Timestamp.wholeSeconds, Timestamp.stamp] at hbounds
    rw [Timestamp.le_iff]
    split_ifs at hparts <;> omega

/-- The period of one timeframe is as fine as that of another, or finer. -/
def IsFine (f c : Timeframe) : Prop :=
  all.idxOf f ≤ all.idxOf c

instance (f c : Timeframe) : Decidable (f.IsFine c) :=
  inferInstanceAs (Decidable (_ ≤ _))

/-- Nothing is as fine as a tick. -/
lemma seconds?_eq_none_of_isFine (h : f.IsFine c) (hc : c.seconds? = none) : f.seconds? = none := by
  have hall : ∀ f ∈ all, ∀ c ∈ all, f.IsFine c → c.seconds? = none → f.seconds? = none := by
    decide
  exact hall f (mem_all f) c (mem_all c) h hc

/-- The finer period divides the coarser one. -/
lemma dvd_of_isFine (h : f.IsFine c) (hf : f.seconds? = some fine) (hc : c.seconds? = some coarse) :
    fine ∣ coarse := by
  have hall : ∀ f ∈ all, ∀ c ∈ all, f.IsFine c →
      ∀ n ∈ f.seconds?, ∀ m ∈ c.seconds?, n ∣ m := by
    decide
  exact hall f (mem_all f) c (mem_all c) h fine hf coarse hc

lemma multipleBelow_le_multipleBelow (hdvd : fine ∣ coarse) (hfine : 0 < fine)
    (hcoarse : 0 < coarse) (t : Timestamp) : multipleBelow coarse t ≤ multipleBelow fine t := by
  refine (isGreatest_multipleBelow hfine t).2 ⟨?_, (multipleBelow_bounds hcoarse t).1⟩
  exact (Int.natCast_dvd_natCast.mpr hdvd).trans (Int.dvd_mul_right _ _)

/-- The start of a period counts as many whole seconds as its last multiple. -/
lemma wholeSeconds_of_periodStart? (hlength : f.seconds? = some length)
    (h : f.periodStart? t = some a) : a.wholeSeconds = multipleBelow length t := by
  have hparts := parts_of_periodStart? hlength h
  simp only [Timestamp.wholeSeconds, Timestamp.stamp]
  split_ifs at hparts <;> omega

/-- The start of a finer period has the same last coarser multiple as the moment itself. -/
lemma multipleBelow_of_periodStart? (hdvd : fine ∣ coarse) (hcoarse : 0 < coarse)
    (hf : f.seconds? = some fine) (h : f.periodStart? t = some a) :
    multipleBelow coarse a = multipleBelow coarse t := by
  have hfine := seconds_pos hf
  have hgreatest := isGreatest_multipleBelow hcoarse a
  rw [wholeSeconds_of_periodStart? hf h] at hgreatest
  refine hgreatest.unique ⟨⟨Int.dvd_mul_right _ _, ?_⟩, ?_⟩
  · exact multipleBelow_le_multipleBelow hdvd hfine hcoarse t
  · rintro m ⟨hm, hle⟩
    exact (isGreatest_multipleBelow hcoarse t).2 ⟨hm, hle.trans (multipleBelow_bounds hfine t).1⟩

lemma periodStart?_periodStart? (h : f.IsFine c) (hf : f.seconds? = some fine)
    (hc : c.seconds? = some coarse) (ha : f.periodStart? t = some a)
    (hb : c.periodStart? t = some b) (halign : a.IsAlignable) : c.periodStart? a = some b := by
  obtain ⟨b', hb'⟩ := c.exists_periodStart? halign
  have hdvd := dvd_of_isFine h hf hc
  have hsame := multipleBelow_of_periodStart? hdvd (seconds_pos hc) hf ha
  have hle := multipleBelow_le_multipleBelow hdvd (seconds_pos hf) (seconds_pos hc) t
  have hbounds := multipleBelow_bounds (seconds_pos hf) t
  have hparts := parts_of_periodStart? hf ha
  have hparts' := parts_of_periodStart? hc hb
  have hparts'' := parts_of_periodStart? hc hb'
  have hnanos := t.nanos_lt
  rw [hsame] at hparts''
  simp only [Timestamp.wholeSeconds, Timestamp.stamp] at hbounds
  rw [hb', Option.some_inj]
  -- A leap second right before a coarser multiple is right before a finer one, too.
  apply Timestamp.ext_parts <;> split_ifs at hparts hparts' hparts'' <;> omega

/-- The start of a period is not above the range of moments with a period. -/
lemma stamp_le_of_periodStart? (hf : f.seconds? = some length) (h : f.periodStart? t = some a) :
    a.stamp ≤ t.stamp := by
  have hbounds := multipleBelow_bounds (seconds_pos hf) t
  have hparts := parts_of_periodStart? hf h
  have hnanos := t.nanos_lt
  simp only [Timestamp.wholeSeconds, Timestamp.stamp] at hbounds ⊢
  split_ifs at hparts <;> omega

lemma IsFine.nested (h : f.IsFine c) (ha : f.periodStart? t = some a)
    (hb : c.periodStart? t = some b) :
    c.periodStart? a = some b ∨ c.periodStart? a = none ∧ a.stamp < -2 ^ 63 := by
  cases hf : f.seconds? with
  | none =>
    simp only [periodStart?, hf, Option.some.injEq] at ha
    exact .inl (ha ▸ hb)
  | some fine =>
    cases hc : c.seconds? with
    | none =>
      rw [seconds?_eq_none_of_isFine h hc] at hf
      cases hf
    | some coarse =>
      by_cases halign : a.IsAlignable
      · exact .inl (periodStart?_periodStart? h hf hc ha hb halign)
      · refine .inr ⟨periodStart?_eq_none hc halign, ?_⟩
        have hmoment := isAlignable_of_periodStart? hf ha
        have hle := stamp_le_of_periodStart? hf ha
        rw [Timestamp.IsAlignable] at halign hmoment
        omega

/--
A period does not start after its moment, and the period of a later moment does not start earlier.
The start of a finer period has the coarser period of its moment, unless its count of nanoseconds
has no room any more.
-/
theorem periodStart?_ordered_nested :
    (∀ (f : Timeframe) (t u a b : Timestamp), t ≤ u → f.periodStart? t = some a →
        f.periodStart? u = some b → a ≤ t ∧ a ≤ b) ∧
      ∀ (f c : Timeframe) (t a b : Timestamp), f.IsFine c → f.periodStart? t = some a →
        c.periodStart? t = some b →
          c.periodStart? a = some b ∨ c.periodStart? a = none ∧ a.stamp < -2 ^ 63 := by
  constructor
  · intro f t u a b hle ha hb
    exact ⟨le_of_periodStart? ha, periodStart?_mono hle ha hb⟩
  · intro f c t a b h ha hb
    exact h.nested ha hb

/-- A moment in the leap second at the end of the second minute of 1970. -/
def leapMoment : Timestamp := (Timestamp.ofParts? 119 1500000000).get rfl

/-- The first moment that has a period. -/
def firstMoment : Timestamp := (Timestamp.ofParts? (-9223372037) 145224192).get rfl

/-- The leap second starts a minute of its own, which lies in the hour of its moment. The second of
the first moment starts before it, so that it has no minute. -/
theorem periodStart?_ordered_nested_leap :
    minute1.IsFine hour1 ∧ second1.IsFine minute1 ∧
      (∃ a b, minute1.periodStart? leapMoment = some a ∧ a.isLeap ∧ a ≤ leapMoment ∧
        hour1.periodStart? leapMoment = some b ∧ hour1.periodStart? a = some b) ∧
      ∃ a, second1.periodStart? firstMoment = some a ∧ minute1.periodStart? a = none ∧
        a.stamp < -2 ^ 63 := by
  obtain ⟨hordered, hnested⟩ := periodStart?_ordered_nested
  have hfine : minute1.IsFine hour1 := by decide
  have hfine' : second1.IsFine minute1 := by decide
  refine ⟨hfine, hfine', ?_, ?_⟩
  · obtain ⟨a, b, ha, hb, hleap⟩ : ∃ a b, minute1.periodStart? leapMoment = some a ∧
        hour1.periodStart? leapMoment = some b ∧ a.isLeap ∧ -2 ^ 63 ≤ a.stamp :=
      ⟨_, _, rfl, rfl, by decide⟩
    obtain ⟨hle, -⟩ := hordered minute1 leapMoment leapMoment a a le_rfl ha ha
    refine ⟨a, b, ha, hleap.1, hle, hb, ?_⟩
    exact (hnested minute1 hour1 leapMoment a b hfine ha hb).resolve_right fun h =>
      absurd h.2 (Int.not_lt.mpr hleap.2)
  · obtain ⟨a, b, ha, hb, hnone⟩ : ∃ a b, second1.periodStart? firstMoment = some a ∧
        minute1.periodStart? firstMoment = some b ∧ minute1.periodStart? a = none :=
      ⟨_, _, rfl, rfl, by decide⟩
    refine ⟨a, ha, (hnested second1 minute1 firstMoment a b hfine' ha hb).resolve_left ?_⟩
    rw [hnone]
    intro h
    cases h

end Timeframe

end Candlestick
