/-!
# Dates

The Gregorian calendar, extended to all years. `Date.toDays` and `Date.ofDays` go between a date
and the number of days since 1 January 1970.
-/

namespace Candlestick

/-- A year, a month and a day of the month. -/
structure Date where
  year : Int
  month : Nat
  day : Nat
deriving DecidableEq, Repr

namespace Date

/-- Whether a year has a 29 February. -/
def isLeapYear (year : Int) : Bool :=
  year % 4 == 0 && (year % 100 != 0 || year % 400 == 0)

/-- The length of a month. -/
def monthLength (leap : Bool) : (month : Nat) → Nat
  | 2 => if leap then 29 else 28
  | 4 | 6 | 9 | 11 => 30
  | _ => 31

/-- The days of a year before a month. -/
def daysBeforeMonth (leap : Bool) (month : Nat) : Nat :=
  (List.range' 1 (month - 1)).foldl (fun n m => n + monthLength leap m) 0

/-- The days from the start of year 0 to the start of a year. -/
def daysBeforeYear (year : Int) : Int :=
  365 * year + (year + 3) / 4 - (year + 99) / 100 + (year + 399) / 400

/-- The days from the start of year 0 to 1 January 1970. -/
def daysBefore1970 : Int := 719528

/-- The days in four hundred years. -/
def daysPerEra : Int := 146097

/-- Whether the calendar has the date. -/
def IsValid (d : Date) : Prop :=
  (1 ≤ d.month ∧ d.month ≤ 12) ∧ 1 ≤ d.day ∧ d.day ≤ monthLength (isLeapYear d.year) d.month

instance (d : Date) : Decidable d.IsValid :=
  inferInstanceAs (Decidable (_ ∧ _))

/-- The number of days since 1 January 1970. -/
def toDays (d : Date) : Int :=
  daysBeforeYear d.year + daysBeforeMonth (isLeapYear d.year) d.month + d.day - 1 - daysBefore1970

/-- The year of an era, counted from 0, that holds day `n` of the era. -/
def yearOfEra (n : Int) : Int :=
  if daysBeforeYear (n / 366 + 1) ≤ n then n / 366 + 1 else n / 366

/-- The month that holds day `n` of a year, counted from 0. -/
def monthOfYear (leap : Bool) (n : Nat) : Nat :=
  (List.range' 1 12).countP (daysBeforeMonth leap · ≤ n)

/-- The date `n` days after 1 January 1970. -/
def ofDays (n : Int) : Date :=
  let days := n + daysBefore1970
  let dayOfEra := days % daysPerEra
  let year := yearOfEra dayOfEra
  let leap := isLeapYear year
  let dayOfYear := (dayOfEra - daysBeforeYear year).toNat
  let month := monthOfYear leap dayOfYear
  { year := 400 * (days / daysPerEra) + year
    month
    day := dayOfYear - daysBeforeMonth leap month + 1 }

/-! ### Every day has one date -/

theorem daysBeforeYear_succ (year : Int) :
    daysBeforeYear (year + 1) = daysBeforeYear year + 365 + if isLeapYear year then 1 else 0 := by
  unfold daysBeforeYear
  by_cases h : isLeapYear year
  · rw [if_pos h]
    simp only [isLeapYear, Bool.and_eq_true, Bool.or_eq_true, beq_iff_eq, bne_iff_ne] at h
    omega
  · rw [if_neg h]
    simp only [isLeapYear, Bool.and_eq_true, Bool.or_eq_true, beq_iff_eq, bne_iff_ne] at h
    omega

theorem daysBeforeYear_add_eras (eras year : Int) :
    daysBeforeYear (400 * eras + year) = daysPerEra * eras + daysBeforeYear year := by
  unfold daysBeforeYear daysPerEra
  omega

theorem isLeapYear_add_eras (eras year : Int) :
    isLeapYear (400 * eras + year) = isLeapYear year := by
  have h₁ : (400 * eras + year) % 4 = year % 4 := by omega
  have h₂ : (400 * eras + year) % 100 = year % 100 := by omega
  have h₃ : (400 * eras + year) % 400 = year % 400 := by omega
  rw [isLeapYear, isLeapYear, h₁, h₂, h₃]

/-- A day of an era lies in the year that `yearOfEra` names. -/
theorem daysBeforeYear_yearOfEra {n : Int} (h₀ : 0 ≤ n) (h₁ : n < daysPerEra) :
    daysBeforeYear (yearOfEra n) ≤ n ∧ n < daysBeforeYear (yearOfEra n + 1) := by
  unfold daysPerEra at h₁
  unfold yearOfEra
  split
  · next h =>
    refine ⟨h, ?_⟩
    unfold daysBeforeYear
    omega
  · next h =>
    refine ⟨?_, by omega⟩
    unfold daysBeforeYear
    omega

/-- A day of a year lies in the month that `monthOfYear` names. -/
theorem daysBeforeMonth_monthOfYear : ∀ leap, ∀ n < 365 + leap.toNat,
    (1 ≤ monthOfYear leap n ∧ monthOfYear leap n ≤ 12) ∧
      daysBeforeMonth leap (monthOfYear leap n) ≤ n ∧
      n < daysBeforeMonth leap (monthOfYear leap n) + monthLength leap (monthOfYear leap n) := by
  decide +kernel

/-- The day of the year that day `n` of an era is. -/
theorem dayOfYear_lt {n : Int} (h₀ : 0 ≤ n) (h₁ : n < daysPerEra) :
    (n - daysBeforeYear (yearOfEra n)).toNat < 365 + (isLeapYear (yearOfEra n)).toNat := by
  obtain ⟨hle, hlt⟩ := daysBeforeYear_yearOfEra h₀ h₁
  rw [daysBeforeYear_succ] at hlt
  cases hl : isLeapYear (yearOfEra n)
  · rw [hl, if_neg (by decide)] at hlt
    simp only [Bool.toNat_false]
    omega
  · rw [hl, if_pos rfl] at hlt
    simp only [Bool.toNat_true]
    omega

theorem isValid_ofDays (n : Int) : (ofDays n).IsValid := by
  have h₀ : 0 ≤ (n + daysBefore1970) % daysPerEra := Int.emod_nonneg _ (by decide)
  have h₁ : (n + daysBefore1970) % daysPerEra < daysPerEra := Int.emod_lt_of_pos _ (by decide)
  obtain ⟨hm, hle, hlt⟩ := daysBeforeMonth_monthOfYear _ _ (dayOfYear_lt h₀ h₁)
  refine ⟨hm, Nat.le_add_left _ _, ?_⟩
  simp only [ofDays, isLeapYear_add_eras]
  omega

theorem toDays_ofDays (n : Int) : (ofDays n).toDays = n := by
  have h₀ : 0 ≤ (n + daysBefore1970) % daysPerEra := Int.emod_nonneg _ (by decide)
  have h₁ : (n + daysBefore1970) % daysPerEra < daysPerEra := Int.emod_lt_of_pos _ (by decide)
  have hd := Int.mul_ediv_add_emod (n + daysBefore1970) daysPerEra
  obtain ⟨_, hle, _⟩ := daysBeforeMonth_monthOfYear _ _ (dayOfYear_lt h₀ h₁)
  have hy := (daysBeforeYear_yearOfEra h₀ h₁).1
  simp only [toDays, ofDays, isLeapYear_add_eras, daysBeforeYear_add_eras]
  omega

end Date

end Candlestick
