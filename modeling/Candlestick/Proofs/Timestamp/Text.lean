import Candlestick.Proofs.Digits
import Candlestick.Timestamp.Text
import Mathlib.Data.Int.Init

/-!
# Reading timestamps back

`Timestamp.ofText?` gives back the timestamp that `Timestamp.text` writes, whatever its year, its
fraction of a second and whether it lies in a leap second at the end of a minute. A leap second
within a minute has the text of the second after it, and is read back as that one
(`Timestamp.ofText?_text`).
-/

namespace Candlestick

namespace Scanner

variable {α β : Type} {scanner : Scanner α} {a : α} {cs ds rest : List Char}

/-- A scanner goes on where the one before it stopped. -/
lemma bind_eq (h : scanner cs = some (a, rest)) (f : α → Scanner β) :
    (scanner >>= f) cs = f a rest := by
  change (scanner cs).bind (fun r => f r.1 r.2) = f a rest
  rw [h, Option.bind_some]

lemma char_cons (c : Char) (rest : List Char) : char c (c :: rest) = some ((), rest) :=
  if_pos rfl

/-- There is nothing to skip before a character that is not blank. -/
lemma blanks_cons {c : Char} (h : ¬ isBlank c) (rest : List Char) :
    blanks (c :: rest) = some ((), c :: rest) := by
  rw [blanks, skipBlanks, List.dropWhile_cons_of_neg h]

lemma not_isBlank_of_isDigit {c : Char} (h : c.isDigit) : ¬ isBlank c := by
  simp only [Char.isDigit, Bool.and_eq_true, decide_eq_true_eq, ge_iff_le,
    UInt32.le_iff_toNat_le] at h
  change 48 ≤ c.toNat ∧ c.toNat ≤ 57 at h
  simp only [isBlank, Bool.or_eq_true, Bool.and_eq_true, decide_eq_true_eq, beq_iff_eq]
  omega

lemma blanks_append (hne : ds ≠ []) (hds : Digits.IsWord ds) (rest : List Char) :
    blanks (ds ++ rest) = some ((), ds ++ rest) := by
  obtain ⟨c, ds, rfl, hdigit⟩ := hds.exists_cons hne
  exact blanks_cons (not_isBlank_of_isDigit hdigit) _

/-- A number of a set length is read as far as it goes, whatever follows it. -/
lemma number_fixed {width : Nat} (hwidth : 0 < width) (n : Nat) (rest : List Char) :
    number width (Digits.fixed 10 width n ++ rest) = some (n % 10 ^ width, rest) := by
  have htake : (Digits.fixed 10 width n ++ rest).take width = Digits.fixed 10 width n := by
    rw [List.take_append_of_le_length (by simp), List.take_of_length_le (by simp)]
  have hall : (Digits.fixed 10 width n).takeWhile Char.isDigit = Digits.fixed 10 width n := by
    rw [← List.append_nil (Digits.fixed 10 width n),
      List.takeWhile_append_of_pos (Digits.isWord_fixed width n), List.takeWhile_nil]
  simp only [number, htake, hall, if_neg (Digits.fixed_ne_nil hwidth n), Digits.value_fixed,
    List.drop_left]

end Scanner

namespace Timestamp

open Scanner

variable {t : Timestamp} {rest : List Char}

lemma scanYear_minus {ds : List Char} (hne : ds ≠ []) (hds : Digits.IsWord ds)
    (hrest : Digits.Ends rest) :
    scanYear ('-' :: (ds ++ rest)) = some (-(Digits.value ds : Int), rest) := by
  have hword : word (ds ++ rest) = some (ds, rest) := Digits.word?_append hne hds hrest
  change (word (ds ++ rest)).bind (fun r => some (-(Digits.value r.1 : Int), r.2)) = _
  rw [hword, Option.bind_some]

lemma scanYear_plus {ds : List Char} (hne : ds ≠ []) (hds : Digits.IsWord ds)
    (hrest : Digits.Ends rest) :
    scanYear ('+' :: (ds ++ rest)) = some ((Digits.value ds : Int), rest) := by
  have hword : word (ds ++ rest) = some (ds, rest) := Digits.word?_append hne hds hrest
  change (word (ds ++ rest)).bind (fun r => some ((Digits.value r.1 : Int), r.2)) = _
  rw [hword, Option.bind_some]

lemma scanYear_of_isDigit {c : Char} (h : c.isDigit) (cs : List Char) :
    scanYear (c :: cs) = (number 4 (c :: cs)).map fun r => ((r.1 : Int), r.2) := by
  have hget : (get : Scanner (List Char)) (c :: cs) = some (c :: cs, c :: cs) := rfl
  rw [scanYear, bind_eq hget]
  refine (congrFun (g := (do return ↑(← number 4) : Scanner Int)) ?_ (c :: cs)).trans ?_
  · split
    · next heq =>
      cases heq
      exact absurd h (by decide)
    · next heq =>
      cases heq
      exact absurd h (by decide)
    · rfl
  · change (number 4 (c :: cs)).bind (fun r => some ((r.1 : Int), r.2)) = _
    cases number 4 (c :: cs) <;> rfl

/-- A year is read back if something other than a digit follows it. -/
lemma scanYear_yearChars (year : Int) (hrest : Digits.Ends rest) :
    scanYear (yearChars year ++ rest) = some (year, rest) := by
  rw [yearChars]
  split_ifs with hfour hnegative
  · obtain ⟨c, cs, hfixed, hdigit⟩ :=
      (Digits.isWord_fixed 4 year.toNat).exists_cons (Digits.fixed_ne_nil (by decide) _)
    rw [hfixed, List.cons_append, scanYear_of_isDigit hdigit, ← List.cons_append, ← hfixed,
      number_fixed (by decide)]
    simp only [Option.map_some, Option.some.injEq, Prod.mk.injEq, and_true]
    omega
  · have habs : -(year.natAbs : Int) = year := by omega
    rw [List.cons_append, scanYear_minus (Digits.leftpad_decimal_ne_nil _ _)
      ((Digits.isWord_decimal _).leftpad 4) hrest, Digits.value_leftpad, Digits.value_decimal, habs]
  · have habs : (year.natAbs : Int) = year := by omega
    rw [List.cons_append, scanYear_plus (Digits.leftpad_decimal_ne_nil _ _)
      ((Digits.isWord_decimal _).leftpad 4) hrest, Digits.value_leftpad, Digits.value_decimal, habs]

lemma blanks_yearChars (year : Int) (rest : List Char) :
    blanks (yearChars year ++ rest) = some ((), yearChars year ++ rest) := by
  rw [yearChars]
  split_ifs with hfour hnegative
  · exact blanks_append (Digits.fixed_ne_nil (by decide) _) (Digits.isWord_fixed 4 _) rest
  · exact blanks_cons (by decide) _
  · exact blanks_cons (by decide) _

lemma blanks_two (n : Nat) (rest : List Char) :
    blanks (Digits.fixed 10 2 n ++ rest) = some ((), Digits.fixed 10 2 n ++ rest) :=
  blanks_append (Digits.fixed_ne_nil (by decide) n) (Digits.isWord_fixed 2 n) rest

/-- A date of the calendar is read back. -/
lemma scanDate_dateChars {d : Date} (hyear : IsYear d.year) (hvalid : d.IsValid)
    (rest : List Char) : scanDate (dateChars d ++ rest) = some (d, rest) := by
  have hmonth : d.month % 10 ^ 2 = d.month := Nat.mod_eq_of_lt (by have := hvalid.1.2; omega)
  have hday : d.day % 10 ^ 2 = d.day := by
    have hlength : ∀ leap, ∀ month, Date.monthLength leap month ≤ 31 := by
      intro leap month
      unfold Date.monthLength
      split <;> try split
      all_goals decide
    have := hvalid.2.2.trans (hlength _ _)
    exact Nat.mod_eq_of_lt (by omega)
  have hends (cs : List Char) : Digits.Ends ('-' :: cs) := by
    intro c hc
    cases hc
    decide
  have hdash (cs : List Char) : blanks ('-' :: cs) = some ((), '-' :: cs) :=
    blanks_cons (by decide) cs
  rw [dateChars, List.append_assoc, List.cons_append, List.append_assoc, List.cons_append, scanDate,
    bind_eq (blanks_yearChars _ _), bind_eq (scanYear_yearChars _ (hends _)),
    bind_eq (hdash _), bind_eq (char_cons _ _), bind_eq (blanks_two _ _),
    bind_eq (number_fixed (by decide) _ _), bind_eq (hdash _), bind_eq (char_cons _ _),
    bind_eq (blanks_two _ _), bind_eq (number_fixed (by decide) _ _), hmonth, hday]
  exact congrFun (if_pos ⟨hyear, hvalid⟩) rest

/-! ### Leap seconds -/

/-- The moment lies in a leap second that is not the last second of its minute. -/
def IsInnerLeap (t : Timestamp) : Prop :=
  t.isLeap ∧ t.seconds % 60 ≠ 59

instance (t : Timestamp) : Decidable t.IsInnerLeap :=
  inferInstanceAs (Decidable (_ ∧ _))

/-- The moment that the text of a timestamp stands for: a leap second within a minute is written
like the second after it. -/
def asWritten (t : Timestamp) : Timestamp :=
  if h : t.IsInnerLeap then
    { seconds := t.seconds + 1
      nanos := t.nanos - 10 ^ 9
      seconds_ge := Int.le_add_one t.seconds_ge
      seconds_le := by
        have hle := t.seconds_le
        have hinner := h.2
        omega
      nanos_lt := (Nat.sub_le _ _).trans_lt t.nanos_lt }
  else t

lemma asWritten_of_not_isInnerLeap (h : ¬ t.IsInnerLeap) : t.asWritten = t :=
  dif_neg h

lemma seconds_asWritten (h : t.IsInnerLeap) : t.asWritten.seconds = t.seconds + 1 := by
  rw [asWritten, dif_pos h]

lemma nanos_asWritten (h : t.IsInnerLeap) : t.asWritten.nanos = t.nanos - 10 ^ 9 := by
  rw [asWritten, dif_pos h]

lemma isLeap_asWritten (h : t.IsInnerLeap) : t.asWritten.isLeap = false := by
  have hlt := t.nanos_lt
  rw [isLeap, nanos_asWritten h, decide_eq_false_iff_not]
  omega

lemma not_isInnerLeap_asWritten (t : Timestamp) : ¬ t.asWritten.IsInnerLeap := by
  by_cases h : t.IsInnerLeap
  · intro hleap
    exact absurd hleap.1 (by rw [isLeap_asWritten h]; exact Bool.false_ne_true)
  · rwa [asWritten_of_not_isInnerLeap h]

/-- The text does not tell a leap second within a minute from the second after it. -/
lemma chars_asWritten (t : Timestamp) : t.asWritten.chars = t.chars := by
  by_cases h : t.IsInnerLeap
  · have hinner := h.2
    have hdate : t.asWritten.date = t.date := by
      rw [date, date, seconds_asWritten h]
      congr 1
      omega
    have hday : t.asWritten.secondOfDay = t.secondOfDay + 1 := by
      rw [secondOfDay, secondOfDay, seconds_asWritten h]
      omega
    have hhour : (t.secondOfDay + 1) / 3600 = t.secondOfDay / 3600 := by
      rw [secondOfDay]
      omega
    have hminute : (t.secondOfDay + 1) / 60 = t.secondOfDay / 60 := by
      rw [secondOfDay]
      omega
    have hsecond : (t.secondOfDay + 1) % 60 + 0 = t.secondOfDay % 60 + 1 := by
      rw [secondOfDay]
      omega
    simp only [chars, timeChars, hdate, hday, hhour, hminute, isLeap_asWritten h, h.1,
      nanos_asWritten h, if_true, if_false, Bool.false_eq_true, hsecond]
  · rw [asWritten_of_not_isInnerLeap h]

/-! ### Times of day -/

lemma scanFraction_point {ds : List Char} (hne : ds ≠ []) (hds : Digits.IsWord ds)
    (hlength : ds.length ≤ 9) (hrest : Digits.Ends rest) :
    scanFraction ('.' :: (ds ++ rest)) = some (Digits.value ds * 10 ^ (9 - ds.length), rest) := by
  have hword : word (ds ++ rest) = some (ds, rest) := Digits.word?_append hne hds hrest
  change (word (ds ++ rest)).bind (fun r =>
    some (Digits.value (r.1.take 9) * 10 ^ (9 - (r.1.take 9).length), r.2)) = _
  rw [hword, Option.bind_some, List.take_of_length_le hlength]

/-- A fraction of a second is read back from the digits it needs. -/
lemma scanFraction_fractionChars {nanos : Nat} (h : nanos < 10 ^ 9) (cs : List Char) :
    scanFraction (fractionChars nanos ++ 'Z' :: cs) = some (nanos, 'Z' :: cs) := by
  have hends : Digits.Ends ('Z' :: cs) := by
    intro c hc
    cases hc
    decide
  have hfixed {width : Nat} (hwidth : 0 < width ∧ width ≤ 9) (n : Nat) :
      scanFraction ('.' :: Digits.fixed 10 width n ++ 'Z' :: cs) =
        some (n % 10 ^ width * 10 ^ (9 - width), 'Z' :: cs) := by
    have hread := scanFraction_point (Digits.fixed_ne_nil hwidth.1 n) (Digits.isWord_fixed width n)
      (by simpa using hwidth.2) hends
    rwa [Digits.length_fixed, Digits.value_fixed] at hread
  rw [fractionChars]
  split_ifs with hzero hmillis hmicros
  · rw [hzero]
    rfl
  · rw [hfixed (by decide)]
    congr
    omega
  · rw [hfixed (by decide)]
    congr
    omega
  · rw [hfixed (by decide)]
    congr
    omega

/-- The time of day of a timestamp. -/
def clock (t : Timestamp) : Clock where
  hour := t.secondOfDay / 3600
  minute := t.secondOfDay / 60 % 60
  second := t.secondOfDay % 60
  nanos := t.nanos

lemma scanClock_timeChars (h : ¬ t.IsInnerLeap) (cs : List Char) :
    scanClock (t.timeChars ++ 'Z' :: cs) = some (t.clock, 'Z' :: cs) := by
  have hday : t.secondOfDay < 86400 := by
    rw [secondOfDay]
    omega
  have hcolon (cs : List Char) : blanks (':' :: cs) = some ((), ':' :: cs) :=
    blanks_cons (by decide) cs
  have hnanos : (if t.isLeap then t.nanos - 10 ^ 9 else t.nanos) < 10 ^ 9 := by
    have := t.nanos_lt
    split_ifs with hleap
    · omega
    · simpa [isLeap] using hleap
  simp only [timeChars, List.append_assoc, List.cons_append]
  rw [scanClock, bind_eq (blanks_two _ _), bind_eq (number_fixed (by decide) _ _),
    bind_eq (hcolon _), bind_eq (char_cons _ _), bind_eq (blanks_two _ _),
    bind_eq (number_fixed (by decide) _ _), bind_eq (hcolon _), bind_eq (char_cons _ _),
    bind_eq (blanks_two _ _), bind_eq (number_fixed (by decide) _ _),
    bind_eq (scanFraction_fractionChars hnanos cs)]
  have hhour : t.secondOfDay / 3600 % 10 ^ 2 = t.secondOfDay / 3600 := by omega
  have hminute : t.secondOfDay / 60 % 60 % 10 ^ 2 = t.secondOfDay / 60 % 60 := by omega
  rw [hhour, hminute]
  cases hleap : t.isLeap with
  | false =>
    have hsecond : (t.secondOfDay % 60 + 0) % 10 ^ 2 = t.secondOfDay % 60 := by omega
    simp only [Bool.false_eq_true, if_false, hsecond]
    rw [if_neg (by omega), if_neg (by omega)]
    rfl
  | true =>
    -- A leap second at the end of its minute is written as second 60 and read as second 59, with
    -- the nanoseconds that go beyond it.
    have hle : 10 ^ 9 ≤ t.nanos := by simpa [isLeap] using hleap
    have hlast : t.secondOfDay % 60 = 59 := by
      have hend : t.seconds % 60 = 59 := not_not.mp fun hinner => h ⟨hleap, hinner⟩
      rw [secondOfDay]
      omega
    have hsecond : (t.secondOfDay % 60 + 1) % 10 ^ 2 = 60 := by omega
    simp only [if_true, hsecond]
    rw [if_neg (by omega)]
    have hclock : (⟨t.secondOfDay / 3600, t.secondOfDay / 60 % 60, 59, t.nanos - 10 ^ 9 + 10 ^ 9⟩ :
        Clock) = t.clock := by
      rw [clock, hlast, Nat.sub_add_cancel hle]
    rw [hclock]
    rfl

/-! ### Timestamps -/

lemma scanZone_utc : scanZone ['Z'] = some (0, []) := by
  rw [scanZone, bind_eq (blanks_cons (by decide) _)]
  rfl

/-- A date lies between the start of its year and the start of the next one. -/
lemma toDays_bounds {d : Date} (h : d.IsValid) :
    Date.daysBeforeYear d.year ≤ d.toDays + Date.daysBefore1970 ∧
      d.toDays + Date.daysBefore1970 < Date.daysBeforeYear (d.year + 1) := by
  have hlength : ∀ leap, ∀ month < 13,
      Date.daysBeforeMonth leap month + Date.monthLength leap month ≤ 365 + leap.toNat := by
    decide
  have hmonth := hlength (Date.isLeapYear d.year) d.month (Nat.lt_succ_of_le h.1.2)
  have hfirst := h.2.1
  have hlast := h.2.2
  rw [Date.daysBeforeYear_succ, Date.toDays]
  cases hleap : Date.isLeapYear d.year <;> simp [hleap] at hmonth hlast ⊢ <;> omega

lemma daysBeforeYear_mono {year year' : Int} (h : year ≤ year') :
    Date.daysBeforeYear year ≤ Date.daysBeforeYear year' := by
  induction year', h using Int.leInduction with
  | base => exact Int.le_refl _
  | succ year' _ ih =>
    rw [Date.daysBeforeYear_succ]
    split_ifs <;> omega

/-- The year of a timestamp is in range. -/
lemma isYear_date (t : Timestamp) : IsYear t.date.year := by
  obtain ⟨hfrom, hto⟩ := toDays_bounds (Date.isValid_ofDays (t.seconds / 86400))
  rw [Date.toDays_ofDays, Date.daysBefore1970] at hfrom hto
  have hge := t.seconds_ge
  have hle := t.seconds_le
  constructor
  · by_contra hlt
    have hnext : Date.daysBeforeYear (t.date.year + 1) ≤ Date.daysBeforeYear (-262143) :=
      daysBeforeYear_mono (by omega)
    have hstart : Date.daysBeforeYear (-262143) = -95745764 := by decide
    change _ < Date.daysBeforeYear (t.date.year + 1) at hto
    omega
  · by_contra hgt
    have hnext : Date.daysBeforeYear 262143 ≤ Date.daysBeforeYear t.date.year :=
      daysBeforeYear_mono (by omega)
    have hend : Date.daysBeforeYear 262143 = 95745765 := by decide
    change Date.daysBeforeYear t.date.year ≤ _ at hfrom
    omega

lemma scan_chars (h : ¬ t.IsInnerLeap) : scan t.chars = some ((t.date, t.clock, 0), []) := by
  have hend (cs : List Char) : oneOf isDateEnd ('T' :: cs) = some ('T', cs) := rfl
  rw [chars, List.append_assoc, List.cons_append, scan,
    bind_eq (scanDate_dateChars t.isYear_date (Date.isValid_ofDays _) _), bind_eq (hend _),
    bind_eq (scanClock_timeChars h []), bind_eq scanZone_utc]
  rfl

/-- The date and the time of day of a timestamp make it up. -/
lemma ofLocal?_date_clock (t : Timestamp) : ofLocal? t.date t.clock 0 = some t := by
  have hday : t.date.toDays = t.seconds / 86400 := Date.toDays_ofDays _
  have hseconds : t.date.toDays * 86400 +
      (t.clock.hour * 3600 + t.clock.minute * 60 + t.clock.second : Nat) - 0 = t.seconds := by
    simp only [hday, clock, secondOfDay]
    omega
  rw [ofLocal?]
  exact ofParts?_eq_some_iff.mpr ⟨hseconds.symm, rfl⟩

/-- A timestamp is read back from its text as what is written there. -/
theorem ofText?_text (t : Timestamp) : ofText? t.text = some t.asWritten := by
  rw [ofText?, text, String.toList_ofList, ofChars?, run?, ← chars_asWritten,
    scan_chars t.not_isInnerLeap_asWritten]
  exact t.asWritten.ofLocal?_date_clock

end Timestamp

end Candlestick
