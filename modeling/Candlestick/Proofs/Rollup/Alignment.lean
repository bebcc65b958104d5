import Candlestick.Proofs.Rollup.Protocol

/-!
# Periods start at multiples of their length, but for leap seconds

The period of a moment starts at a multiple of its length since the start of 1970, with one
exception: a leap second right before such a multiple is a period of its own
(`Timeframe.starts_of_periodStart?`). So are the periods that a rollup opens and emits
(`Rollup.periods_start_or_leap`).
-/

namespace Candlestick

namespace Timestamp

variable {t u : Timestamp} {length : Nat}

/-- A whole number of periods have passed since the start of 1970. -/
def IsMultiple (t : Timestamp) (length : Nat) : Prop :=
  t.nanos = 0 ∧ (length : Int) ∣ t.seconds

/-- The moment lies in a leap second, after which a period starts. -/
def IsBeforeMultiple (t : Timestamp) (length : Nat) : Prop :=
  t.isLeap ∧ (length : Int) ∣ t.seconds + 1

instance (t : Timestamp) (length : Nat) : Decidable (t.IsMultiple length) :=
  inferInstanceAs (Decidable (_ ∧ _))

instance (t : Timestamp) (length : Nat) : Decidable (t.IsBeforeMultiple length) :=
  inferInstanceAs (Decidable (_ ∧ _))

/-- Where a period can start: at a multiple of its length, or with a leap second right before. -/
def IsStart (t : Timestamp) (length : Nat) : Prop :=
  t.IsMultiple length ∨ t.IsBeforeMultiple length ∧ t.nanos = 10 ^ 9

/-- Different multiples of a length are at least that length apart. -/
lemma IsMultiple.add_le (ht : t.IsMultiple length) (hu : u.IsMultiple length) (h : t < u) :
    t.seconds + length ≤ u.seconds := by
  obtain ⟨hnanos, hdvd⟩ := ht
  obtain ⟨hnanos', hdvd'⟩ := hu
  rw [lt_iff, hnanos, hnanos'] at h
  have hle := Int.le_of_dvd (by omega) (Int.dvd_sub hdvd' hdvd)
  omega

end Timestamp

namespace Timeframe

variable {f : Timeframe} {t a : Timestamp} {length : Nat}

/-- The second after a leap second is a multiple if no multiple lies in between. -/
lemma isBeforeMultiple_iff :
    t.IsBeforeMultiple length ↔ 10 ^ 9 ≤ t.nanos ∧ t.seconds + 1 = multipleBelow length t := by
  have hnanos := t.nanos_lt
  have hwhole (hleap : 10 ^ 9 ≤ t.nanos) : t.wholeSeconds = t.seconds + 1 := by
    simp only [Timestamp.wholeSeconds, Timestamp.stamp]
    omega
  rw [Timestamp.IsBeforeMultiple, Timestamp.isLeap, decide_eq_true_eq, multipleBelow]
  refine and_congr_right fun hleap => ?_
  rw [hwhole hleap]
  constructor
  · intro hdvd
    exact (Int.mul_ediv_cancel' hdvd).symm
  · intro heq
    exact ⟨_, heq⟩

/-- A leap second right before a multiple is its own period; any other moment's is at a multiple. -/
lemma starts_of_periodStart? (hlength : f.seconds? = some length) (h : f.periodStart? t = some a) :
    if t.IsBeforeMultiple length then a.seconds = t.seconds ∧ a.nanos = 10 ^ 9
    else a.IsMultiple length := by
  have hparts := parts_of_periodStart? hlength h
  simp only [← isBeforeMultiple_iff] at hparts
  split_ifs at hparts ⊢
  · exact hparts
  · exact ⟨hparts.2, _, hparts.1⟩

lemma isStart_of_periodStart? (hlength : f.seconds? = some length)
    (h : f.periodStart? t = some a) : a.IsStart length := by
  have hstarts := starts_of_periodStart? hlength h
  split_ifs at hstarts with hbefore
  · obtain ⟨hseconds, hnanos⟩ := hstarts
    refine .inr ⟨⟨?_, hseconds ▸ hbefore.2⟩, hnanos⟩
    rw [Timestamp.isLeap, hnanos]
    exact decide_eq_true (le_refl _)
  · exact .inl hstarts

end Timeframe

namespace Rollup

variable {s : Rollup} {length : Nat} {p : Timestamp}

/-- The open period of a rollup is the period of a moment. -/
lemma Reachable.exists_moment (h : s.Reachable) (hopen : s.periodStart = some p) :
    ∃ t, s.timeframe.periodStart? t = some p := by
  induction h with
  | fresh h =>
    obtain ⟨table, -, rfl⟩ := ofConfig_eq_ok_iff.mp h
    cases hopen
  | @call s h q ih =>
    rw [timeframe_call h.sound]
    rcases periodStart_call h.sound q with hsame | ⟨start, hstart, hopened⟩
    · exact ih (hsame ▸ hopen)
    · cases hopened.symm.trans hopen
      obtain ⟨t, -, ht⟩ := Option.bind_eq_some_iff.mp hstart
      exact ⟨t, ht⟩

/-- A summary is of the period that is open when it is emitted. -/
lemma periodStart_of_emission (h : s.Sound) {q : Request} {summary : Summary}
    (hsummary : summaryOf (q.call s) = some summary) :
    s.periodStart = some summary.periodStart := by
  have hprogress := Progress.of_call h q
  rw [Request.emission?, hsummary] at hprogress
  generalize q.taken s = legs, stateOf (q.call s) = s' at hprogress
  simp only [Option.map_some] at hprogress
  generalize q.occasion s s' = occasion at hprogress
  cases hprogress with
  | split _ _ hopen | turned _ _ hopen | requested hopen => exact hopen

/--
The open period and the period of each summary start at a multiple of their length, or with a leap
second right before one; only a moment of such a leap second has that period. Periods that start
at multiples are at least their length apart.
-/
theorem periods_start_or_leap (h : s.Reachable) (hlength : s.timeframe.seconds? = some length) :
    (∀ p, s.periodStart = some p → p.IsStart length) ∧
      (∀ q summary, summaryOf (Request.call q s) = some summary →
        summary.periodStart.IsStart length) ∧
      (∀ summary, summaryOf (finish s) = some summary → summary.periodStart.IsStart length) ∧
      (∀ t p, s.timeframe.periodStart? t = some p →
        if t.IsBeforeMultiple length then p.seconds = t.seconds ∧ p.nanos = 10 ^ 9
        else p.IsMultiple length) ∧
      ∀ p p' : Timestamp, p.IsMultiple length → p'.IsMultiple length → p < p' →
        p.seconds + length ≤ p'.seconds := by
  have hopen : ∀ p, s.periodStart = some p → p.IsStart length := by
    intro p hp
    obtain ⟨t, ht⟩ := h.exists_moment hp
    exact Timeframe.isStart_of_periodStart? hlength ht
  refine ⟨hopen, ?_, ?_, ?_, ?_⟩
  · intro q summary hsummary
    exact hopen _ (periodStart_of_emission h.sound hsummary)
  · intro summary hsummary
    have hclosing := Closing.of_takeSummary h.sound true
    rw [finish] at hsummary
    generalize takeSummary true s = r at hclosing hsummary
    cases hclosing with
    | idle | overflowed => cases hsummary
    | emitted hperiod =>
      cases hsummary
      exact hopen _ hperiod
  · intro t p hp
    exact Timeframe.starts_of_periodStart? hlength hp
  · intro p p' hp hp' hlt
    exact hp.add_le hp' hlt

/-- A tick of the leap second at the end of the minute of `narrowTick`. -/
def leapTick : TickRecord where
  timestamp := ⟨119, 1500000000, by decide, by decide, by decide⟩
  category := .trade
  price := .zero
  quantity := .zero

/-- A narrow rollup whose minute has been closed by a leap second. -/
def leaped : Rollup :=
  stateOf ((Request.tick ⟨1, 0, 0⟩ leapTick).call (narrowed .reject))

lemma reachable_leaped : leaped.Reachable :=
  .call (reachable_narrowed .reject) _

/-- The leap second has a period of its own, which starts right before a minute. -/
theorem periods_start_or_leap_leaped :
    leaped.Reachable ∧ leaped.timeframe.seconds? = some 60 ∧
      ∃ p, leaped.periodStart = some p ∧ p.IsStart 60 ∧ leapTick.timestamp.IsBeforeMultiple 60 ∧
        p.seconds = 119 ∧ p.nanos = 10 ^ 9 := by
  have hlength : leaped.timeframe.seconds? = some 60 := rfl
  obtain ⟨hstart, -, -, hperiod, -⟩ := periods_start_or_leap reachable_leaped hlength
  have hopen : ∃ p, leaped.periodStart = some p ∧
      leaped.timeframe.periodStart? leapTick.timestamp = some p := ⟨_, rfl, rfl⟩
  obtain ⟨p, hopen, hp⟩ := hopen
  have hbefore : leapTick.timestamp.IsBeforeMultiple 60 := by decide
  have hleap := hperiod _ _ hp
  rw [if_pos hbefore] at hleap
  exact ⟨reachable_leaped, hlength, p, hopen, hstart p hopen, hbefore, hleap⟩

/-- Not every period starts at a multiple of its length: a leap second closes its own minute early
and opens a period that starts inside that minute. -/
theorem exists_period_not_multiple :
    ∃ summary s' p, process ⟨1, 0, 0⟩ leapTick (narrowed .reject) = .ok (some summary) s' ∧
      s'.Reachable ∧ s'.timeframe = .minute1 ∧ s'.periodStart = some p ∧ ¬p.IsMultiple 60 ∧
        summary.complete ∧ p.seconds < summary.periodStart.seconds + 60 :=
  ⟨_, _, _, rfl, reachable_leaped, rfl, rfl, by decide, rfl, by decide⟩

end Rollup

end Candlestick
