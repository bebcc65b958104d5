import Candlestick.Proofs.Rollup.Partition

/-!
# What a call does to the open period

A call leaves the open period as it is, stores its ticks in it, emits it, or moves on to another
one. `Rollup.Progress` lists the ways with what is emitted and accepted, and forgets the table but
for whether it has any contracts. All ticks of a summary lie in its period, and all ticks that are
pending lie in the open one (`Rollup.Ledger.Dated.run`).
-/

namespace Candlestick

/-- All ticks of a feed lie in the period with the given start. -/
def Feed.Within (f : Feed) (timeframe : Timeframe) (start : Timestamp) : Prop :=
  ∀ entry ∈ f, timeframe.periodStart? entry.2.timestamp = some start

namespace Rollup

variable {s s' : Rollup} {q : Request} {o : Offer}

/-! ### Moments of requests -/

namespace Request

/-- The moment of a request; closing the period has none. -/
def timestamp? : Request → Option Timestamp
  | tick _ r => some r.timestamp
  | sandwich _ s => some s.timestamp
  | raw t => some t.timestamp
  | close => none

/-- The start of the period that a request is for. -/
def start? (timeframe : Timeframe) (q : Request) : Option Timestamp :=
  q.timestamp?.bind timeframe.periodStart?

lemma timestamp?_of_offer? (h : q.offer? = some o) : q.timestamp? = some o.timestamp := by
  cases q with
  | tick | sandwich =>
    cases h
    rfl
  | raw t =>
    rw [offer?] at h
    cases hcategory : Category.ofTag? t.tag with
    | none =>
      simp [RawTick.decode, hcategory] at h
    | some category =>
      simp only [RawTick.decode, hcategory, Option.some.injEq] at h
      subst h
      rfl
  | close => cases h

lemma timestamp_of_mem_ticks (h : q.offer? = some o) {r : TickRecord} (hr : r ∈ o.ticks) :
    r.timestamp = o.timestamp := by
  have hsingle {key : ContractKey} {r₀ : TickRecord} (ho : o = .single key r₀) :
      r.timestamp = o.timestamp := by
    subst ho
    rw [List.mem_singleton.mp hr]
    rfl
  cases q with
  | tick key r₀ => exact hsingle (Option.some.inj h).symm
  | sandwich key sandwich =>
    cases h
    obtain ⟨leg, -, rfl⟩ := List.mem_map.mp hr
    rfl
  | raw t =>
    rw [offer?] at h
    cases hdecode : t.decode with
    | error e =>
      rw [hdecode] at h
      cases h
    | ok tick =>
      rw [hdecode] at h
      exact hsingle (Option.some.inj h).symm
  | close => cases h

/-- The ticks of a request lie in the period that it is for. -/
lemma legs_within {timeframe : Timeframe} {start : Timestamp} (h : q.offer? = some o)
    (hstart : timeframe.periodStart? o.timestamp = some start) : q.legs.Within timeframe start := by
  rw [legs_eq_of_offer? h]
  intro entry hentry
  obtain ⟨r, hr, rfl⟩ := List.mem_map.mp hentry
  rw [timestamp_of_mem_ticks h hr, hstart]

end Request

/-! ### Emissions -/

/-- What a summary is emitted for. -/
inductive Occasion
  /-- To make room for ticks. -/
  | room
  /-- For a tick of another period. -/
  | turn
  /-- At request. -/
  | request
  /-- At the end of the feed. -/
  | finish
deriving DecidableEq

/-- A summary with what it was emitted for. -/
structure Emission where
  summary : Summary
  occasion : Occasion

/-- What a request that leads from `s` to `s'` has a summary emitted for. -/
def Request.occasion (q : Request) (s s' : Rollup) : Occasion :=
  if q = .close then .request
  else if s.stats.earlyRollups < s'.stats.earlyRollups then .room
  else .turn

lemma Request.occasion_of_lt (hq : q ≠ .close)
    (h : s.stats.earlyRollups < s'.stats.earlyRollups) : q.occasion s s' = .room := by
  rw [occasion, if_neg hq, if_pos h]

lemma Request.occasion_of_eq (hq : q ≠ .close)
    (h : s'.stats.earlyRollups = s.stats.earlyRollups) : q.occasion s s' = .turn := by
  rw [occasion, if_neg hq, if_neg (Nat.not_lt.mpr (Nat.le_of_eq h))]

/-- The emission of a call that a request leads `s` to. -/
def Request.emission? (q : Request) (s : Rollup) : Option Emission :=
  (summaryOf (q.call s)).map fun summary => ⟨summary, q.occasion s (stateOf (q.call s))⟩

/-- The emissions of requests that are the last ones before the end of the feed. -/
def emissions (s : Rollup) : List Request → List Emission
  | [] => (summaryOf (finish s)).toList.map fun summary => ⟨summary, .finish⟩
  | q :: qs => (q.emission? s).toList ++ emissions (stateOf (q.call s)) qs

/-- The summaries of requests that are the last ones before the end of the feed. -/
def report (s : Rollup) (qs : List Request) : List Summary :=
  summaries s qs ++ (summaryOf (finish (stateAfter s qs))).toList

lemma map_summary_emissions (s : Rollup) (qs : List Request) :
    (emissions s qs).map Emission.summary = report s qs := by
  induction qs generalizing s with
  | nil => simp [emissions, report, summaries, stateAfter, Function.comp_def]
  | cons q qs ih =>
    rw [emissions, List.map_append, ih]
    simp only [report, summaries, stateAfter, List.foldl_cons, List.append_assoc]
    cases h : summaryOf (q.call s) <;> simp [Request.emission?, h]

/-- The ticks that are accepted from a request. -/
def Request.taken (q : Request) (s : Rollup) : Feed :=
  acceptedOf s q.legs (q.call s)

/-! ### Progress -/

/-- What a request can do to the open period: what it emits and accepts, and the state after it. -/
inductive Progress (s : Rollup) (q : Request) : Option Emission → Feed → Rollup → Prop
  /-- Nothing is emitted or accepted. -/
  | kept {s' : Rollup} (hperiod : s'.periodStart = s.periodStart)
      (htable : s'.table = s.table) : Progress s q none [] s'
  /-- Ticks of the open period are stored. -/
  | stored {s' : Rollup} {start : Timestamp} (hstart : q.start? s.timeframe = some start)
      (hlegs : q.legs.Within s.timeframe start) (hopen : s.periodStart = some start)
      (hopen' : s'.periodStart = some start) (hsome : s'.table.active ≠ []) :
      Progress s q none q.legs s'
  /-- The open period is emitted to make room for more of its ticks. -/
  | split {s' : Rollup} {start : Timestamp} {candles : List (ContractKey × ContractCandle)}
      (hstart : q.start? s.timeframe = some start) (hlegs : q.legs.Within s.timeframe start)
      (hopen : s.periodStart = some start) (hopen' : s'.periodStart = some start)
      (hsome : s'.table.active ≠ []) :
      Progress s q (some ⟨⟨start, s.timeframe, false, candles⟩, .room⟩) q.legs s'
  /-- Ticks open a period, and there is nothing to emit. -/
  | opened {s' : Rollup} {start : Timestamp} (hstart : q.start? s.timeframe = some start)
      (hlegs : q.legs.Within s.timeframe start) (hnil : s.table.active = [])
      (hopen' : s'.periodStart = some start) (hsome : s'.table.active ≠ []) :
      Progress s q none q.legs s'
  /-- Ticks open a period, and the one before it is emitted. -/
  | turned {s' : Rollup} {start old : Timestamp} {candles : List (ContractKey × ContractCandle)}
      (hstart : q.start? s.timeframe = some start) (hlegs : q.legs.Within s.timeframe start)
      (hold : s.periodStart = some old) (hne : old ≠ start)
      (hopen' : s'.periodStart = some start) (hsome : s'.table.active ≠ []) :
      Progress s q (some ⟨⟨old, s.timeframe, true, candles⟩, .turn⟩) q.legs s'
  /-- The open period is emitted at request. -/
  | requested {s' : Rollup} {start : Timestamp} {candles : List (ContractKey × ContractCandle)}
      (hopen : s.periodStart = some start) (hopen' : s'.periodStart = some start)
      (hnil : s'.table.active = []) :
      Progress s q (some ⟨⟨start, s.timeframe, false, candles⟩, .request⟩) [] s'

lemma active_ne_nil_of_taken {t t' : ContractTable} (h : t.Taken o t') : t'.active ≠ [] := by
  intro hnil
  have hlookup := Roster.lookup_take t.newBucket t.active o.key o.ticks
  rw [← h.active_eq, hnil] at hlookup
  cases hlookup

namespace Progress

lemma of_admission (hoffer : q.offer? = some o) {r : Outcome} (h : Admission s o r) :
    Progress s q
      ((summaryOf r).map fun summary => ⟨summary, q.occasion s (stateOf r)⟩)
      (acceptedOf s q.legs r) (stateOf r) := by
  have hclose : q ≠ .close := by
    rintro rfl
    cases hoffer
  have hlegs : 0 < o.ticks.length := List.length_pos_iff.mpr o.ticks_ne_nil
  have hstart? {start : Timestamp} (hstart : s.timeframe.periodStart? o.timestamp = some start) :
      q.start? s.timeframe = some start := by
    rw [Request.start?, Request.timestamp?_of_offer? hoffer, Option.bind_some, hstart]
  cases h with
  | unalignable | overflowed | rejected => exact .kept rfl rfl
  | dropped =>
    rw [acceptedOf, if_pos (Nat.lt_add_of_pos_right hlegs)]
    exact .kept rfl rfl
  | stored hstart hopen _ htaken =>
    rw [acceptedOf, if_neg (Nat.lt_irrefl _)]
    exact .stored (hstart? hstart) (Request.legs_within hoffer hstart) hopen hopen
      (active_ne_nil_of_taken htaken)
  | split hstart hopen _ _ _ _ htaken =>
    rw [acceptedOf, if_neg (Nat.lt_irrefl _), summaryOf, Option.map_some,
      Request.occasion_of_lt hclose]
    · exact .split (hstart? hstart) (Request.legs_within hoffer hstart) hopen hopen
        (active_ne_nil_of_taken htaken)
    · exact Nat.lt_succ_self _
  | opened hstart _ hnil htaken =>
    rw [acceptedOf, if_neg (Nat.lt_irrefl _)]
    exact .opened (hstart? hstart) (Request.legs_within hoffer hstart) hnil rfl
      (active_ne_nil_of_taken htaken)
  | closed hstart hmoved hold _ _ htaken =>
    rw [acceptedOf, if_neg (Nat.lt_irrefl _), summaryOf, Option.map_some,
      Request.occasion_of_eq hclose]
    · refine .turned (hstart? hstart) (Request.legs_within hoffer hstart) hold ?_ rfl
        (active_ne_nil_of_taken htaken)
      rintro rfl
      exact hmoved hold
    · rfl

/-- What a request does to the open period. -/
lemma of_call (h : s.Sound) (q : Request) :
    Progress s q (q.emission? s) (q.taken s) (stateOf (q.call s)) := by
  have hperformed := Performed.of_call h q
  rw [Request.emission?, Request.taken]
  generalize q.call s = r at hperformed
  cases hperformed with
  | undecodable | null | misfit => exact .kept rfl rfl
  | offered hoffer _ _ hadmission => exact of_admission hoffer hadmission
  | closed hclosing =>
    have hlegs : Request.legs .close = [] := rfl
    cases hclosing with
    | idle =>
      rw [acceptedOf, hlegs, ite_self]
      exact .kept rfl rfl
    | overflowed => exact .kept rfl rfl
    | emitted hperiod =>
      rw [acceptedOf, hlegs, ite_self]
      exact .requested hperiod hperiod rfl

end Progress

/-! ### Ledgers by period -/

lemma timeframe_call (h : s.Sound) (q : Request) : (stateOf (q.call s)).timeframe = s.timeframe :=
  congrArg RollupConfig.timeframe (settings_call h q)

namespace Ledger

variable {l : Ledger} {timeframe : Timeframe}

/-- The ticks of a summary lie in its period, and those that are pending in the open one. -/
structure Dated (timeframe : Timeframe) (l : Ledger) : Prop where
  timeframe_eq : l.state.timeframe = timeframe
  batches : ∀ batch ∈ l.batches, batch.2.Within timeframe batch.1.periodStart
  pending : ∀ start, l.state.periodStart = some start → l.pending.Within timeframe start

lemma Dated.start (s : Rollup) : (start s).Dated s.timeframe where
  timeframe_eq := rfl
  batches batch hbatch := by cases hbatch
  pending start _ entry hentry := by cases hentry

lemma Dated.emit (h : l.Dated timeframe) {summary : Summary} {start : Timestamp}
    (hopen : l.state.periodStart = some start) (hsummary : summary.periodStart = start) :
    ∀ batch ∈ l.batches ++ [(summary, l.pending)],
      batch.2.Within timeframe batch.1.periodStart := by
  intro batch hbatch
  rcases List.mem_append.mp hbatch with hbatch | hbatch
  · exact h.batches batch hbatch
  · cases List.mem_singleton.mp hbatch
    exact hsummary ▸ h.pending start hopen

/-- One request keeps the ticks of a ledger in their periods. -/
lemma Dated.enter (h : l.Dated timeframe) (hl : l.Balanced) (q : Request) :
    (l.enter q.legs (q.call l.state)).Dated timeframe := by
  obtain rfl := h.timeframe_eq
  have hprogress := Progress.of_call hl.sound q
  have htimeframe := timeframe_call hl.sound q
  rw [Request.emission?, Request.taken] at hprogress
  rw [Ledger.enter]
  generalize q.call l.state = r at *
  generalize acceptedOf l.state q.legs r = legs at *
  -- What becomes of the pending ticks when the period stays open.
  have happend {start : Timestamp} (hopen : l.state.periodStart = some start)
      (hopen' : (stateOf r).periodStart = some start)
      (hlegs : legs.Within l.state.timeframe start) :
      ∀ start, (stateOf r).periodStart = some start →
        Feed.Within (l.pending ++ legs) l.state.timeframe start := by
    intro start' hstart' entry hentry
    cases hopen'.symm.trans hstart'
    exact (List.mem_append.mp hentry).elim (h.pending start hopen entry) (hlegs entry)
  have hfresh {start : Timestamp} (hopen' : (stateOf r).periodStart = some start)
      (hlegs : legs.Within l.state.timeframe start) :
      ∀ start, (stateOf r).periodStart = some start → legs.Within l.state.timeframe start := by
    intro start' hstart'
    cases hopen'.symm.trans hstart'
    exact hlegs
  cases hsummary : summaryOf r with
  | none =>
    rw [hsummary, Option.map_none] at hprogress
    generalize stateOf r = s' at *
    refine ⟨htimeframe, h.batches, ?_⟩
    cases hprogress with
    | kept hperiod =>
      rw [List.append_nil, hperiod]
      exact h.pending
    | stored _ hlegs hopen hopen' => exact happend hopen hopen' hlegs
    | opened _ hlegs hnil hopen' =>
      rw [hl.pending_eq_nil_iff.mpr hnil, List.nil_append]
      exact hfresh hopen' hlegs
  | some summary =>
    rw [hsummary, Option.map_some] at hprogress
    generalize q.occasion l.state (stateOf r) = occasion at hprogress
    generalize stateOf r = s' at *
    cases hprogress with
    | split _ hlegs hopen hopen' => exact ⟨htimeframe, h.emit hopen rfl, hfresh hopen' hlegs⟩
    | turned _ hlegs hold _ hopen' => exact ⟨htimeframe, h.emit hold rfl, hfresh hopen' hlegs⟩
    | requested hopen =>
      exact ⟨htimeframe, h.emit hopen rfl, fun start _ entry hentry => by cases hentry⟩

lemma Dated.run (h : l.Dated timeframe) (hl : l.Balanced) (qs : List Request) :
    (l.run qs).Dated timeframe := by
  induction qs generalizing l with
  | nil => exact h
  | cons q qs ih => exact ih (h.enter hl q) (hl.enter q)

end Ledger

end Rollup

end Candlestick
