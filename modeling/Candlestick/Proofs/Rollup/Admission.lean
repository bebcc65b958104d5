import Candlestick.Proofs.Rollup.Offer

/-!
# Taking in an offer

An offer moves a rollup to the period of its moment, which may close the period that is open, and
is then stored under the overflow policy. All that this can come to is listed by
`Rollup.Admission`, in terms of the state before. What holds of every call is read off that list.
-/

namespace Candlestick

namespace Rollup

variable {s s' : Rollup} {o : Offer} {timestamp start : Timestamp}
variable {key : ContractKey} {legs : Nat} {add : Bucket.Call Unit} {e : Error}

/-- What a call comes to: an answer or an error, and the state it leaves. -/
abbrev Outcome := EStateM.Result Error Rollup (Option Summary)

def stateOf : Outcome → Rollup
  | .ok _ s | .error _ s => s

/-- The settings of a rollup. -/
def settings (s : Rollup) : RollupConfig where
  table := s.table.config
  timeframe := s.timeframe
  overflow := s.overflow

/-! ### What each step does -/

/-- The state once a summary is emitted. -/
def emptied (s : Rollup) : Rollup :=
  { s with table := s.table.rinse, stats.periods := s.stats.periods + 1 }

lemma takeSummary_of_none (h : s.periodStart = none) (complete : Bool) :
    takeSummary complete s = .ok none s := by
  rw [takeSummary, get_bind, h]
  rfl

lemma takeSummary_of_some (h : s.periodStart = some start) (complete : Bool) :
    takeSummary complete s =
      if s.table.activeCount = 0 then .ok none s
      else
        match s.table.candles with
        | .ok candles =>
          .ok (some { periodStart := start, timeframe := s.timeframe, complete, candles }) s.emptied
        | .error cause => .error (.overflow cause) s := by
  rw [takeSummary, get_bind, h]
  dsimp only
  split_ifs
  · rfl
  · change EStateM.bind candles _ s = _
    rw [EStateM.bind, candles]
    cases s.table.candles <;> rfl

lemma rollTo_of_none (h : s.timeframe.periodStart? timestamp = none) :
    rollTo timestamp s = .error (.unalignable timestamp) s := by
  rw [rollTo, get_bind, h]
  rfl

lemma rollTo_of_eq (h : s.timeframe.periodStart? timestamp = some start)
    (hopen : s.periodStart = some start) : rollTo timestamp s = .ok none s := by
  rw [rollTo, get_bind, h]
  dsimp only
  rw [if_pos hopen]
  rfl

lemma rollTo_of_ne (h : s.timeframe.periodStart? timestamp = some start)
    (hmoved : s.periodStart ≠ some start) :
    rollTo timestamp s =
      match takeSummary true s with
      | .ok closed s => .ok closed { s with periodStart := some start }
      | .error e s => .error e s := by
  rw [rollTo, get_bind, h]
  dsimp only
  rw [if_neg hmoved]
  cases hperiod : s.periodStart with
  | none =>
    rw [takeSummary_of_none hperiod, Option.isSome_none, if_neg Bool.false_ne_true]
    rfl
  | some old =>
    change EStateM.bind (takeSummary true) _ s = _
    rw [EStateM.bind]
    cases takeSummary true s <;> rfl

lemma store_of_ok {table : ContractTable}
    (h : ContractTable.insert key add s.table = .ok () table) :
    store key legs add s = .ok none { s with table, stats.ticks := s.stats.ticks + legs } := by
  rw [store, insert, h]

lemma store_of_error (h : ContractTable.insert key add s.table = .error e s.table)
    (he : e.isCapacity) : store key legs add s = applyPolicy key legs add e s := by
  rw [store, insert, h]
  exact if_pos he

lemma applyPolicy_reject (h : s.overflow = .reject) :
    applyPolicy key legs add e s = .error e s := by
  obtain ⟨table, timeframe, overflow, periodStart, stats⟩ := s
  cases h
  rfl

lemma applyPolicy_dropTick (h : s.overflow = .dropTick) :
    applyPolicy key legs add e s =
      .ok none { s with stats.dropped := s.stats.dropped + legs } := by
  obtain ⟨table, timeframe, overflow, periodStart, stats⟩ := s
  cases h
  rfl

lemma applyPolicy_earlyRollup (h : s.overflow = .earlyRollup) :
    applyPolicy key legs add e s =
      match takeSummary false s with
      | .error e s => .error e s
      | .ok early s =>
        match ContractTable.insert key add s.table with
        | .error e table => .error e { s with table, stats.earlyRollups := s.stats.earlyRollups + 1 }
        | .ok () table =>
          .ok early
            { s with
              table
              stats.earlyRollups := s.stats.earlyRollups + 1
              stats.ticks := s.stats.ticks + legs } := by
  obtain ⟨table, timeframe, overflow, periodStart, stats⟩ := s
  cases h
  change EStateM.bind (takeSummary false) _ _ = _
  rw [EStateM.bind]
  cases takeSummary false ⟨table, timeframe, .earlyRollup, periodStart, stats⟩ with
  | error e s => rfl
  | ok early s =>
    change EStateM.bind (insert key add) _ _ = _
    rw [EStateM.bind, insert]
    dsimp only
    cases ContractTable.insert key add s.table <;> rfl

/-! ### Summaries -/

/-- The table is well-formed, and it has no contracts before the first period. -/
structure Sound (s : Rollup) : Prop where
  table : s.table.WellFormed
  active_eq_nil : s.periodStart = none → s.table.active = []

/-- What asking for a summary can come to. -/
inductive Closing (s : Rollup) (complete : Bool) : Outcome → Prop
  | idle (hnil : s.table.active = []) : Closing s complete (.ok none s)
  | overflowed {cause : Decimal.Overflow} (hcandles : s.table.candles = .error cause) :
      Closing s complete (.error (.overflow cause) s)
  | emitted {start : Timestamp} {candles : List (ContractKey × ContractCandle)}
      (hperiod : s.periodStart = some start) (hsome : s.table.active ≠ [])
      (hcandles : s.table.candles = .ok candles) :
      Closing s complete
        (.ok (some { periodStart := start, timeframe := s.timeframe, complete, candles }) s.emptied)

lemma Closing.of_takeSummary (h : s.Sound) (complete : Bool) :
    Closing s complete (takeSummary complete s) := by
  cases hperiod : s.periodStart with
  | none =>
    rw [takeSummary_of_none hperiod]
    exact .idle (h.active_eq_nil hperiod)
  | some start =>
    have hcount : s.table.activeCount = 0 ↔ s.table.active = [] := by
      rw [← h.table.length_active, List.length_eq_zero_iff]
    rw [takeSummary_of_some hperiod]
    split_ifs with hzero
    · exact .idle (hcount.mp hzero)
    · cases hcandles : s.table.candles with
      | ok candles => exact .emitted hperiod (mt hcount.mpr hzero) hcandles
      | error cause => exact .overflowed hcandles

lemma Sound.emptied (h : s.Sound) : s.emptied.Sound where
  table := h.table.rinse
  active_eq_nil _ := rfl

lemma Closing.sound {complete : Bool} {r : Outcome}
    (h : Closing s complete r) (hs : s.Sound) : (stateOf r).Sound := by
  cases h with
  | idle | overflowed => exact hs
  | emitted => exact hs.emptied

/-! ### Offers -/

/-- Takes in an offer. The summary is of ticks taken in before it. -/
def offer (o : Offer) : Call (Option Summary) := do
  let closed ← rollTo o.timestamp
  let early ← store o.key o.ticks.length o.add
  return closed.or early

/-- What an offer can come to. -/
inductive Admission (s : Rollup) (o : Offer) : Outcome → Prop
  | unalignable (hstart : s.timeframe.periodStart? o.timestamp = none) :
      Admission s o (.error (.unalignable o.timestamp) s)
  /-- The candles of a summary that is due overflow. -/
  | overflowed {start : Timestamp} {cause : Decimal.Overflow}
      (hstart : s.timeframe.periodStart? o.timestamp = some start)
      (hcandles : s.table.candles = .error cause) : Admission s o (.error (.overflow cause) s)
  /-- The table has room for the offer. -/
  | stored {start : Timestamp} {table : ContractTable}
      (hstart : s.timeframe.periodStart? o.timestamp = some start)
      (hopen : s.periodStart = some start)
      (hroom : Roster.refusal? s.table.capacity s.table.active o = none)
      (htaken : s.table.Taken o table) :
      Admission s o
        (.ok none { s with table, stats.ticks := s.stats.ticks + o.ticks.length })
  | rejected {start : Timestamp} {e : Error}
      (hstart : s.timeframe.periodStart? o.timestamp = some start)
      (hopen : s.periodStart = some start)
      (hroom : Roster.refusal? s.table.capacity s.table.active o = some e)
      (hcapacity : e.isCapacity) (hpolicy : s.overflow = .reject) :
      Admission s o (.error e s)
  | dropped {start : Timestamp} {e : Error}
      (hstart : s.timeframe.periodStart? o.timestamp = some start)
      (hopen : s.periodStart = some start)
      (hroom : Roster.refusal? s.table.capacity s.table.active o = some e)
      (hpolicy : s.overflow = .dropTick) :
      Admission s o (.ok none { s with stats.dropped := s.stats.dropped + o.ticks.length })
  /-- The open period is emitted early to make room. -/
  | split {start : Timestamp} {e : Error} {candles : List (ContractKey × ContractCandle)}
      {table : ContractTable} (hstart : s.timeframe.periodStart? o.timestamp = some start)
      (hopen : s.periodStart = some start)
      (hroom : Roster.refusal? s.table.capacity s.table.active o = some e)
      (hpolicy : s.overflow = .earlyRollup) (hsome : s.table.active ≠ [])
      (hcandles : s.table.candles = .ok candles) (htaken : s.table.rinse.Taken o table) :
      Admission s o
        (.ok (some { periodStart := start, timeframe := s.timeframe, complete := false, candles })
          { s with
            table
            stats.ticks := s.stats.ticks + o.ticks.length
            stats.periods := s.stats.periods + 1
            stats.earlyRollups := s.stats.earlyRollups + 1 })
  /-- Another period is opened, and there is nothing to emit. -/
  | opened {start : Timestamp} {table : ContractTable}
      (hstart : s.timeframe.periodStart? o.timestamp = some start)
      (hmoved : s.periodStart ≠ some start) (hnil : s.table.active = [])
      (htaken : s.table.Taken o table) :
      Admission s o
        (.ok none
          { s with
            table
            periodStart := some start
            stats.ticks := s.stats.ticks + o.ticks.length })
  /-- Another period is opened, and the one before it is emitted. -/
  | closed {start old : Timestamp} {candles : List (ContractKey × ContractCandle)}
      {table : ContractTable} (hstart : s.timeframe.periodStart? o.timestamp = some start)
      (hmoved : s.periodStart ≠ some start) (hold : s.periodStart = some old)
      (hsome : s.table.active ≠ []) (hcandles : s.table.candles = .ok candles)
      (htaken : s.table.rinse.Taken o table) :
      Admission s o
        (.ok (some { periodStart := old, timeframe := s.timeframe, complete := true, candles })
          { s with
            table
            periodStart := some start
            stats.ticks := s.stats.ticks + o.ticks.length
            stats.periods := s.stats.periods + 1 })

lemma offer_of_rollTo_error (h : rollTo o.timestamp s = .error e s') : offer o s = .error e s' := by
  change EStateM.bind (rollTo o.timestamp) _ s = _
  rw [EStateM.bind, h]

lemma offer_of_rollTo_ok {closed : Option Summary} (h : rollTo o.timestamp s = .ok closed s') :
    offer o s =
      match store o.key o.ticks.length o.add s' with
      | .ok early s => .ok (closed.or early) s
      | .error e s => .error e s := by
  change EStateM.bind (rollTo o.timestamp) _ s = _
  rw [EStateM.bind, h]
  change EStateM.bind (store o.key o.ticks.length o.add) _ s' = _
  rw [EStateM.bind]
  cases store o.key o.ticks.length o.add s' <;> rfl

lemma Sound.roll (h : s.Sound) (start : Timestamp) :
    Sound { s with periodStart := some start } where
  table := h.table
  active_eq_nil hnone := by cases hnone

/-- An offer that opens a period finds an empty table. -/
lemma store_of_active_eq_nil (h : s.Sound) (hnil : s.table.active = []) (hkey : o.key ≠ .null)
    (hfit : o.Fits s.table.newBucket) :
    ∃ table, s.table.Taken o table ∧ store o.key o.ticks.length o.add s =
      .ok none { s with table, stats.ticks := s.stats.ticks + o.ticks.length } := by
  obtain ⟨table, hinsert, htaken⟩ :=
    ContractTable.exists_insert_of_active_eq_nil h.table hnil hkey hfit
  exact ⟨table, htaken, store_of_ok hinsert⟩

lemma Admission.of_open (h : s.Sound) (hkey : o.key ≠ .null) (hfit : o.Fits s.table.newBucket)
    (hstart : s.timeframe.periodStart? o.timestamp = some start)
    (hopen : s.periodStart = some start) : Admission s o (offer o s) := by
  have hinserted := ContractTable.Inserted.of_insert h.table hkey hfit
  rw [offer_of_rollTo_ok (rollTo_of_eq hstart hopen)]
  generalize hinsert : ContractTable.insert o.key o.add s.table = r at hinserted
  cases hinserted with
  | taken hroom htaken =>
    rw [store_of_ok hinsert]
    exact .stored hstart hopen hroom htaken
  | refused hroom hcapacity hsome =>
    rw [store_of_error hinsert hcapacity]
    cases hpolicy : s.overflow with
    | reject =>
      rw [applyPolicy_reject hpolicy]
      exact .rejected hstart hopen hroom hcapacity hpolicy
    | dropTick =>
      rw [applyPolicy_dropTick hpolicy]
      exact .dropped hstart hopen hroom hpolicy
    | earlyRollup =>
      rw [applyPolicy_earlyRollup hpolicy]
      have hclosing := Closing.of_takeSummary h false
      generalize takeSummary false s = r at hclosing
      cases hclosing with
      | idle hnil => exact absurd hnil hsome
      | overflowed hcandles => exact .overflowed hstart hcandles
      | emitted hperiod _ hcandles =>
        obtain ⟨table, hretry, htaken⟩ :=
          ContractTable.exists_insert_of_active_eq_nil h.table.rinse rfl hkey hfit
        cases hopen.symm.trans hperiod
        simp only [show ContractTable.insert o.key o.add s.emptied.table = _ from hretry]
        exact .split hstart hopen hroom hpolicy hsome hcandles htaken

lemma Admission.of_moved (h : s.Sound) (hkey : o.key ≠ .null) (hfit : o.Fits s.table.newBucket)
    (hstart : s.timeframe.periodStart? o.timestamp = some start)
    (hmoved : s.periodStart ≠ some start) : Admission s o (offer o s) := by
  have hroll := rollTo_of_ne hstart hmoved
  have hclosing := Closing.of_takeSummary h true
  generalize takeSummary true s = r at hclosing hroll
  cases hclosing with
  | idle hnil =>
    obtain ⟨table, htaken, hstore⟩ := store_of_active_eq_nil (h.roll start) hnil hkey hfit
    rw [offer_of_rollTo_ok hroll, hstore]
    exact .opened hstart hmoved hnil htaken
  | overflowed hcandles =>
    rw [offer_of_rollTo_error hroll]
    exact .overflowed hstart hcandles
  | emitted hperiod hsome hcandles =>
    obtain ⟨table, htaken, hstore⟩ := store_of_active_eq_nil (h.emptied.roll start) rfl hkey hfit
    rw [offer_of_rollTo_ok hroll, hstore]
    exact .closed hstart hmoved hperiod hsome hcandles htaken

/-- All that an offer can come to. -/
lemma Admission.of_offer (h : s.Sound) (hkey : o.key ≠ .null) (hfit : o.Fits s.table.newBucket) :
    Admission s o (offer o s) := by
  cases hstart : s.timeframe.periodStart? o.timestamp with
  | none =>
    rw [offer_of_rollTo_error (rollTo_of_none hstart)]
    exact .unalignable hstart
  | some start =>
    by_cases hopen : s.periodStart = some start
    · exact .of_open h hkey hfit hstart hopen
    · exact .of_moved h hkey hfit hstart hopen

lemma Admission.sound {r : Outcome} (h : Admission s o r)
    (hs : s.Sound) : (stateOf r).Sound := by
  cases h with
  | unalignable | overflowed | rejected => exact hs
  | dropped => exact ⟨hs.table, hs.active_eq_nil⟩
  | stored _ hopen _ htaken =>
    exact ⟨htaken.wellFormed, fun hnone => by cases hopen.symm.trans hnone⟩
  | split _ hopen _ _ _ _ htaken =>
    exact ⟨htaken.wellFormed, fun hnone => by cases hopen.symm.trans hnone⟩
  | opened _ _ _ htaken | closed _ _ _ _ _ htaken =>
    exact ⟨htaken.wellFormed, fun hnone => by cases hnone⟩

lemma settings_congr {table : ContractTable} (h : table.config = s.table.config)
    (periodStart : Option Timestamp) (stats : Stats) :
    settings { s with table, periodStart, stats } = s.settings := by
  rw [settings, h]
  rfl

lemma Admission.settings_eq {r : Outcome} (h : Admission s o r) :
    (stateOf r).settings = s.settings := by
  cases h with
  | unalignable | overflowed | rejected | dropped => rfl
  | stored _ _ _ htaken | split _ _ _ _ _ _ htaken | opened _ _ _ htaken
  | closed _ _ _ _ _ htaken => exact settings_congr htaken.config_eq _ _

end Rollup

end Candlestick
