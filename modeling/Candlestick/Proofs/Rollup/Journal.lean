import Candlestick.Proofs.Rollup.Partition

/-!
# Rollups refine journals

A journal keeps what a rollup shows: the ticks accepted since the last summary, the open period and
the counters. It has no table, so it has to be told when a request finds no room. Told so, it does
what a rollup does (`Rollup.Represents.call`): of capacity, bucket size, layout, seed and policy,
only the lack of room ever shows.
-/

namespace Candlestick

/-- What a rollup shows, but for its table. -/
structure Journal where
  /-- The ticks that are accepted and not in a summary. -/
  pending : Feed
  periodStart : Option Timestamp
  stats : Stats

namespace Journal

/-- What a call on a journal comes to. -/
abbrev Outcome := EStateM.Result Error Journal (Option Summary)

/-- The journal once a summary is emitted. -/
def emptied (j : Journal) : Journal :=
  { j with pending := [], stats.periods := j.stats.periods + 1 }

/-- Emits the candles of what is pending, if anything is. -/
def close (j : Journal) (timeframe : Timeframe) (complete : Bool) : Outcome :=
  match j.periodStart with
  | none => .ok none j
  | some periodStart =>
    if j.pending = [] then .ok none j
    else
      match j.pending.candles with
      | .ok candles => .ok (some { periodStart, timeframe, complete, candles }) j.emptied
      | .error cause => .error (.overflow cause) j

/-- Accepts an offer. -/
def accept (j : Journal) (o : Offer) : Journal :=
  { j with
    pending := j.pending ++ .ofTicks o.key o.ticks
    stats.ticks := j.stats.ticks + o.ticks.length }

/-- Does what the policy asks for with an offer that finds no room because of `e`. -/
def applyPolicy (j : Journal) (config : RollupConfig) (o : Offer) (e : Error) : Outcome :=
  match config.overflow with
  | .reject => .error e j
  | .dropTick => .ok none { j with stats.dropped := j.stats.dropped + o.ticks.length }
  | .earlyRollup =>
    match j.close config.timeframe false with
    | .error e j => .error e j
    | .ok early j =>
      .ok early ({ j with stats.earlyRollups := j.stats.earlyRollups + 1 }.accept o)

/-- Takes in an offer; `refusal?` is why the table has no room for it. -/
def offer (j : Journal) (config : RollupConfig) (refusal? : Option Error) (o : Offer) : Outcome :=
  match config.timeframe.periodStart? o.timestamp with
  | none => .error (.unalignable o.timestamp) j
  | some start =>
    if j.periodStart = some start then
      match refusal? with
      | none => .ok none (j.accept o)
      | some e => j.applyPolicy config o e
    else
      match j.close config.timeframe true with
      | .error e j => .error e j
      | .ok closed j => .ok closed ({ j with periodStart := some start }.accept o)

end Journal

namespace Rollup

/-- What keeps the legs of a request from fitting a new bucket. -/
def Request.misfit? (new : Bucket) : Request → Option Error
  | sandwich key s => (new.claim key).lackFor? s
  | _ => none

/-- Why a table has no room for a request. -/
def Request.refusal? (t : ContractTable) (q : Request) : Option Error :=
  q.offer?.bind (Roster.refusal? t.capacity t.active)

end Rollup

/-- Carries out a request that finds the given lacks of room. -/
def Journal.perform (j : Journal) (config : RollupConfig) (misfit? refusal? : Option Error)
    (q : Rollup.Request) : Journal.Outcome :=
  match q.offer? with
  | some o =>
    if o.key = .null then .error .nullKey j
    else
      match misfit? with
      | some e => .error e j
      | none => j.offer config refusal? o
  | none =>
    match q with
    | .raw t => .error (.invalidCategory t.tag) { j with stats.invalid := j.stats.invalid + 1 }
    | _ => j.close config.timeframe false

namespace Rollup

variable {s s' : Rollup} {j j' : Journal} {o : Offer} {q : Request} {start : Timestamp}

/-- The requests that have ticks to offer. -/
inductive Request.Offers : Request → Offer → Prop
  | tick (key : ContractKey) (r : TickRecord) : Offers (.tick key r) (.single key r)
  | sandwich (key : ContractKey) (s : Sandwich) : Offers (.sandwich key s) (.sandwich key s)
  | raw {t : RawTick} {key : ContractKey} {r : TickRecord} (hdecode : t.decode = .ok (key, r)) :
      Offers (.raw t) (.single key r)

lemma Request.Offers.of_offer? (h : q.offer? = some o) : q.Offers o := by
  cases q with
  | tick key r =>
    cases h
    exact .tick key r
  | sandwich key s =>
    cases h
    exact .sandwich key s
  | raw t =>
    rw [offer?] at h
    cases hdecode : t.decode with
    | error e =>
      rw [hdecode] at h
      cases h
    | ok tick =>
      rw [hdecode] at h
      cases h
      exact .raw hdecode
  | close => cases h

/-- A request that has ticks to offer offers them unless a check fails. -/
lemma Request.call_of_offer? (h : q.offer? = some o) (s : Rollup) :
    q.call s =
      if o.key = .null then .error .nullKey s
      else
        match q.misfit? s.table.newBucket with
        | some e => .error e s
        | none => Rollup.offer o s := by
  cases Offers.of_offer? h with
  | tick key r => exact process_eq key r s
  | sandwich key sandwich => exact processSandwich_eq key sandwich s
  | raw hdecode =>
    rw [call, processRaw_of_ok hdecode]
    exact process_eq _ _ s

lemma Request.fits_of_misfit? (hs : s.Sound) (h : q.offer? = some o)
    (hmisfit : q.misfit? s.table.newBucket = none) : o.Fits s.table.newBucket := by
  cases Offers.of_offer? h with
  | tick | raw => exact fits_single hs.table _ _
  | sandwich => exact fits_sandwich hmisfit

/-- The journal has what the rollup shows. -/
structure Represents (j : Journal) (s : Rollup) : Prop where
  balanced : Ledger.Balanced ⟨s, [], j.pending⟩
  periodStart_eq : j.periodStart = s.periodStart
  stats_eq : j.stats = s.stats

/-- A journal and a rollup come to the same. -/
inductive Matches : Journal.Outcome → Outcome → Prop
  | ok {answer : Option Summary} {j : Journal} {s : Rollup} (h : Represents j s) :
      Matches (.ok answer j) (.ok answer s)
  | error {e : Error} {j : Journal} {s : Rollup} (h : Represents j s) :
      Matches (.error e j) (.error e s)

namespace Represents

lemma sound (h : Represents j s) : s.Sound :=
  h.balanced.sound

lemma candles_eq (h : Represents j s) : j.pending.candles = s.table.candles :=
  h.balanced.candles_table.symm

lemma pending_eq_nil_iff (h : Represents j s) : j.pending = [] ↔ s.table.active = [] :=
  h.balanced.pending_eq_nil_iff

lemma emptied (h : Represents j s) : Represents j.emptied s.emptied where
  balanced :=
    { sound := h.sound.emptied
      active_eq := rfl
      candles_eq := h.balanced.candles_eq }
  periodStart_eq := h.periodStart_eq
  stats_eq := by
    rw [Journal.emptied, h.stats_eq]
    rfl

/-- The journal and the rollup open a period. -/
lemma roll (h : Represents j s) (start : Timestamp) :
    Represents { j with periodStart := some start } { s with periodStart := some start } where
  balanced :=
    { sound := h.sound.roll start
      active_eq := h.balanced.active_eq
      candles_eq := h.balanced.candles_eq }
  periodStart_eq := rfl
  stats_eq := h.stats_eq

/-- The journal and the rollup change a counter. -/
lemma count (h : Represents j s) (f : Stats → Stats) :
    Represents { j with stats := f j.stats } { s with stats := f s.stats } where
  balanced :=
    { sound := ⟨h.sound.table, h.sound.active_eq_nil⟩
      active_eq := h.balanced.active_eq
      candles_eq := h.balanced.candles_eq }
  periodStart_eq := h.periodStart_eq
  stats_eq := congrArg f h.stats_eq

/-- The journal accepts an offer that the table of the rollup takes in. -/
lemma accept (h : Represents j s) {table : ContractTable} (htaken : s.table.Taken o table)
    (hopen : s.periodStart = some start) :
    Represents (j.accept o) { s with table, stats.ticks := s.stats.ticks + o.ticks.length } where
  balanced := h.balanced.take ⟨htaken.wellFormed, fun hnone => by cases hopen.symm.trans hnone⟩
    htaken
  periodStart_eq := h.periodStart_eq
  stats_eq := by
    rw [Journal.accept, h.stats_eq]

lemma close (h : Represents j s) (complete : Bool) :
    Matches (j.close s.timeframe complete) (takeSummary complete s) := by
  have hclosing := Closing.of_takeSummary h.sound complete
  generalize takeSummary complete s = r at hclosing
  rw [Journal.close, h.periodStart_eq, h.candles_eq]
  cases hclosing with
  | idle hnil =>
    have hpending := h.pending_eq_nil_iff.mpr hnil
    cases s.periodStart with
    | none => exact .ok h
    | some start =>
      dsimp only
      rw [if_pos hpending]
      exact .ok h
  | overflowed hcandles =>
    have hsome : s.table.active ≠ [] := by
      intro hnil
      rw [ContractTable.candles, hnil] at hcandles
      cases hcandles
    cases hperiod : s.periodStart with
    | none => exact absurd (h.sound.active_eq_nil hperiod) hsome
    | some start =>
      dsimp only
      rw [if_neg (mt h.pending_eq_nil_iff.mp hsome), hcandles]
      exact .error h
  | emitted hperiod hsome hcandles =>
    rw [hperiod]
    dsimp only
    rw [if_neg (mt h.pending_eq_nil_iff.mp hsome), hcandles]
    exact .ok h.emptied

/-- A journal is asked what to do with an offer that finds no room. -/
lemma applyPolicy (h : Represents j s) (hkey : o.key ≠ .null) (hfit : o.Fits s.table.newBucket)
    (hsome : s.table.active ≠ []) (e : Error) :
    Matches (j.applyPolicy s.settings o e) (Rollup.applyPolicy o.key o.ticks.length o.add e s) := by
  rw [Journal.applyPolicy, show s.settings.overflow = s.overflow from rfl]
  cases hpolicy : s.overflow with
  | reject =>
    rw [applyPolicy_reject hpolicy]
    exact .error h
  | dropTick =>
    rw [applyPolicy_dropTick hpolicy]
    exact .ok (h.count fun c => { c with dropped := c.dropped + o.ticks.length })
  | earlyRollup =>
    rw [applyPolicy_earlyRollup hpolicy]
    have hclosing := Closing.of_takeSummary h.sound false
    have hclose := h.close false
    change Matches (match j.close s.timeframe false with | .error e j => _ | .ok early j => _) _
    generalize takeSummary false s = r at hclosing hclose
    generalize j.close s.timeframe false = r' at hclose
    cases hclosing with
    | idle hnil => exact absurd hnil hsome
    | overflowed =>
      cases hclose with
      | error h => exact .error h
    | emitted hperiod _ hcandles =>
      -- The rinsed table has room for any offer that fits a bucket without ticks.
      obtain ⟨table, hretry, htaken⟩ :=
        ContractTable.exists_insert_of_active_eq_nil h.sound.table.rinse rfl hkey hfit
      cases hclose with
      | @ok _ j' _ h' =>
        simp only [show ContractTable.insert o.key o.add s.emptied.table = _ from hretry]
        have hcounted := h'.count fun c => { c with earlyRollups := c.earlyRollups + 1 }
        exact .ok (hcounted.accept htaken hperiod)

/-- Ticks of the open period are accepted if there is room; if not, the policy is asked. -/
lemma offer_open (h : Represents j s) (hkey : o.key ≠ .null) (hfit : o.Fits s.table.newBucket)
    (hstart : s.timeframe.periodStart? o.timestamp = some start)
    (hopen : s.periodStart = some start) :
    Matches
      (match Roster.refusal? s.table.capacity s.table.active o with
        | none => .ok none (j.accept o)
        | some e => j.applyPolicy s.settings o e)
      (Rollup.offer o s) := by
  have hinserted := ContractTable.Inserted.of_insert h.sound.table hkey hfit
  rw [offer_of_rollTo_ok (rollTo_of_eq hstart hopen)]
  generalize hinsert : ContractTable.insert o.key o.add s.table = r at hinserted
  cases hinserted with
  | taken hroom htaken =>
    rw [store_of_ok hinsert, hroom]
    exact .ok (h.accept htaken hopen)
  | @refused e hroom hcapacity hsome =>
    rw [store_of_error hinsert hcapacity, hroom]
    have hpolicy := h.applyPolicy hkey hfit hsome e
    dsimp only
    generalize Rollup.applyPolicy o.key o.ticks.length o.add e s = r' at hpolicy
    cases r' <;> exact hpolicy

/-- Ticks of another period are accepted once the open one is emitted. -/
lemma offer_moved (h : Represents j s) (hkey : o.key ≠ .null) (hfit : o.Fits s.table.newBucket)
    (hstart : s.timeframe.periodStart? o.timestamp = some start)
    (hmoved : s.periodStart ≠ some start) :
    Matches
      (match j.close s.timeframe true with
        | .error e j => .error e j
        | .ok closed j => .ok closed ({ j with periodStart := some start }.accept o))
      (Rollup.offer o s) := by
  have hroll := rollTo_of_ne hstart hmoved
  have hclosing := Closing.of_takeSummary h.sound true
  have hclose := h.close true
  generalize takeSummary true s = r at hclosing hclose hroll
  generalize j.close s.timeframe true = r' at hclose
  cases hclose with
  | error h' =>
    rw [offer_of_rollTo_error hroll]
    exact .error h'
  | @ok closed j' s' h' =>
    -- Whether or not a summary was emitted, the table has no contracts left.
    have hnil : s'.table.active = [] ∧ s'.table.newBucket = s.table.newBucket := by
      cases hclosing with
      | idle hnil => exact ⟨hnil, rfl⟩
      | emitted => exact ⟨rfl, rfl⟩
    obtain ⟨table, htaken, hstore⟩ :=
      store_of_active_eq_nil (h'.sound.roll start) hnil.1 hkey (hnil.2 ▸ hfit)
    rw [offer_of_rollTo_ok hroll, hstore]
    simp only [Option.or_none]
    exact .ok ((h'.roll start).accept htaken rfl)

/-- A journal does to an offer what a rollup does. -/
lemma offer (h : Represents j s) (hkey : o.key ≠ .null) (hfit : o.Fits s.table.newBucket) :
    Matches (j.offer s.settings (Roster.refusal? s.table.capacity s.table.active o) o)
      (Rollup.offer o s) := by
  rw [Journal.offer.eq_def, show s.settings.timeframe = s.timeframe from rfl]
  cases hstart : s.timeframe.periodStart? o.timestamp with
  | none =>
    rw [offer_of_rollTo_error (rollTo_of_none hstart)]
    exact .error h
  | some start =>
    dsimp only
    rw [h.periodStart_eq]
    split_ifs with hopen
    · exact h.offer_open hkey hfit hstart hopen
    · exact h.offer_moved hkey hfit hstart hopen

/-- A journal that is told of the lack of room does to a request what a rollup does. -/
lemma call (h : Represents j s) (q : Request) :
    Matches (j.perform s.settings (q.misfit? s.table.newBucket) (q.refusal? s.table) q)
      (q.call s) := by
  cases hoffer : q.offer? with
  | some o =>
    rw [Request.call_of_offer? hoffer, Journal.perform.eq_def, Request.refusal?, hoffer]
    dsimp only
    split_ifs with hkey
    · exact .error h
    · cases hmisfit : q.misfit? s.table.newBucket with
      | some e => exact .error h
      | none => exact h.offer hkey (Request.fits_of_misfit? h.sound hoffer hmisfit)
  | none =>
    cases q with
    | tick | sandwich => cases hoffer
    | raw t =>
      cases hdecode : t.decode with
      | ok tick => simp [Request.offer?, hdecode] at hoffer
      | error e =>
        obtain ⟨-, rfl⟩ := RawTick.decode_eq_error hdecode
        rw [Request.call, processRaw_of_error hdecode, Journal.perform.eq_def, hoffer]
        exact .error (h.count fun c => { c with invalid := c.invalid + 1 })
    | close => exact h.close false

end Represents

end Rollup

end Candlestick
