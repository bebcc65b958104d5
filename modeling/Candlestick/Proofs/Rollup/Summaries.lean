import Candlestick.Proofs.Candle.Bar
import Candlestick.Proofs.Rollup.Batches

/-!
# What every summary shows

A summary is emitted from the table of a state that a run leads to, and shows what was pending
there (`Rollup.exists_origin`). So it has a candle for each of some contracts, and each candle is
folded from ticks of the period that it is for (`Rollup.wellFormed_of_mem_report`).
-/

namespace Candlestick

variable {config : RollupConfig} {start : Timestamp} {rs : List TickRecord}

/-! ### Well-formed summaries -/

/-- The candles of a contract sum up ticks of the period that starts at `start`. -/
structure ContractCandle.Covers (config : RollupConfig) (start : Timestamp) (c : ContractCandle) :
    Prop where
  /-- They are folded from ticks of the period, and from no others. -/
  ticks : ∃ rs, rs ≠ [] ∧ ofRecords rs = .ok c ∧
    ∀ r ∈ rs, config.timeframe.periodStart? r.timestamp = some start
  ticks_pos : 0 < c.candles.bid.ticks.toNat + c.candles.ask.ticks.toNat +
    c.candles.trade.ticks.toNat
  /-- There are numbers for all ticks that a bucket with one array has room for. -/
  tickCount_pos : (config.table.layout = .perCategory →
    3 * config.table.bucketSize.toNat < 2 ^ 64) → 1 ≤ c.tickCount
  moments : ∃ first last, c.firstAt = some first ∧ c.lastAt = some last ∧ first ≤ last ∧
    config.timeframe.periodStart? first = some start ∧
    config.timeframe.periodStart? last = some start
  ordered : ∀ category, (c.get category).isEmpty = false → (c.get category).Ordered

/-- A summary has candles of distinct contracts, each of ticks of its period. -/
structure Summary.WellFormed (config : RollupConfig) (summary : Summary) : Prop where
  timeframe_eq : summary.timeframe = config.timeframe
  candles_ne_nil : summary.candles ≠ []
  ne_null : ∀ entry ∈ summary.candles, entry.1 ≠ .null
  nodup_keys : (summary.candles.map Prod.fst).Nodup
  covers : ∀ entry ∈ summary.candles, entry.2.Covers config summary.periodStart
  get?_eq : ∀ key c, summary.get? key = some c ↔ (key, c) ∈ summary.candles

lemma ContractCandle.Covers.of_ofRecords {c : ContractCandle} (h : ofRecords rs = .ok c)
    (hrs : rs ≠ []) (hstart : ∀ r ∈ rs, config.timeframe.periodStart? r.timestamp = some start)
    (hroom : ∀ category,
      config.table.layout.share category rs ≤ config.table.bucketSize.toNat) :
    c.Covers config start := by
  have hpos : 0 < rs.length := List.length_pos_iff.mpr hrs
  have hticks (category : Category) :
      (c.get category).ticks.toNat = (category.select rs).length := by
    have hle := (Layout.length_select_le_share _ category rs).trans (hroom category)
    rw [ticks_ofRecords h]
    exact UInt64.toNat_ofNat_of_lt' (hle.trans_lt (UInt64.toNat_lt _))
  constructor
  · exact ⟨rs, hrs, h, hstart⟩
  · rw [show c.candles.bid.ticks.toNat = _ from hticks .bid,
      show c.candles.ask.ticks.toNat = _ from hticks .ask,
      show c.candles.trade.ticks.toNat = _ from hticks .trade, Category.length_select]
    exact hpos
  · intro hsize
    have hlt : rs.length < 2 ^ 64 := by
      refine (Layout.length_le_room hroom).trans_lt ?_
      cases hlayout : config.table.layout with
      | flat => exact UInt64.toNat_lt _
      | perCategory => exact hsize hlayout
    rw [tickCount_ofRecords h, UInt64.le_iff_toNat_le, UInt64.toNat_ofNat_of_lt' hlt]
    exact hpos
  · obtain ⟨first, hfirst, last, hlast, hfirstAt, hlastAt, hbounds⟩ := exists_moments h hrs
    exact ⟨_, _, hfirstAt, hlastAt, (hbounds last hlast).1, hstart first hfirst,
      hstart last hlast⟩
  · exact ordered_ofRecords h

namespace Rollup

variable {s s' : Rollup} {q : Request} {qs : List Request} {summary : Summary} {r : Outcome}

/-! ### Where summaries come from -/

/-- A state that a summary can be emitted from. -/
structure Emits (s : Rollup) (summary : Summary) : Prop where
  active_ne_nil : s.table.active ≠ []
  candles_eq : s.table.candles = .ok summary.candles
  periodStart_eq : s.periodStart = some summary.periodStart
  timeframe_eq : summary.timeframe = s.timeframe

lemma Emits.of_closing {complete : Bool} (h : Closing s complete r)
    (hsummary : summaryOf r = some summary) : Emits s summary := by
  cases h with
  | idle | overflowed => cases hsummary
  | emitted hperiod hsome hcandles =>
    cases hsummary
    exact ⟨hsome, hcandles, hperiod, rfl⟩

lemma Emits.of_call (h : s.Sound) (hsummary : summaryOf (q.call s) = some summary) :
    Emits s summary := by
  have hperformed := Performed.of_call h q
  generalize q.call s = r at hperformed hsummary
  cases hperformed with
  | undecodable | null | misfit => cases hsummary
  | closed hclosing => exact .of_closing hclosing hsummary
  | offered _ _ _ hadmission =>
    cases hadmission with
    | unalignable | overflowed | stored | rejected | dropped | opened => cases hsummary
    | split _ hopen _ _ hsome hcandles | closed _ _ hopen hsome hcandles =>
      cases hsummary
      exact ⟨hsome, hcandles, hopen, rfl⟩

lemma report_cons (s : Rollup) (q : Request) (qs : List Request) :
    report s (q :: qs) = (summaryOf (q.call s)).toList ++ report (stateOf (q.call s)) qs :=
  List.append_assoc _ _ _

/-- Each summary is emitted from the state that some of the requests lead to. -/
lemma exists_emits (h : s.Sound) (hsummary : summary ∈ report s qs) :
    ∃ before, Emits (stateAfter s before) summary := by
  induction qs generalizing s with
  | nil =>
    rw [report, summaries, List.nil_append, Option.mem_toList] at hsummary
    exact ⟨[], .of_closing (.of_takeSummary h true) hsummary⟩
  | cons q qs ih =>
    rw [report_cons] at hsummary
    rcases List.mem_append.mp hsummary with hnow | hlater
    · exact ⟨[], .of_call h (Option.mem_toList.mp hnow)⟩
    · obtain ⟨before, hemits⟩ := ih (sound_call h q) hlater
      exact ⟨q :: before, hemits⟩

lemma within_stateAfter (h : s.Sound) (hwithin : s.Within) (qs : List Request) :
    (stateAfter s qs).Within := by
  induction qs generalizing s with
  | nil => exact hwithin
  | cons q qs ih => exact ih (sound_call h q) (within_call h hwithin q)

/-- The ticks that a summary shows. -/
structure Origin (config : RollupConfig) (summary : Summary) (f : Feed) : Prop where
  timeframe_eq : summary.timeframe = config.timeframe
  ne_nil : f ≠ []
  candles_eq : f.candles = .ok summary.candles
  within : f.Within config.timeframe summary.periodStart
  ne_null : ∀ key ∈ f.keys, key ≠ .null
  share_le : ∀ key ∈ f.keys, ∀ category,
    config.table.layout.share category (f.ticksOf key) ≤ config.table.bucketSize.toNat

/-- A summary shows what is pending when it is emitted. -/
lemma Origin.of_emits {l : Ledger} (h : l.Balanced) (hdated : l.Dated config.timeframe)
    (hwithin : l.state.Within) (hsettings : l.state.settings = config)
    (hemits : Emits l.state summary) : Origin config summary l.pending where
  timeframe_eq := hemits.timeframe_eq.trans (congrArg RollupConfig.timeframe hsettings)
  ne_nil := mt h.pending_eq_nil_iff.mp hemits.active_ne_nil
  candles_eq := h.candles_table.symm.trans hemits.candles_eq
  within := hdated.pending _ hemits.periodStart_eq
  ne_null key hkey := by
    obtain ⟨i, howned, hb⟩ := h.sound.table.mem_active_iff.mp (h.mem_active hkey)
    exact hb ▸ (ContractTable.owned?_eq_some_iff.mp howned).2
  share_le key hkey category := by
    have hsize := hwithin _ (h.mem_active hkey) category
    rw [Bucket.size_array_pushAll, Bucket.capacity_pushAll] at hsize
    have hlayout : (l.state.table.newBucket.claim key).layout = l.state.table.config.layout :=
      Storage.layout_empty _
    rw [hlayout] at hsize
    rw [← hsettings]
    exact (Nat.le_add_left _ _).trans hsize

/-- Each summary of a run shows ticks of its period. -/
lemma exists_origin (h : ofConfig config = .ok s) (hsummary : summary ∈ report s qs) :
    ∃ f, Origin config summary f := by
  have hs := Sound.of_ofConfig h
  obtain ⟨hnil, rfl⟩ := eq_of_ofConfig h
  have hstart := Ledger.Balanced.start hs hnil
  obtain ⟨before, hemits⟩ := exists_emits hs hsummary
  have hwithin := within_stateAfter hs (Ledger.Measured.start hnil).within before
  have hstate := Ledger.state_run (.start s) before
  refine ⟨_, .of_emits (hstart.run before) ((Ledger.Dated.start s).run hstart before) ?_
    (Ledger.settings_run hstart before) ?_⟩
  · rw [hstate]
    exact hwithin
  · rw [hstate]
    exact hemits

/--
Every summary of a run from usable settings, the one at the end included, has at least one candle,
and those of distinct contracts. Each candle is folded from ticks of the period of the summary, has
counted at least one, and keeps its prices in order. A contract is found just if it is listed.
-/
theorem wellFormed_of_mem_report (h : ofConfig config = .ok s) (qs : List Request) :
    ∀ summary ∈ report s qs, summary.WellFormed config := by
  intro summary hsummary
  obtain ⟨f, hf⟩ := exists_origin h hsummary
  obtain ⟨hkeys, hcandles⟩ := Feed.candles_eq_ok hf.candles_eq
  have hnodup : (summary.candles.map Prod.fst).Nodup := hkeys ▸ f.nodup_keys
  have hmem (entry : ContractKey × ContractCandle) (hentry : entry ∈ summary.candles) :
      entry.1 ∈ f.keys := hkeys ▸ List.mem_map_of_mem hentry
  constructor
  · exact hf.timeframe_eq
  · intro hnil
    rw [hnil] at hkeys
    exact hf.ne_nil (Feed.keys_eq_nil_iff.mp hkeys.symm)
  · intro entry hentry
    exact hf.ne_null _ (hmem entry hentry)
  · exact hnodup
  · intro entry hentry
    have hkey := hmem entry hentry
    refine .of_ofRecords (hcandles entry hentry) (Feed.ticksOf_ne_nil hkey) ?_
      (hf.share_le _ hkey)
    intro r hr
    exact hf.within _ (Feed.mem_ticksOf_iff.mp hr)
  · intro key c
    exact Summary.get?_eq_some_iff hnodup

/-- The summary that a second contract forces is as well-formed as the one that follows it. -/
theorem wellFormed_of_mem_report_narrow :
    ofConfig ⟨⟨1, 1, .flat, 0⟩, .minute1, .earlyRollup⟩ = .ok (narrow .earlyRollup) ∧
      ∃ early last : Summary,
        report (narrow .earlyRollup)
          [.tick ⟨1, 0, 0⟩ narrowTick, .tick ⟨2, 0, 0⟩ narrowTick] = [early, last] ∧
        early.WellFormed ⟨⟨1, 1, .flat, 0⟩, .minute1, .earlyRollup⟩ ∧
        last.WellFormed ⟨⟨1, 1, .flat, 0⟩, .minute1, .earlyRollup⟩ := by
  have hfresh := ofConfig_narrow .earlyRollup
  have hwell := wellFormed_of_mem_report hfresh
    [.tick ⟨1, 0, 0⟩ narrowTick, .tick ⟨2, 0, 0⟩ narrowTick]
  have hreport : ∃ early last, report (narrow .earlyRollup)
      [.tick ⟨1, 0, 0⟩ narrowTick, .tick ⟨2, 0, 0⟩ narrowTick] = [early, last] := ⟨_, _, rfl⟩
  obtain ⟨early, last, hreport⟩ := hreport
  rw [hreport] at hwell
  exact ⟨hfresh, early, last, hreport, hwell early List.mem_cons_self,
    hwell last (List.mem_cons_of_mem early List.mem_cons_self)⟩

end Rollup

end Candlestick
