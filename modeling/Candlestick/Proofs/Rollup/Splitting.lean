import Candlestick.Proofs.Rollup.Agreement
import Candlestick.Proofs.Rollup.Batches
import Candlestick.Proofs.Rollup.Protocol

/-!
# Splitting a period loses nothing

A rollup that always has room emits one summary for each period. One that splits periods, to make
room or because it is asked to, emits several; merged in their order, the candles of a contract in
them are the candle in the one summary (`Rollup.mergeAll_pieces`).
-/

namespace Candlestick

open ContractCandle (Sums Exact mergeAll)

namespace Feed

variable {f : Feed} {timeframe : Timeframe} {start : Timestamp}

/-- The ticks of a contract that lie in the period with the given start. -/
def ticksIn (timeframe : Timeframe) (p : Timestamp) (key : ContractKey) (f : Feed) :
    List TickRecord :=
  ticksOf (f.filter fun entry => timeframe.periodStart? entry.2.timestamp = some p) key

lemma ticksIn_append (timeframe : Timeframe) (p : Timestamp) (key : ContractKey) (f g : Feed) :
    ticksIn timeframe p key (f ++ g) = f.ticksIn timeframe p key ++ g.ticksIn timeframe p key := by
  rw [ticksIn, List.filter_append, ticksOf_append]
  rfl

/-- A feed that lies within one period has all its ticks in that one. -/
lemma Within.ticksIn_eq (h : f.Within timeframe start) (p : Timestamp) (key : ContractKey) :
    f.ticksIn timeframe p key = if start = p then f.ticksOf key else [] := by
  rw [ticksIn]
  split_ifs with hp
  · rw [List.filter_eq_self.mpr]
    intro entry hentry
    exact decide_eq_true (hp ▸ h entry hentry)
  · rw [List.filter_eq_nil_iff.mpr]
    · rfl
    · intro entry hentry hin
      exact hp (Option.some.inj ((h entry hentry).symm.trans (of_decide_eq_true hin)))

end Feed

namespace Rollup

variable {s s' : Rollup} {q : Request} {qs : List Request} {summary : Summary} {e : Emission}
variable {timeframe : Timeframe} {f : Feed} {p : Timestamp} {key : ContractKey}
variable {summaries : List Summary} {c : ContractCandle} {cs : List ContractCandle}
variable {rss : List (List TickRecord)}

/-- The candles of a contract in the summaries of a period, in their order. -/
def pieces (p : Timestamp) (key : ContractKey) (summaries : List Summary) : List ContractCandle :=
  (summaries.filter (·.periodStart = p)).filterMap (·.get? key)

/-- The requests without those for a summary. -/
def unasked (qs : List Request) : List Request :=
  qs.filter (· ≠ .close)

/-! ### What is accepted -/

/-- Ticks of a call that succeeds are accepted if there is room, or room is made. -/
lemma taken_eq_legs {summary : Option Summary} (hs : s.Sound) (hcall : q.call s = .ok summary s')
    (hkeep : s.overflow = .earlyRollup ∨ q.isCrowded s = false) : q.taken s = q.legs := by
  have hperformed := Performed.of_call hs q
  rw [Request.taken]
  rw [hcall] at hperformed ⊢
  cases hperformed with
  | offered hoffer hkey _ hadmission =>
    cases hadmission with
    | stored | split | opened | closed => exact if_neg (Nat.lt_irrefl _)
    | dropped hstart hopen hroom hpolicy =>
      rcases hkeep with hearly | hcrowded
      · cases hearly.symm.trans hpolicy
      · have hnone := Request.refusal?_eq_none hs hcrowded hoffer hkey hstart hopen
        cases hroom.symm.trans hnone
  | closed => exact ite_self _

lemma accepted_eq_legs (hs : s.Sound) (hkeep : s.overflow = .earlyRollup ∨ Roomy s qs)
    (hclean : Clean s qs) : accepted s qs = qs.flatMap Request.legs := by
  induction qs generalizing s with
  | nil => rfl
  | cons q qs ih =>
    obtain ⟨⟨summary, s', hcall, -⟩, hrest⟩ := hclean
    have hkeep' : (stateOf (q.call s)).overflow = .earlyRollup ∨ Roomy (stateOf (q.call s)) qs :=
      hkeep.imp (congrArg RollupConfig.overflow (settings_call hs q)).trans (·.2)
    rw [accepted, List.flatMap_cons, ih (sound_call hs q) hkeep' hrest]
    exact congrArg (· ++ _) (taken_eq_legs hs hcall (hkeep.imp id (·.1)))

/-- Asking for summaries adds no ticks. -/
lemma flatMap_legs_unasked (qs : List Request) :
    (unasked qs).flatMap Request.legs = qs.flatMap Request.legs := by
  induction qs with
  | nil => rfl
  | cons q qs ih =>
    rw [unasked] at ih ⊢
    by_cases hq : q = .close
    · subst hq
      exact ih
    · rw [List.filter_cons_of_pos (by simpa using hq), List.flatMap_cons, List.flatMap_cons, ih]

lemma ordered_unasked (h : Request.Ordered qs) : Request.Ordered (unasked qs) :=
  h.sublist (List.filter_sublist.filterMap _)

lemma ne_close_of_mem_unasked (h : q ∈ unasked qs) : q ≠ .close := by
  simpa using (List.mem_filter.mp h).2

/-! ### One summary for each period -/

/-- With room, a call emits no part of a period unless it is asked to. -/
lemma complete_of_roomy (hs : s.Sound) (hq : q ≠ .close) (hcrowded : q.isCrowded s = false)
    (hsummary : summaryOf (q.call s) = some summary) : summary.complete := by
  have hperformed := Performed.of_call hs q
  generalize q.call s = r at hperformed hsummary
  cases hperformed with
  | undecodable | null | misfit => cases hsummary
  | offered hoffer hkey _ hadmission =>
    cases hadmission with
    | unalignable | overflowed | stored | rejected | dropped | opened => cases hsummary
    | split hstart hopen hroom =>
      have hnone := Request.refusal?_eq_none hs hcrowded hoffer hkey hstart hopen
      cases hroom.symm.trans hnone
    | closed =>
      cases hsummary
      rfl
  | closed => exact absurd rfl hq

lemma complete_of_mem_emissions (hs : s.Sound) (hqs : ∀ q ∈ qs, q ≠ .close) (hroom : Roomy s qs)
    (he : e ∈ emissions s qs) : e.summary.complete := by
  induction qs generalizing s with
  | nil => exact (eq_of_mem_emissions_nil hs he).2.1
  | cons q qs ih =>
    obtain ⟨hq, hqs⟩ := List.forall_mem_cons.mp hqs
    rcases List.mem_append.mp he with he | he
    · rw [Option.mem_toList, Request.emission?, Option.map_eq_some_iff] at he
      obtain ⟨summary, hsummary, rfl⟩ := he
      exact complete_of_roomy hs hq hroom.1 hsummary
    · exact ih (sound_call hs q) hqs hroom.2 he

/-- Summaries that are all complete are of different periods. -/
lemma Orderly.nodup_starts (h : Orderly (emissions s qs))
    (hcomplete : ∀ e ∈ emissions s qs, e.summary.complete) :
    ((report s qs).map (·.periodStart)).Nodup := by
  rw [← map_summary_emissions, List.Nodup, List.pairwise_map, List.pairwise_map]
  exact h.final.imp_of_mem fun he _ hne => (hne (hcomplete _ he)).symm

/-! ### Pieces -/

lemma pieces_cons (p : Timestamp) (key : ContractKey) (summary : Summary)
    (summaries : List Summary) :
    pieces p key (summary :: summaries) =
      (if summary.periodStart = p then (summary.get? key).toList else []) ++
        pieces p key summaries := by
  rw [pieces, List.filter_cons]
  split_ifs with hp hq hq
  · rw [List.filterMap_cons]
    cases summary.get? key <;> rfl
  · exact absurd (of_decide_eq_true hp) hq
  · exact absurd (decide_eq_true hq) hp
  · rfl

lemma pieces_eq_nil (h : p ∉ summaries.map (·.periodStart)) : pieces p key summaries = [] := by
  rw [pieces, List.filter_eq_nil_iff.mpr]
  · rfl
  · intro summary hsummary hp
    exact h (of_decide_eq_true hp ▸ List.mem_map_of_mem hsummary)

/-- If there is one summary for each period, there is one piece. -/
lemma pieces_eq_singleton (h : (summaries.map (·.periodStart)).Nodup)
    (hc : c ∈ pieces p key summaries) : pieces p key summaries = [c] := by
  induction summaries with
  | nil => cases hc
  | cons summary summaries ih =>
    obtain ⟨hnew, hnodup⟩ := List.nodup_cons.mp h
    rw [pieces_cons] at hc ⊢
    split_ifs at hc ⊢ with hp
    · rw [pieces_eq_nil (hp ▸ hnew), List.append_nil] at hc ⊢
      rw [Option.mem_toList] at hc
      rw [hc]
      rfl
    · exact ih hnodup hc

/-- A piece sums up some ticks exactly. -/
structure Piece (c : ContractCandle) (rs : List TickRecord) : Prop where
  sums : c.Sums rs
  ne_nil : rs ≠ []
  exact : Exact rs

/-- The candle of a contract in a summary is a piece of its ticks, if it has any. -/
lemma Accounts.get? (h : Accounts timeframe summary f) (key : ContractKey) :
    f.ticksOf key = [] ∧ summary.get? key = none ∨
      ∃ c, summary.get? key = some c ∧ Piece c (f.ticksOf key) := by
  obtain ⟨hkeys, hcandles⟩ := Feed.candles_eq_ok h.candles_eq
  have hnodup : (summary.candles.map Prod.fst).Nodup := hkeys ▸ f.nodup_keys
  by_cases hkey : key ∈ f.keys
  · rw [← hkeys] at hkey
    obtain ⟨⟨key, c⟩, hentry, rfl⟩ := List.mem_map.mp hkey
    obtain ⟨c', hrecords, hsums⟩ := Sums.of_ofRecords (h.exact key)
    cases (hcandles _ hentry).symm.trans hrecords
    refine .inr ⟨c, (Summary.get?_eq_some_iff hnodup).mpr hentry, hsums, ?_, h.exact key⟩
    exact Feed.ticksOf_ne_nil (hkeys ▸ hkey)
  · refine .inl ⟨Feed.ticksOf_eq_nil hkey, Option.eq_none_iff_forall_ne_some.mpr fun c hc => ?_⟩
    have hentry := (Summary.get?_eq_some_iff hnodup).mp hc
    exact hkey (hkeys ▸ List.mem_map_of_mem hentry)

/-- The pieces of a contract in a period are of its ticks in that period, cut into runs. -/
lemma exists_runs {batches : List (Summary × Feed)}
    (h : ∀ batch ∈ batches, Accounts timeframe batch.1 batch.2) (p : Timestamp)
    (key : ContractKey) :
    ∃ rss, List.Forall₂ Piece (pieces p key (batches.map Prod.fst)) rss ∧
      rss.flatten = Feed.ticksIn timeframe p key (batches.map Prod.snd).flatten := by
  induction batches with
  | nil => exact ⟨[], .nil, rfl⟩
  | cons batch batches ih =>
    obtain ⟨haccounts, hrest⟩ := List.forall_mem_cons.mp h
    obtain ⟨rss, hpieces, hflatten⟩ := ih hrest
    rw [List.map_cons, List.map_cons, List.flatten_cons, Feed.ticksIn_append, pieces_cons,
      haccounts.within.ticksIn_eq, ← hflatten]
    split_ifs with hp
    · rcases haccounts.get? key with ⟨hnil, hnone⟩ | ⟨c, hsome, hpiece⟩
      · rw [hnone, hnil]
        exact ⟨rss, hpieces, rfl⟩
      · rw [hsome]
        exact ⟨_ :: rss, .cons hpiece hpieces, rfl⟩
    · exact ⟨rss, hpieces, rfl⟩

lemma eq_nil_iff_of_pieces (h : List.Forall₂ Piece cs rss) : cs = [] ↔ rss.flatten = [] := by
  cases h with
  | nil => simp
  | cons hpiece => simp [hpiece.ne_nil]

/-- Pieces of the ticks that a candle sums up are merged to that candle. -/
lemma Piece.mergeAll {rs : List TickRecord} (hc : Piece c rs) (h : List.Forall₂ Piece cs rss)
    (hflatten : rss.flatten = rs) : ∃ m, mergeAll cs = .ok m ∧ m.sameNumbers c := by
  subst hflatten
  obtain ⟨m, hm, hsums⟩ := Sums.nil.mergeFrom (h.imp fun _ _ hpiece => hpiece.sums) hc.exact
  exact ⟨m, hm, hsums.sameNumbers hc.sums⟩

/--
A rollup that always has room has one summary for each period. In the summaries of a rollup that
makes room by early rollups, is asked for summaries in between, and gets the same ticks, each
contract has candles for the same periods, those of its ticks, and they are merged to the candle in
that one summary.
-/
theorem mergeAll_pieces {c d : RollupConfig} {t : Rollup} (hs : ofConfig c = .ok s)
    (ht : ofConfig d = .ok t) (htimeframe : c.timeframe = d.timeframe)
    (hpolicy : d.overflow = .earlyRollup) (hordered : Request.Ordered qs)
    (hroom : Roomy s (unasked qs)) (hclean : Clean s (unasked qs)) (hclean' : Clean t qs) :
    ((report s (unasked qs)).map (·.periodStart)).Nodup ∧
      ∀ p key,
        (pieces p key (report s (unasked qs)) = [] ↔ pieces p key (report t qs) = []) ∧
        (pieces p key (report s (unasked qs)) = [] ↔
          Feed.ticksIn c.timeframe p key (qs.flatMap Request.legs) = []) ∧
        ∀ candle ∈ pieces p key (report s (unasked qs)),
          ∃ m, mergeAll (pieces p key (report t qs)) = .ok m ∧ m.sameNumbers candle := by
  obtain ⟨batches, ⟨rest, s', hfinish⟩, hwhole, haccepted, haccounts⟩ := exists_batches hs hclean
  obtain ⟨batches', -, hsplit, haccepted', haccounts'⟩ := exists_batches ht hclean'
  have horderly := Orderly.of_ahead (.of_ofConfig hs) (ordered_unasked hordered) (.of_ofConfig hs _)
    hfinish
  have hnodup := horderly.nodup_starts fun e he =>
    complete_of_mem_emissions (.of_ofConfig hs) (fun q hq => ne_close_of_mem_unasked hq) hroom he
  refine ⟨hnodup, fun p key => ?_⟩
  -- Both runs accept all ticks.
  have hearly : t.overflow = .earlyRollup :=
    (congrArg RollupConfig.overflow (eq_of_ofConfig ht).2).trans hpolicy
  rw [accepted_eq_legs (.of_ofConfig hs) (.inr hroom) hclean, flatMap_legs_unasked] at haccepted
  rw [accepted_eq_legs (.of_ofConfig ht) (.inl hearly) hclean'] at haccepted'
  obtain ⟨rss, hpieces, hflatten⟩ := exists_runs haccounts p key
  obtain ⟨rss', hpieces', hflatten'⟩ := exists_runs haccounts' p key
  rw [hwhole] at hpieces
  rw [haccepted] at hflatten
  rw [hsplit] at hpieces'
  rw [haccepted', ← htimeframe] at hflatten'
  refine ⟨?_, ?_, ?_⟩
  · rw [eq_nil_iff_of_pieces hpieces, eq_nil_iff_of_pieces hpieces', hflatten, hflatten']
  · rw [eq_nil_iff_of_pieces hpieces, hflatten]
  · intro candle hcandle
    rw [pieces_eq_singleton hnodup hcandle] at hpieces
    cases hpieces with
    | cons hpiece hnil =>
      cases hnil
      exact hpiece.mergeAll hpieces' (hflatten'.trans (hflatten.symm.trans (List.append_nil _)))

/-- A trade of two at three. -/
def trade : TickRecord :=
  { narrowTick with
    price := { Decimal.zero with magnitude := 3, magnitude_lt := by decide }
    quantity := { Decimal.zero with magnitude := 2, magnitude_lt := by decide } }

/-- Trades that a narrow rollup has no room for at once, with a summary that is asked for. -/
def trades : List Request :=
  [.tick ⟨1, 0, 0⟩ trade, .tick ⟨1, 0, 0⟩ trade, .close, .tick ⟨1, 0, 0⟩ trade]

/-- Three pieces of a narrow rollup are merged to the candle of a wide one. -/
theorem mergeAll_pieces_trades :
    ofConfig ⟨⟨2, 8, .perCategory, 7⟩, .minute1, .dropTick⟩ = .ok wide ∧
      Request.Ordered trades ∧ Roomy wide (unasked trades) ∧ Clean wide (unasked trades) ∧
      Clean (narrow .earlyRollup) trades ∧
      (pieces trade.timestamp ⟨1, 0, 0⟩ (report (narrow .earlyRollup) trades)).length = 3 ∧
      ∃ candle m, pieces trade.timestamp ⟨1, 0, 0⟩ (report wide (unasked trades)) = [candle] ∧
        mergeAll (pieces trade.timestamp ⟨1, 0, 0⟩ (report (narrow .earlyRollup) trades)) = .ok m ∧
        m.sameNumbers candle := by
  have hwide : ofConfig ⟨⟨2, 8, .perCategory, 7⟩, .minute1, .dropTick⟩ = .ok wide := rfl
  have hordered : Request.Ordered trades := by
    change [trade.timestamp, trade.timestamp, trade.timestamp].Pairwise (· ≤ ·)
    simp
  have hroom : Roomy wide (unasked trades) := ⟨rfl, rfl, rfl, trivial⟩
  have hone : Decimal.zero.AddsUp [trade.quantity] := ⟨_, rfl, by decide +kernel, trivial⟩
  have hthree : Decimal.zero.AddsUp [trade.quantity, trade.quantity, trade.quantity] :=
    ⟨_, rfl, by decide +kernel, _, rfl, by decide +kernel, _, rfl, by decide +kernel, trivial⟩
  have hclean : Clean wide (unasked trades) := by
    refine ⟨⟨none, _, rfl, fun h => by cases h⟩, ⟨none, _, rfl, fun h => by cases h⟩,
      ⟨none, _, rfl, fun h => by cases h⟩, ?_⟩
    intro entry hentry
    cases List.mem_singleton.mp hentry
    exact hthree
  have hclean' : Clean (narrow .earlyRollup) trades := by
    refine ⟨⟨none, _, rfl, fun h => by cases h⟩, ⟨some _, _, rfl, fun _ => ?_⟩,
      ⟨some _, _, rfl, fun _ => ?_⟩, ⟨none, _, rfl, fun h => by cases h⟩, ?_⟩
    all_goals
      intro entry hentry
      cases List.mem_singleton.mp hentry
      exact hone
  obtain ⟨-, hpieces⟩ := mergeAll_pieces hwide (ofConfig_narrow .earlyRollup) rfl rfl hordered hroom
    hclean hclean'
  have hwhole : ∃ candle, pieces trade.timestamp ⟨1, 0, 0⟩ (report wide (unasked trades)) =
      [candle] := ⟨_, rfl⟩
  obtain ⟨candle, hwhole⟩ := hwhole
  obtain ⟨m, hm, hsame⟩ := (hpieces _ _).2.2 candle (hwhole ▸ List.mem_singleton.mpr rfl)
  exact ⟨hwide, hordered, hroom, hclean, hclean', rfl, candle, m, hwhole, hm, hsame⟩

end Rollup

end Candlestick
