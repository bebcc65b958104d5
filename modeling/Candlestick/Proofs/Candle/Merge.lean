import Candlestick.Proofs.Candle.Fold
import Candlestick.Proofs.Candle.Prices

/-!
# Merging candles

The candles of consecutive runs of ticks can be merged: the first price is that of the first run
with ticks, the last price that of the last one, and volumes are added. What comes out sums up the
runs put together (`ContractCandle.Sums.mergeFrom`), unless a volume has no room or there are too
many ticks to count.
-/

namespace Candlestick

open Decimal (Overflow)

variable {rs ss : List TickRecord} {f : TickRecord → ℚ}

namespace Candle

open ContractCandle (quotesFrom tradesFrom)

variable {c d : Candle} {v : Decimal}

/-- The candle of two runs with ticks, the first of them before the second, given the volume. -/
def join (c d : Candle) (volume : Decimal) : Candle where
  opening := c.opening
  high := c.high.max d.high
  low := c.low.min d.low
  closing := d.closing
  ticks := c.ticks + d.ticks
  volume

/-- The candle of two runs, the first of them before the second. -/
def merge (c d : Candle) : Except Overflow Candle :=
  if d.isEmpty then .ok c
  else if c.isEmpty then .ok d
  else (c.volume.add d.volume).map (c.join d)

/-- The candle sums up ticks: their prices as they are folded, what they trade as a number. -/
structure Sums (f : TickRecord → ℚ) (c : Candle) (rs : List TickRecord) : Prop where
  prices_eq : { c with volume := .zero } = quotesFrom .empty rs
  volume_eq : c.volume.toRat = (rs.map f).sum

/-! ### Prices -/

lemma quotesFrom_append_singleton (c : Candle) (rs : List TickRecord) (r : TickRecord) :
    quotesFrom c (rs ++ [r]) = (quotesFrom c rs).improve r.price :=
  List.foldl_append

lemma quotesFrom_eq_foldl (c : Candle) (rs : List TickRecord) :
    quotesFrom c rs = (rs.map (·.price)).foldl improve c :=
  List.foldl_map.symm

lemma quotesFrom_withVolume (c : Candle) (v : Decimal) (rs : List TickRecord) :
    quotesFrom { c with volume := v } rs = { quotesFrom c rs with volume := v } := by
  rw [quotesFrom_eq_foldl, quotesFrom_eq_foldl, foldl_improve_withVolume]

lemma volume_quotesFrom (c : Candle) (rs : List TickRecord) :
    (quotesFrom c rs).volume = c.volume := by
  induction rs generalizing c with
  | nil => rfl
  | cons r rs ih => exact ih (c.improve r.price)

lemma ticks_quotesFrom (c : Candle) (rs : List TickRecord) :
    (quotesFrom c rs).ticks = c.ticks + .ofNat rs.length := by
  induction rs generalizing c with
  | nil => simp [quotesFrom]
  | cons r rs ih =>
    have htail : (quotesFrom c (r :: rs)).ticks = c.ticks + 1 + .ofNat rs.length :=
      ih (c.improve r.price)
    rw [htail, List.length_cons, UInt64.ofNat_add, UInt64.add_assoc, UInt64.add_comm 1]
    rfl

lemma isEmpty_quotesFrom (h : rs.length < 2 ^ 64) :
    (quotesFrom .empty rs).isEmpty ↔ rs = [] := by
  have hticks : (quotesFrom .empty rs).ticks = .ofNat rs.length := by
    rw [ticks_quotesFrom]
    exact UInt64.zero_add _
  rw [isEmpty, hticks, beq_iff_eq, ← UInt64.toNat_inj, UInt64.toNat_ofNat_of_lt' h]
  exact List.length_eq_zero_iff

lemma Sums.isEmpty_iff (h : c.Sums f rs) (hlen : rs.length < 2 ^ 64) :
    c.isEmpty ↔ rs = [] := by
  rw [← isEmpty_quotesFrom hlen, ← h.prices_eq]
  rfl

/-- A price that is folded into the second run is folded into both. -/
lemma join_improve (hd : d.isEmpty = false) (hjoin : (c.join d v).isEmpty = false)
    (price : Decimal) : c.join (d.improve price) v = (c.join d v).improve price := by
  simp only [improve, hd, hjoin, Bool.false_eq_true, if_false]
  simp only [join, Decimal.max_assoc, Decimal.min_assoc, UInt64.add_assoc]

/-- The first price of the second run is the next one after the first run. -/
lemma join_first (hc : c.isEmpty = false) (price : Decimal) :
    c.join (Candle.empty.improve price) c.volume = c.improve price := by
  have hempty : Candle.empty.isEmpty = true := rfl
  simp only [improve, hc, hempty, Bool.false_eq_true, if_false, if_true]
  rfl

lemma join_quotesFrom (hrs : rs ≠ []) (hss : ss ≠ []) (hlen : (rs ++ ss).length < 2 ^ 64) :
    (quotesFrom .empty rs).join (quotesFrom .empty ss) .zero = quotesFrom .empty (rs ++ ss) := by
  have hne (ts : List TickRecord) (hts : ts ≠ []) (hshort : ts.length < 2 ^ 64) :
      (quotesFrom .empty ts).isEmpty = false :=
    Bool.eq_false_iff.mpr (mt (isEmpty_quotesFrom hshort).mp hts)
  -- Prices are folded in at the end of a run, so the second run is taken apart from its end.
  induction ss using List.reverseRecOn with
  | nil => exact absurd rfl hss
  | append_singleton ss r ih =>
    simp only [List.length_append, List.length_singleton] at hlen ih
    rw [← List.append_assoc, quotesFrom_append_singleton, quotesFrom_append_singleton]
    by_cases hnil : ss = []
    · subst hnil
      have hfirst := join_first (hne rs hrs (by omega)) r.price
      rw [volume_quotesFrom] at hfirst
      rw [List.append_nil]
      exact hfirst
    · have hjoin := ih hnil (by omega)
      rw [join_improve (hne ss hnil (by omega)), hjoin]
      rw [hjoin]
      exact hne _ (List.append_ne_nil_of_left_ne_nil hrs ss) (by rw [List.length_append]; omega)

/-! ### Volumes -/

/-- What a trade has for the candle of its category. -/
def Tick.ofTrade (r : TickRecord) : Tick :=
  ⟨r.price, some r.quantity⟩

/-- Trades are folded as prices, and their quantities apart from these. -/
lemma tradesFrom_eq (c : Candle) (rs : List TickRecord) :
    tradesFrom c rs =
      ((rs.map (·.quantity)).foldlM Decimal.add c.volume).map fun volume =>
        { quotesFrom c rs with volume } := by
  have hticks : (rs.map Tick.ofTrade).foldlM take c = tradesFrom c rs := List.foldlM_map
  have hquantities : quantities (rs.map Tick.ofTrade) = rs.map (·.quantity) := by
    rw [quantities, List.filterMap_map]
    exact congrFun List.filterMap_eq_map rs
  have hprices : (rs.map Tick.ofTrade).map (·.price) = rs.map (·.price) := List.map_map
  rw [← hticks, foldlM_take, hquantities, hprices, quotesFrom_eq_foldl]

/-- Trades whose quantities add up are folded as prices, and their volume is the sum. -/
lemma tradesFrom_of_addsUp (h : c.volume.AddsUp (rs.map (·.quantity))) :
    ∃ volume : Decimal, tradesFrom c rs = .ok { quotesFrom c rs with volume } ∧
      volume.toRat = c.volume.toRat + (rs.map (·.quantity.toRat)).sum := by
  obtain ⟨volume, hvolume, hsum⟩ := h.foldlM_add
  rw [List.map_map] at hsum
  refine ⟨volume, ?_, hsum⟩
  rw [tradesFrom_eq, hvolume]
  rfl

lemma Sums.quotes (rs : List TickRecord) : (quotesFrom .empty rs).Sums (fun _ => 0) rs := by
  refine ⟨(quotesFrom_withVolume .empty .zero rs).symm, ?_⟩
  rw [volume_quotesFrom, List.sum_map_zero]
  exact Decimal.toRat_zero

/-- Two candles that sum up two runs are merged to one that sums up both. -/
lemma Sums.merge (hc : c.Sums f rs) (hd : d.Sums f ss)
    (hlen : (rs ++ ss).length < 2 ^ 64)
    (hroom : ∃ z : Decimal, z.toRat = ((rs ++ ss).map f).sum) :
    ∃ m, c.merge d = .ok m ∧ m.Sums f (rs ++ ss) := by
  have hlengths := List.length_append ▸ hlen
  have hdempty := hd.isEmpty_iff (by omega)
  have hcempty := hc.isEmpty_iff (by omega)
  rw [Candle.merge]
  split_ifs with hdnil hcnil
  · cases hdempty.mp hdnil
    exact ⟨c, rfl, by rwa [List.append_nil]⟩
  · cases hcempty.mp hcnil
    exact ⟨d, rfl, hd⟩
  · obtain ⟨z, hz⟩ := hroom
    rw [List.map_append, List.sum_append, ← hc.volume_eq, ← hd.volume_eq] at hz
    obtain ⟨w, hadd, hw⟩ := Decimal.add_exact hz
    refine ⟨c.join d w, by rw [hadd]; rfl, ?_, ?_⟩
    · rw [← join_quotesFrom (mt hcempty.mpr hcnil) (mt hdempty.mpr hdnil) hlen, ← hc.prices_eq,
        ← hd.prices_eq]
      rfl
    · rw [List.map_append, List.sum_append, ← hc.volume_eq, ← hd.volume_eq]
      exact hw.trans hz

/-- Candles that sum up the same ticks have the same numbers. -/
lemma Sums.sameNumbers (hc : c.Sums f rs) (hd : d.Sums f rs) : c.sameNumbers d := by
  have hprices := hc.prices_eq.trans hd.prices_eq.symm
  have hvolume := Decimal.sameNumber_iff.mpr (hc.volume_eq.trans hd.volume_eq.symm)
  simp only [Candle.mk.injEq] at hprices
  obtain ⟨hopening, hhigh, hlow, hclosing, hticks, -⟩ := hprices
  simp only [Candle.sameNumbers, hopening, hhigh, hlow, hclosing, hticks, hvolume,
    Decimal.sameNumber_refl, beq_self_eq_true, Bool.and_true]

end Candle

namespace ContractCandle

variable {c d : ContractCandle} {acc : ContractCandle}

/-- What a tick of a category adds to the volume. -/
def weight : Category → TickRecord → ℚ
  | .trade, r => r.quantity.toRat
  | .bid, _ | .ask, _ => 0

/-- The candles of two runs, the first of them before the second. -/
def merge (c d : ContractCandle) : Except Overflow ContractCandle := do
  let bid ← c.candles.bid.merge d.candles.bid
  let ask ← c.candles.ask.merge d.candles.ask
  let trade ← c.candles.trade.merge d.candles.trade
  return {
    candles := { bid, ask, trade }
    firstAt := c.firstAt.merge min d.firstAt
    lastAt := c.lastAt.merge max d.lastAt }

/-- The candles of runs in their order. -/
def mergeAll (cs : List ContractCandle) : Except Overflow ContractCandle :=
  cs.foldlM merge empty

/-- The candles sum up ticks, each category apart. -/
structure Sums (c : ContractCandle) (rs : List TickRecord) : Prop where
  candle : ∀ category : Category, (c.get category).Sums (weight category) (category.select rs)
  firstAt_eq : c.firstAt = firstFrom none rs
  lastAt_eq : c.lastAt = lastFrom none rs

/-- A fold that takes in values where one is kept already can start without one. -/
lemma foldl_eq_merge {α : Type} {op : α → α → α} (hassoc : ∀ a b c, op (op a b) c = op a (op b c))
    (kept : Option α) (as : List α) :
    as.foldl (fun kept a => some (kept.elim a (op · a))) kept =
      kept.merge op (as.foldl (fun kept a => some (kept.elim a (op · a))) none) := by
  induction as generalizing kept with
  | nil => cases kept <;> rfl
  | cons a as ih =>
    rw [List.foldl_cons, List.foldl_cons, ih, ih (some (Option.elim none a (op · a)))]
    generalize as.foldl (fun kept a => some (kept.elim a (op · a))) none = rest
    cases kept with
    | none => cases rest <;> rfl
    | some b =>
      cases rest with
      | none => rfl
      | some c => exact congrArg some (hassoc b a c)

lemma firstFrom_eq_merge (first : Option Timestamp) (rs : List TickRecord) :
    firstFrom first rs = first.merge min (firstFrom none rs) :=
  foldl_eq_merge min_assoc first (rs.map TickRecord.timestamp)

lemma lastFrom_eq_merge (last : Option Timestamp) (rs : List TickRecord) :
    lastFrom last rs = last.merge max (lastFrom none rs) :=
  foldl_eq_merge max_assoc last (rs.map TickRecord.timestamp)

lemma Sums.nil : empty.Sums [] where
  candle category := by
    cases category <;> exact ⟨rfl, Decimal.toRat_zero⟩
  firstAt_eq := rfl
  lastAt_eq := rfl

/-- Candles sum up a run exactly: its ticks can be counted, and its volume is never rounded. -/
structure Exact (rs : List TickRecord) : Prop where
  length_lt : ∀ category : Category, (category.select rs).length < 2 ^ 64
  addsUp : Decimal.zero.AddsUp ((Category.trade.select rs).map (·.quantity))

lemma Exact.nil : Exact [] where
  length_lt category := by simp
  addsUp := trivial

lemma Sums.of_ofRecords (h : Exact rs) : ∃ c, ofRecords rs = .ok c ∧ c.Sums rs := by
  obtain ⟨volume, htrades, hvolume⟩ := Candle.tradesFrom_of_addsUp (c := .empty) h.addsUp
  rw [ofRecords_eq, htrades]
  refine ⟨_, rfl, ?_, rfl, rfl⟩
  intro category
  cases category with
  | bid => exact .quotes _
  | ask => exact .quotes _
  | trade =>
    refine ⟨(Candle.quotesFrom_withVolume .empty .zero _).symm, hvolume.trans ?_⟩
    rw [show Candle.empty.volume.toRat = 0 from Decimal.toRat_zero, zero_add]
    rfl

/-- The first ticks of a run that candles sum up exactly have room, too. -/
lemma Exact.of_prefix {ts : List TickRecord} (h : Exact (rs ++ ts)) (category : Category) :
    (category.select rs).length < 2 ^ 64 ∧
      ∃ z : Decimal, z.toRat = ((category.select rs).map (weight category)).sum := by
  constructor
  · have hlen := h.length_lt category
    rw [Category.select_append, List.length_append] at hlen
    omega
  · cases category with
    | bid | ask => exact ⟨.zero, Decimal.toRat_zero.trans List.sum_map_zero.symm⟩
    | trade =>
      have haddsUp := h.addsUp
      rw [Category.select_append, List.map_append] at haddsUp
      obtain ⟨z, hz⟩ := haddsUp.exists_prefix
      rw [Decimal.toRat_zero, zero_add, List.map_map] at hz
      exact ⟨z, hz⟩

/-- Candles that sum up two runs are merged to one that sums up both. -/
lemma Sums.merge {ts : List TickRecord} (hc : c.Sums rs) (hd : d.Sums ss)
    (h : Exact (rs ++ ss ++ ts)) : ∃ m, c.merge d = .ok m ∧ m.Sums (rs ++ ss) := by
  have hmerge (category : Category) : ∃ m, (c.get category).merge (d.get category) = .ok m ∧
      m.Sums (weight category) (category.select (rs ++ ss)) := by
    obtain ⟨hlen, hroom⟩ := h.of_prefix category
    rw [Category.select_append] at hroom hlen ⊢
    exact (hc.candle category).merge (hd.candle category) hlen hroom
  obtain ⟨bid, hbid, hbids⟩ := hmerge .bid
  obtain ⟨ask, hask, hasks⟩ := hmerge .ask
  obtain ⟨trade, htrade, htrades⟩ := hmerge .trade
  have heq : c.merge d = .ok ⟨⟨bid, ask, trade⟩, c.firstAt.merge min d.firstAt,
      c.lastAt.merge max d.lastAt⟩ := by
    rw [ContractCandle.merge, show c.candles.bid.merge d.candles.bid = _ from hbid,
      show c.candles.ask.merge d.candles.ask = _ from hask,
      show c.candles.trade.merge d.candles.trade = _ from htrade]
    rfl
  refine ⟨_, heq, ?_, ?_, ?_⟩
  · intro category
    cases category with
    | bid => exact hbids
    | ask => exact hasks
    | trade => exact htrades
  · rw [firstFrom, List.map_append, List.foldl_append]
    change _ = firstFrom (firstFrom none rs) ss
    rw [firstFrom_eq_merge, hc.firstAt_eq, hd.firstAt_eq]
  · rw [lastFrom, List.map_append, List.foldl_append]
    change _ = lastFrom (lastFrom none rs) ss
    rw [lastFrom_eq_merge, hc.lastAt_eq, hd.lastAt_eq]

/-- Candles that sum up runs are merged to one that sums up all of them. -/
lemma Sums.mergeFrom {cs : List ContractCandle} {rss : List (List TickRecord)}
    (hacc : acc.Sums rs) (hcs : List.Forall₂ Sums cs rss) (h : Exact (rs ++ rss.flatten)) :
    ∃ m, cs.foldlM ContractCandle.merge acc = .ok m ∧ m.Sums (rs ++ rss.flatten) := by
  induction hcs generalizing acc rs with
  | nil => exact ⟨acc, rfl, by rwa [List.flatten_nil, List.append_nil]⟩
  | @cons c ss cs rss hc hcs ih =>
    rw [List.flatten_cons, ← List.append_assoc] at h ⊢
    obtain ⟨m, hm, hsums⟩ := hacc.merge hc h
    rw [List.foldlM_cons, hm]
    exact ih hsums h

/-- Candles that sum up the same ticks have the same numbers. -/
lemma Sums.sameNumbers (hc : c.Sums rs) (hd : d.Sums rs) : c.sameNumbers d := by
  have hcandle (category : Category) : (c.get category).sameNumbers (d.get category) :=
    (hc.candle category).sameNumbers (hd.candle category)
  rw [ContractCandle.sameNumbers, show c.candles.bid.sameNumbers d.candles.bid from hcandle .bid,
    show c.candles.ask.sameNumbers d.candles.ask from hcandle .ask,
    show c.candles.trade.sameNumbers d.candles.trade from hcandle .trade,
    hc.firstAt_eq.trans hd.firstAt_eq.symm, hc.lastAt_eq.trans hd.lastAt_eq.symm]
  simp

end ContractCandle

end Candlestick
