import Candlestick.Proofs.Candle.Merge

/-!
# What the candles of a run show

The candles of a run of ticks count all of them (`ContractCandle.tickCount_ofRecords`), a category
with ticks shows a bar whose prices lie between its lowest and its highest one
(`ContractCandle.ordered_ofRecords`), and the moments are those of the first and the last tick
(`ContractCandle.exists_moments`). There are candles unless the volume of the trades overflows, and
they fold each category on its own (`ContractCandle.ofRecords_folds_by_category`).
-/

namespace Candlestick

open Decimal (Overflow)

variable {rs : List TickRecord}

namespace Candle

open ContractCandle (quotesFrom tradesFrom)

variable {c d : Candle}

/-! ### Bars -/

lemma ordered_quotesFrom (h : c.isEmpty = false → c.Ordered) (rs : List TickRecord) :
    (quotesFrom c rs).isEmpty = false → (quotesFrom c rs).Ordered := by
  induction rs generalizing c with
  | nil => exact h
  | cons r rs ih => exact ih fun _ => .improve h r.price

/-- The volume has no part in the prices that trades are folded to. -/
lemma prices_tradesFrom (h : tradesFrom c rs = .ok d) :
    { d with volume := c.volume } = quotesFrom c rs := by
  rw [tradesFrom_eq] at h
  cases hsum : (rs.map (·.quantity)).foldlM Decimal.add c.volume with
  | error cause =>
    rw [hsum] at h
    cases h
  | ok volume =>
    rw [hsum] at h
    cases h
    exact (quotesFrom_withVolume c c.volume rs).symm

/-- The volume of a run of trades is the running sum of their quantities, and overflows where this
does. -/
lemma map_volume_tradesFrom (c : Candle) (rs : List TickRecord) :
    (tradesFrom c rs).map volume = (rs.map (·.quantity)).foldlM Decimal.add c.volume := by
  rw [tradesFrom_eq]
  cases (rs.map (·.quantity)).foldlM Decimal.add c.volume <;> rfl

end Candle

namespace ContractCandle

variable {c : ContractCandle}

lemma eq_of_ofRecords (h : ofRecords rs = .ok c) :
    ∃ trade, tradesFrom .empty (Category.trade.select rs) = .ok trade ∧
      c =
        { candles :=
            { bid := quotesFrom .empty (Category.bid.select rs)
              ask := quotesFrom .empty (Category.ask.select rs)
              trade }
          firstAt := firstFrom none rs
          lastAt := lastFrom none rs } := by
  rw [ofRecords_eq] at h
  cases htrades : tradesFrom .empty (Category.trade.select rs) with
  | error cause =>
    rw [htrades] at h
    cases h
  | ok trade =>
    rw [htrades] at h
    exact ⟨trade, rfl, (Except.ok.inj h).symm⟩

/-- Each category shows the prices of its own ticks. -/
lemma prices_ofRecords (h : ofRecords rs = .ok c) (category : Category) :
    { c.get category with volume := .zero } = quotesFrom .empty (category.select rs) := by
  obtain ⟨trade, htrades, rfl⟩ := eq_of_ofRecords h
  cases category with
  | bid | ask => exact (Candle.quotesFrom_withVolume .empty .zero _).symm
  | trade => exact Candle.prices_tradesFrom htrades

lemma ordered_ofRecords (h : ofRecords rs = .ok c) (category : Category)
    (hsome : (c.get category).isEmpty = false) : (c.get category).Ordered := by
  have hprices := prices_ofRecords h category
  have hempty : Candle.empty.isEmpty = false → Candle.empty.Ordered := by
    intro hempty
    cases hempty
  obtain ⟨hlow, hhigh, hclosing, hclosing'⟩ : { c.get category with volume := .zero }.Ordered := by
    rw [hprices]
    refine Candle.ordered_quotesFrom hempty _ ?_
    rw [← hprices]
    exact hsome
  exact ⟨hlow, hhigh, hclosing, hclosing'⟩

/-! ### Counts -/

lemma ticks_ofRecords (h : ofRecords rs = .ok c) (category : Category) :
    (c.get category).ticks = .ofNat (category.select rs).length := by
  have hticks := congrArg Candle.ticks (prices_ofRecords h category)
  rw [Candle.ticks_quotesFrom] at hticks
  exact hticks.trans (UInt64.zero_add _)

/-- All ticks are counted, as far as there are numbers to count them. -/
lemma tickCount_ofRecords (h : ofRecords rs = .ok c) : c.tickCount = .ofNat rs.length := by
  have hticks := ticks_ofRecords h
  rw [tickCount, show c.candles.bid.ticks = _ from hticks .bid,
    show c.candles.ask.ticks = _ from hticks .ask,
    show c.candles.trade.ticks = _ from hticks .trade, ← UInt64.ofNat_add, ← UInt64.ofNat_add,
    Category.length_select]

/-! ### Moments -/

lemma firstFrom_eq_min? (rs : List TickRecord) :
    firstFrom none rs = (rs.map (·.timestamp)).min? := by
  cases rs with
  | nil => rfl
  | cons r rs =>
    rw [List.map_cons, List.min?_cons']
    exact List.foldl_hom some fun _ _ => rfl

lemma lastFrom_eq_max? (rs : List TickRecord) :
    lastFrom none rs = (rs.map (·.timestamp)).max? := by
  cases rs with
  | nil => rfl
  | cons r rs =>
    rw [List.map_cons, List.max?_cons']
    exact List.foldl_hom some fun _ _ => rfl

/-- The first and the last moment are those of ticks, and no tick lies outside of them. -/
lemma exists_moments (h : ofRecords rs = .ok c) (hrs : rs ≠ []) :
    ∃ first ∈ rs, ∃ last ∈ rs, c.firstAt = some first.timestamp ∧
      c.lastAt = some last.timestamp ∧
      ∀ r ∈ rs, first.timestamp ≤ r.timestamp ∧ r.timestamp ≤ last.timestamp := by
  obtain ⟨trade, -, rfl⟩ := eq_of_ofRecords h
  have hne : rs.map (·.timestamp) ≠ [] := mt List.map_eq_nil_iff.mp hrs
  obtain ⟨t, hmin⟩ := Option.ne_none_iff_exists'.mp (mt List.min?_eq_none_iff.mp hne)
  obtain ⟨u, hmax⟩ := Option.ne_none_iff_exists'.mp (mt List.max?_eq_none_iff.mp hne)
  obtain ⟨ht, hfirst⟩ := List.min?_eq_some_iff.mp hmin
  obtain ⟨hu, hlast⟩ := List.max?_eq_some_iff.mp hmax
  obtain ⟨first, hfirstmem, rfl⟩ := List.mem_map.mp ht
  obtain ⟨last, hlastmem, rfl⟩ := List.mem_map.mp hu
  refine ⟨first, hfirstmem, last, hlastmem, (firstFrom_eq_min? rs).trans hmin,
    (lastFrom_eq_max? rs).trans hmax, ?_⟩
  intro r hr
  exact ⟨hfirst _ (List.mem_map_of_mem hr), hlast _ (List.mem_map_of_mem hr)⟩

/-! ### Folding category by category -/

/-- The running sum of the quantities of the trades. -/
def volumeOf (rs : List TickRecord) : Except Overflow Decimal :=
  ((Category.trade.select rs).map (·.quantity)).foldlM Decimal.add .zero

/-- What candles show that fold each category of a run of ticks on its own. -/
structure FoldsByCategory (rs : List TickRecord) (c : ContractCandle) : Prop where
  bid_eq : c.get .bid = quotesFrom .empty (Category.bid.select rs)
  ask_eq : c.get .ask = quotesFrom .empty (Category.ask.select rs)
  bid_volume_eq : (c.get .bid).volume = .zero
  ask_volume_eq : (c.get .ask).volume = .zero
  trade_eq : tradesFrom .empty (Category.trade.select rs) = .ok (c.get .trade)
  trade_volume_eq : volumeOf rs = .ok (c.get .trade).volume
  firstAt_eq : c.firstAt = (rs.map (·.timestamp)).min?
  lastAt_eq : c.lastAt = (rs.map (·.timestamp)).max?
  tickCount_eq : c.tickCount = .ofNat rs.length

lemma FoldsByCategory.of_ofRecords (h : ofRecords rs = .ok c) : c.FoldsByCategory rs := by
  obtain ⟨trade, htrades, hc⟩ := eq_of_ofRecords h
  have hvolume := Candle.map_volume_tradesFrom .empty (Category.trade.select rs)
  rw [htrades] at hvolume
  have hcount := tickCount_ofRecords h
  subst hc
  constructor
  · rfl
  · rfl
  · exact Candle.volume_quotesFrom .empty _
  · exact Candle.volume_quotesFrom .empty _
  · exact htrades
  · exact hvolume.symm
  · exact firstFrom_eq_min? rs
  · exact lastFrom_eq_max? rs
  · exact hcount

/-- Only the volume of the trades can overflow. -/
lemma ofRecords_eq_error_iff {cause : Overflow} :
    ofRecords rs = .error cause ↔ volumeOf rs = .error cause := by
  have hvolume := Candle.map_volume_tradesFrom .empty (Category.trade.select rs)
  change _ = volumeOf rs at hvolume
  rw [ofRecords_eq, ← hvolume]
  cases tradesFrom .empty (Category.trade.select rs) <;> simp [Except.map]

/--
A run of ticks has candles unless the running sum of its trades overflows, and they fold each
category on its own. Hence runs with the same ticks in each category have the same candles, or
overflow alike, however their categories are interleaved.
-/
theorem ofRecords_folds_by_category (rs : List TickRecord) :
    (∀ cause, ofRecords rs = .error cause ↔ volumeOf rs = .error cause) ∧
      (∀ c, ofRecords rs = .ok c → c.FoldsByCategory rs) ∧
      ∀ ss, (∀ category : Category, category.select rs = category.select ss) →
        ofRecords rs = ofRecords ss :=
  ⟨fun _ => ofRecords_eq_error_iff, fun _ => .of_ofRecords, fun _ => ofRecords_congr⟩

/-- A bid of the first second of 1970. -/
def earlyBid : TickRecord where
  timestamp := ⟨0, 250000000, by decide, by decide, by decide⟩
  category := .bid
  price := ⟨false, 99, 1, by decide, by decide⟩
  quantity := .zero

/-- A trade of the next minute. -/
def lateTrade : TickRecord where
  timestamp := ⟨75, 750000000, by decide, by decide, by decide⟩
  category := .trade
  price := ⟨false, 100, 1, by decide, by decide⟩
  quantity := ⟨false, 25, 1, by decide, by decide⟩

/-- A bid after the first of two trades makes the same candles as one before them. -/
theorem ofRecords_folds_by_category_bid_between :
    ∃ c, ofRecords [lateTrade, earlyBid, lateTrade] = .ok c ∧
      c.FoldsByCategory [lateTrade, earlyBid, lateTrade] ∧
      ofRecords [earlyBid, lateTrade, lateTrade] = .ok c := by
  obtain ⟨-, hfolds, hcongr⟩ := ofRecords_folds_by_category [lateTrade, earlyBid, lateTrade]
  obtain ⟨c, hc⟩ : ∃ c, ofRecords [lateTrade, earlyBid, lateTrade] = .ok c := ⟨_, rfl⟩
  refine ⟨c, hc, hfolds c hc, (hcongr _ ?_).symm.trans hc⟩
  intro category
  cases category <;> rfl

end ContractCandle

end Candlestick
