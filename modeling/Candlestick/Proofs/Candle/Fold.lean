import Candlestick.ContractCandle
import Candlestick.Proofs.Timestamp.Order
import Mathlib.Data.List.Perm.Basic
import Mathlib.Order.MinMax

/-!
# Folding ticks category by category

The candles of a contract fold each category on its own, and the moments of all ticks together.
Hence two runs of ticks that agree within each category have the same candles, however their
categories are interleaved (`ContractCandle.ofRecords_congr`).
-/

namespace Candlestick

open Decimal (Overflow)

/-- The ticks of one category, in their order. -/
def Category.select (c : Category) (rs : List TickRecord) : List TickRecord :=
  rs.filter (·.category == c)

namespace Category

@[simp] lemma select_nil (c : Category) : c.select [] = [] := rfl

@[simp] lemma select_append (c : Category) (rs ss : List TickRecord) :
    c.select (rs ++ ss) = c.select rs ++ c.select ss :=
  List.filter_append rs ss

lemma select_cons (c : Category) (r : TickRecord) (rs : List TickRecord) :
    c.select (r :: rs) = if r.category = c then r :: c.select rs else c.select rs := by
  simp [select, List.filter_cons]

lemma select_eq_self {c : Category} {rs : List TickRecord} (h : ∀ r ∈ rs, r.category = c) :
    c.select rs = rs :=
  List.filter_eq_self.mpr fun r hr => by simp [h r hr]

lemma select_eq_nil {c : Category} {rs : List TickRecord} (h : ∀ r ∈ rs, r.category ≠ c) :
    c.select rs = [] :=
  List.filter_eq_nil_iff.mpr fun r hr => by simp [h r hr]

/-- Each tick is of one category. -/
lemma length_select (rs : List TickRecord) :
    (bid.select rs).length + (ask.select rs).length + (trade.select rs).length = rs.length := by
  induction rs with
  | nil => rfl
  | cons r rs ih =>
    rw [select_cons, select_cons, select_cons, List.length_cons, ← ih]
    cases r.category <;> simp <;> omega

/-- Runs of ticks that agree within each category are rearrangements of each other. -/
lemma perm_of_select_eq {rs ss : List TickRecord} (h : ∀ c : Category, c.select rs = c.select ss) :
    rs.Perm ss := by
  rw [List.perm_iff_count]
  intro r
  have hcount (ts : List TickRecord) : ts.count r = (r.category.select ts).count r :=
    (List.count_filter (by simp)).symm
  rw [hcount rs, hcount ss, h]

end Category

namespace ContractCandle

/-- Folds prices into a candle. -/
def quotesFrom (c : Candle) (rs : List TickRecord) : Candle :=
  rs.foldl (fun c r => c.improve r.price) c

/-- Folds trades into a candle, with their quantities. -/
def tradesFrom (c : Candle) (rs : List TickRecord) : Except Overflow Candle :=
  rs.foldlM (fun c r => c.improveWithVolume r.price r.quantity) c

/-- Takes in a moment where the first one is kept. -/
def firstWith (first : Option Timestamp) (t : Timestamp) : Option Timestamp :=
  some (first.elim t (·.min t))

/-- Takes in a moment where the last one is kept. -/
def lastWith (last : Option Timestamp) (t : Timestamp) : Option Timestamp :=
  some (last.elim t (·.max t))

/-- The first of some moments. -/
def firstFrom (first : Option Timestamp) (rs : List TickRecord) : Option Timestamp :=
  (rs.map (·.timestamp)).foldl firstWith first

/-- The last of some moments. -/
def lastFrom (last : Option Timestamp) (rs : List TickRecord) : Option Timestamp :=
  (rs.map (·.timestamp)).foldl lastWith last

instance : RightCommutative firstWith where
  right_comm first t u := by
    cases first with
    | none => exact congrArg some (min_comm t u)
    | some first => exact congrArg some (min_right_comm first t u)

instance : RightCommutative lastWith where
  right_comm last t u := by
    cases last with
    | none => exact congrArg some (max_comm t u)
    | some last => exact congrArg some (max_right_comm last t u)

lemma firstFrom_perm {rs ss : List TickRecord} (h : rs.Perm ss) (first : Option Timestamp) :
    firstFrom first rs = firstFrom first ss :=
  (h.map _).foldl_eq first

lemma lastFrom_perm {rs ss : List TickRecord} (h : rs.Perm ss) (last : Option Timestamp) :
    lastFrom last rs = lastFrom last ss :=
  (h.map _).foldl_eq last

lemma improve_of_quote {c : ContractCandle} {r : TickRecord} (h : r.category ≠ .trade) :
    c.improve r = .ok ((c.takePrice r).takeTime r.timestamp) := by
  cases hcat : r.category with
  | bid | ask => simp [improve, takeVolume, hcat, Except.map]
  | trade => exact absurd hcat h

lemma improve_of_trade {c : ContractCandle} {r : TickRecord} (h : r.category = .trade) :
    c.improve r = (c.candles.trade.improveWithVolume r.price r.quantity).map fun trade =>
      ({ c with candles := { c.candles with trade } } : ContractCandle).takeTime r.timestamp := by
  simp only [improve, takeVolume, takePrice, ByCategory.modify, h, Candle.improveWithVolume]
  cases (c.candles.trade.improve r.price).addVolume r.quantity <;> rfl

/-- Folding ticks into candles, each category apart. Only trades can overflow. -/
lemma foldlM_improve (c : ContractCandle) (rs : List TickRecord) :
    rs.foldlM improve c =
      (tradesFrom c.candles.trade (Category.trade.select rs)).map fun trade =>
        { candles :=
            { bid := quotesFrom c.candles.bid (Category.bid.select rs)
              ask := quotesFrom c.candles.ask (Category.ask.select rs)
              trade }
          firstAt := firstFrom c.firstAt rs
          lastAt := lastFrom c.lastAt rs } := by
  induction rs generalizing c with
  | nil => rfl
  | cons r rs ih =>
    rw [List.foldlM_cons]
    cases hcat : r.category with
    | bid | ask =>
      rw [improve_of_quote (by simp [hcat])]
      refine (ih _).trans ?_
      simp [Category.select_cons, hcat, takePrice, takeTime, ByCategory.modify, quotesFrom,
        firstFrom, lastFrom, firstWith, lastWith]
    | trade =>
      have hselect : Category.trade.select (r :: rs) = r :: Category.trade.select rs := by
        simp [Category.select_cons, hcat]
      rw [improve_of_trade hcat, hselect, tradesFrom, List.foldlM_cons]
      cases c.candles.trade.improveWithVolume r.price r.quantity with
      | error cause => rfl
      | ok trade =>
        refine (ih _).trans ?_
        simp [Category.select_cons, hcat, takeTime, tradesFrom, firstFrom, lastFrom, firstWith,
          lastWith, bind, Except.bind]

/-- The candles of a run of ticks, each category apart. -/
lemma ofRecords_eq (rs : List TickRecord) :
    ofRecords rs =
      (tradesFrom .empty (Category.trade.select rs)).map fun trade =>
        { candles :=
            { bid := quotesFrom .empty (Category.bid.select rs)
              ask := quotesFrom .empty (Category.ask.select rs)
              trade }
          firstAt := firstFrom none rs
          lastAt := lastFrom none rs } :=
  foldlM_improve empty rs

/-- How the categories are interleaved does not matter to the candles. -/
lemma ofRecords_congr {rs ss : List TickRecord} (h : ∀ c : Category, c.select rs = c.select ss) :
    ofRecords rs = ofRecords ss := by
  have hperm := Category.perm_of_select_eq h
  rw [ofRecords_eq, ofRecords_eq, h .bid, h .ask, h .trade, firstFrom_perm hperm,
    lastFrom_perm hperm]

end ContractCandle

end Candlestick
