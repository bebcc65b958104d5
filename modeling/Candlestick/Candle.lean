import Candlestick.Decimal.Arithmetic
import Candlestick.Decimal.Quotient

/-!
# Candles

A candle sums up a run of prices by the first, the highest, the lowest and the last of them, and
keeps the number of ticks and the quantity traded.
-/

namespace Candlestick

open Decimal (Overflow)

/-- The first, highest, lowest and last price of a run of ticks. Prices are zero without ticks. -/
structure Candle where
  opening : Decimal
  high : Decimal
  low : Decimal
  closing : Decimal
  ticks : UInt64
  volume : Decimal
deriving DecidableEq

namespace Candle

def empty : Candle := ⟨.zero, .zero, .zero, .zero, 0, .zero⟩

def isEmpty (c : Candle) : Bool :=
  c.ticks == 0

/-- Folds in one price. Among prices that are the same number, the first stays. -/
def improve (c : Candle) (price : Decimal) : Candle :=
  { c with
    opening := if c.isEmpty then price else c.opening
    high := if c.isEmpty then price else c.high.max price
    low := if c.isEmpty then price else c.low.min price
    closing := price
    ticks := c.ticks + 1 }

/-- Adds a quantity to the volume. -/
def addVolume (c : Candle) (quantity : Decimal) : Except Overflow Candle :=
  (c.volume.add quantity).map fun volume => { c with volume }

/-- Folds in the price and the quantity of a trade. -/
def improveWithVolume (c : Candle) (price quantity : Decimal) : Except Overflow Candle :=
  (c.improve price).addVolume quantity

/-! ### Measures of a bar -/

/-- From the lowest to the highest price. -/
def range (c : Candle) : Except Overflow Decimal :=
  c.high.sub c.low

/-- The size of the step from the first to the last price. -/
def body (c : Candle) : Except Overflow Decimal :=
  (c.closing.sub c.opening).map Decimal.abs

def isBullish (c : Candle) : Bool :=
  c.opening < c.closing

def isBearish (c : Candle) : Bool :=
  c.closing < c.opening

/-- The mean of the highest, lowest and last price. -/
def typicalPrice (c : Candle) : Except Overflow Decimal := do
  let extremes ← c.high.add c.low
  let total ← extremes.add c.closing
  return total.divNat 3 (by decide)

/-- The mean of the highest, lowest and last price, the last one counted twice. -/
def weightedClose (c : Candle) : Except Overflow Decimal := do
  let extremes ← c.high.add c.low
  let total ← extremes.add (← c.closing.double)
  return total.divNat 4 (by decide)

/-- Whether two candles have the same numbers. -/
def sameNumbers (c d : Candle) : Bool :=
  c.opening.sameNumber d.opening && c.high.sameNumber d.high && c.low.sameNumber d.low &&
    c.closing.sameNumber d.closing && c.ticks == d.ticks && c.volume.sameNumber d.volume

end Candle

end Candlestick
