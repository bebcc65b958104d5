import Candlestick.Candle
import Candlestick.Tick

/-!
# Candles of a contract

The ticks of a contract over a period are summed up by three candles, one for each category, and
by the first and last moment of a tick.
-/

namespace Candlestick

open Decimal (Overflow)

/-- The candles of a contract over a period. -/
structure ContractCandle where
  candles : ByCategory Candle
  firstAt : Option Timestamp
  lastAt : Option Timestamp
deriving DecidableEq

namespace ContractCandle

def empty : ContractCandle := ⟨.fill .empty, none, none⟩

def get (c : ContractCandle) (category : Category) : Candle :=
  c.candles.get category

/-- Folds in the price of a tick. -/
def takePrice (c : ContractCandle) (r : TickRecord) : ContractCandle :=
  { c with candles := c.candles.modify (·.improve r.price) r.category }

/-- Adds the quantity of a trade to the volume; quotes have none. -/
def takeVolume (c : ContractCandle) (r : TickRecord) : Except Overflow ContractCandle :=
  match r.category with
  | .trade =>
    (c.candles.trade.addVolume r.quantity).map fun trade =>
      { c with candles := { c.candles with trade } }
  | .bid | .ask => .ok c

/-- Takes in the moment of a tick. -/
def takeTime (c : ContractCandle) (t : Timestamp) : ContractCandle :=
  { c with
    firstAt := some (c.firstAt.elim t (·.min t))
    lastAt := some (c.lastAt.elim t (·.max t)) }

/-- Folds in one tick. Of a tick whose quantity overflows the volume, only the price is folded in:
what is left then is `takePrice`. -/
def improve (c : ContractCandle) (r : TickRecord) : Except Overflow ContractCandle :=
  ((c.takePrice r).takeVolume r).map (·.takeTime r.timestamp)

/-- The candles of a run of ticks. -/
def ofRecords (rs : List TickRecord) : Except Overflow ContractCandle :=
  rs.foldlM improve empty

def tickCount (c : ContractCandle) : UInt64 :=
  c.candles.bid.ticks + c.candles.ask.ticks + c.candles.trade.ticks

def isEmpty (c : ContractCandle) : Bool :=
  c.tickCount == 0

/-- Whether two candles of a contract have the same numbers and moments. -/
def sameNumbers (c d : ContractCandle) : Bool :=
  c.candles.bid.sameNumbers d.candles.bid && c.candles.ask.sameNumbers d.candles.ask &&
    c.candles.trade.sameNumbers d.candles.trade && c.firstAt == d.firstAt && c.lastAt == d.lastAt

end ContractCandle

end Candlestick
