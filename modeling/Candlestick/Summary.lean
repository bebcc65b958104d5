import Candlestick.ContractCandle
import Candlestick.Timeframe.Basic

/-!
# Summaries

A summary holds the candles of the contracts that had ticks in a period, or in a part of one.
-/

namespace Candlestick

/-- The candles of a period. -/
structure Summary where
  periodStart : Timestamp
  timeframe : Timeframe
  /-- Whether the rest of the period cannot follow in another summary. -/
  complete : Bool
  /-- One candle for each contract, in the order the contracts were first seen. -/
  candles : List (ContractKey × ContractCandle)
deriving DecidableEq

namespace Summary

def get? (s : Summary) (key : ContractKey) : Option ContractCandle :=
  (s.candles.find? (·.1 == key)).map (·.2)

def size (s : Summary) : Nat :=
  s.candles.length

def isEmpty (s : Summary) : Bool :=
  s.candles.isEmpty

def tickCount (s : Summary) : UInt64 :=
  s.candles.foldl (fun n entry => n + entry.2.tickCount) 0

end Summary

end Candlestick
