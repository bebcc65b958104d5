import Candlestick.Codec.Tick
import Candlestick.Summary

/-!
# Candles and summaries in JSON

Candles are read and written; summaries are written only.
-/

namespace Candlestick

namespace Candle

def fieldNames : List String := ["open", "high", "low", "close", "ticks", "volume"]

def toJson (c : Candle) : Json :=
  .record fieldNames
    [c.opening.toJson, c.high.toJson, c.low.toJson, c.closing.toJson, .natural c.ticks.toNat,
     c.volume.toJson]

def ofJson? (v : Json) : Option Candle := do
  match ← v.dataFields? fieldNames with
  | [some opening, some high, some low, some closing, some ticks, some volume] =>
    return {
      opening := ← Decimal.ofJson? opening
      high := ← Decimal.ofJson? high
      low := ← Decimal.ofJson? low
      closing := ← Decimal.ofJson? closing
      ticks := ← ticks.longWord?
      volume := ← Decimal.ofJson? volume }
  | _ => none

end Candle

namespace ContractCandle

def fieldNames : List String := ["bid", "ask", "trade", "first_at", "last_at"]

def momentToJson (t : Option Timestamp) : Json :=
  t.elim .null Timestamp.toJson

def toJson (c : ContractCandle) : Json :=
  .record fieldNames
    [c.candles.bid.toJson, c.candles.ask.toJson, c.candles.trade.toJson, momentToJson c.firstAt,
     momentToJson c.lastAt]

def ofJson? (v : Json) : Option ContractCandle := do
  match ← v.dataFields? fieldNames with
  | [some bid, some ask, some trade, firstAt, lastAt] =>
    return {
      candles := {
        bid := ← Candle.ofJson? bid
        ask := ← Candle.ofJson? ask
        trade := ← Candle.ofJson? trade }
      firstAt := ← Json.optional? Timestamp.ofJson? firstAt
      lastAt := ← Json.optional? Timestamp.ofJson? lastAt }
  | _ => none

end ContractCandle

namespace Summary

def fieldNames : List String := ["period_start", "timeframe", "complete", "candles"]

def toJson (s : Summary) : Json :=
  .record fieldNames
    [s.periodStart.toJson, s.timeframe.toJson, .bool s.complete,
     .array (s.candles.map fun (key, candle) => .array [key.toJson, candle.toJson])]

end Summary

end Candlestick
