import Candlestick.Json.Record
import Candlestick.KeyHasher
import Candlestick.Tick
import Candlestick.Decimal.Text
import Candlestick.Timeframe.Basic

/-!
# Ticks in JSON

Numbers with decimal places and moments are strings, so that nothing is lost; a key is an array of
its three words, and names stand for categories and timeframes.
-/

namespace Candlestick

/-- The 32-bit word that a value is. -/
def Json.word? (v : Json) : Option UInt32 :=
  (v.natBelow? (2 ^ 32)).map .ofNat

/-- The 64-bit word that a value is. -/
def Json.longWord? (v : Json) : Option UInt64 :=
  (v.natBelow? (2 ^ 64)).map .ofNat

def ContractKey.toJson (k : ContractKey) : Json :=
  .array [.natural k.w0.toNat, .natural k.w1.toNat, .natural k.w2.toNat]

def ContractKey.ofJson? : Json → Option ContractKey
  | .array [a, b, c] => return { w0 := ← a.word?, w1 := ← b.word?, w2 := ← c.word? }
  | _ => none

/-- The value of a hash function: its seed. -/
def KeyHasher.toJson (h : KeyHasher) : Json :=
  .natural h.seed.toNat

def KeyHasher.ofJson? (v : Json) : Option KeyHasher :=
  v.word?.map fun seed => { seed }

def Category.toJson (c : Category) : Json :=
  .string c.name

def Category.ofJson? (v : Json) : Option Category :=
  v.choice? ofName?

def Timeframe.toJson (f : Timeframe) : Json :=
  .string f.name

/-- The timeframe that a value stands for; aliases are not read. -/
def Timeframe.ofJson? (v : Json) : Option Timeframe :=
  v.choice? ofName?

def Decimal.toJson (x : Decimal) : Json :=
  .string x.text

def Decimal.ofJson? (v : Json) : Option Decimal :=
  v.text?.bind ofText?

def Timestamp.toJson (t : Timestamp) : Json :=
  .string t.text

def Timestamp.ofJson? (v : Json) : Option Timestamp :=
  v.text?.bind ofText?

namespace TickRecord

def fieldNames : List String := ["timestamp", "category", "price", "quantity"]

def toJson (r : TickRecord) : Json :=
  .record fieldNames
    [r.timestamp.toJson, r.category.toJson, r.price.toJson, r.quantity.toJson]

def ofJson? (v : Json) : Option TickRecord := do
  match ← v.dataFields? fieldNames with
  | [some timestamp, some category, some price, some quantity] =>
    return {
      timestamp := ← Timestamp.ofJson? timestamp
      category := ← Category.ofJson? category
      price := ← Decimal.ofJson? price
      quantity := ← Decimal.ofJson? quantity }
  | _ => none

end TickRecord

end Candlestick
