import Candlestick.Codec.Tick
import Candlestick.Config.Basic
import Candlestick.Json.Text

/-!
# Settings as text

Settings are JSON records. A field that is not given has its default, and a field that settings do
not have is refused. Settings that are read are also validated.
-/

namespace Candlestick

def Layout.toJson (l : Layout) : Json :=
  .string l.name

def Layout.ofJson? (v : Json) : Option Layout :=
  v.choice? ofName?

def OverflowPolicy.toJson (p : OverflowPolicy) : Json :=
  .string p.name

def OverflowPolicy.ofJson? (v : Json) : Option OverflowPolicy :=
  v.choice? ofName?

/-- Why settings cannot be read. -/
inductive ConfigReadError
  /-- There is no such file. -/
  | notFound
  /-- The file is not UTF-8 text. -/
  | notText
  /-- The text is not JSON, or not the settings asked for. -/
  | malformed
  /-- The settings cannot be used. -/
  | invalid (cause : ConfigError)
deriving DecidableEq, Repr

/-- Settings read from a text and validated. -/
def readConfig {α : Type} (ofJson? : Json → Option α) (validate : α → Except ConfigError Unit)
    (text : String) : Except ConfigReadError α :=
  match (Json.ofText? text).bind ofJson? with
  | none => .error .malformed
  | some config =>
    match validate config with
    | .ok () => .ok config
    | .error cause => .error (.invalid cause)

/-- Settings read from the content of a file, if there is such a file. -/
def readConfigFile {α : Type} (ofText : String → Except ConfigReadError α) :
    Option ByteArray → Except ConfigReadError α
  | none => .error .notFound
  | some bytes =>
    match String.fromUTF8? bytes with
    | none => .error .notText
    | some text => ofText text

namespace TableConfig

def fieldNames : List String := ["capacity", "bucket_size", "layout_mode", "hash_seed"]

def toJson (c : TableConfig) : Json :=
  .record fieldNames
    [.natural c.capacity.toNat, .natural c.bucketSize.toNat, c.layout.toJson,
     .natural c.seed.toNat]

/-- The settings of a table that a value stands for, not validated. -/
def ofJson? (v : Json) : Option TableConfig := do
  match ← v.settingFields? fieldNames with
  | [capacity, bucketSize, layout, seed] =>
    let usual : TableConfig := default
    return {
      capacity := ← Json.orDefault? Json.longWord? usual.capacity capacity
      bucketSize := ← Json.orDefault? Json.longWord? usual.bucketSize bucketSize
      layout := ← Json.orDefault? Layout.ofJson? usual.layout layout
      seed := ← Json.orDefault? Json.word? usual.seed seed }
  | _ => none

def ofText : String → Except ConfigReadError TableConfig :=
  readConfig ofJson? validate

def ofFile : Option ByteArray → Except ConfigReadError TableConfig :=
  readConfigFile ofText

end TableConfig

namespace RollupConfig

def fieldNames : List String := ["collection", "timeframe", "overflow"]

/-- The value of a rollup's settings. -/
def toJson (c : RollupConfig) : Json :=
  .record fieldNames [c.table.toJson, c.timeframe.toJson, c.overflow.toJson]

/-- The settings of a rollup that a value stands for, not validated. -/
def ofJson? (v : Json) : Option RollupConfig := do
  match ← v.settingFields? fieldNames with
  | [table, timeframe, overflow] =>
    let usual : RollupConfig := default
    return {
      table := ← Json.orDefault? TableConfig.ofJson? usual.table table
      timeframe := ← Json.orDefault? Timeframe.ofJson? usual.timeframe timeframe
      overflow := ← Json.orDefault? OverflowPolicy.ofJson? usual.overflow overflow }
  | _ => none

def ofText : String → Except ConfigReadError RollupConfig :=
  readConfig ofJson? validate

def ofFile : Option ByteArray → Except ConfigReadError RollupConfig :=
  readConfigFile ofText

end RollupConfig

end Candlestick
