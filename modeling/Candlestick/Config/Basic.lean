import Candlestick.KeyHasher
import Candlestick.Timeframe.Basic

/-!
# Settings

The settings of a table of contracts and of a rollup.
-/

namespace Candlestick

/-- How a bucket keeps its ticks. -/
inductive Layout
  /-- Ticks of all categories share the room. -/
  | flat
  /-- Each category has room of its own. -/
  | perCategory
deriving DecidableEq, Repr

namespace Layout

def all : List Layout := [flat, perCategory]

def name : Layout → String
  | flat => "flat"
  | perCategory => "per_category"

def ofName? (name : String) : Option Layout :=
  all.find? (·.name == name)

@[simp] theorem ofName?_name (l : Layout) : ofName? l.name = some l := by
  cases l <;> decide

end Layout

/-- What is done with a tick that does not fit. -/
inductive OverflowPolicy
  /-- The tick is refused. -/
  | reject
  /-- The tick is dropped and counted. -/
  | dropTick
  /-- The period is closed early to make room. -/
  | earlyRollup
deriving DecidableEq, Repr

namespace OverflowPolicy

def all : List OverflowPolicy := [reject, dropTick, earlyRollup]

def name : OverflowPolicy → String
  | reject => "reject"
  | dropTick => "drop_tick"
  | earlyRollup => "early_rollup"

def ofName? (name : String) : Option OverflowPolicy :=
  all.find? (·.name == name)

@[simp] theorem ofName?_name (p : OverflowPolicy) : ofName? p.name = some p := by
  cases p <;> decide

end OverflowPolicy

/-- Why settings cannot be used. -/
inductive ConfigError
  | zeroCapacity
  | zeroBucketSize
deriving DecidableEq, Repr

def ConfigError.message : ConfigError → String
  | zeroCapacity => "Capacity must be greater than zero"
  | zeroBucketSize => "Bucket size must be greater than zero"

/-- The settings of a table of contracts. -/
structure TableConfig where
  /-- The number of contracts the table has slots for. -/
  capacity : UInt64
  /-- The ticks a bucket has room for, in each category if these have room of their own. -/
  bucketSize : UInt64
  layout : Layout
  seed : UInt32
deriving DecidableEq, Repr

namespace TableConfig

/-- Settings with the usual layout and seed. -/
def ofSizes (capacity bucketSize : UInt64) : TableConfig where
  capacity
  bucketSize
  layout := .perCategory
  seed := KeyHasher.defaultSeed

instance : Inhabited TableConfig := ⟨ofSizes 1024 4096⟩

/-- The hash function of the table. -/
def hasher (c : TableConfig) : KeyHasher := ⟨c.seed⟩

/-- The number of ticks of all categories that a bucket has room for, as a 64-bit word. -/
def ticksPerBucket (c : TableConfig) : UInt64 :=
  match c.layout with
  | .flat => c.bucketSize
  | .perCategory => c.bucketSize * 3

/-- Asks that a table with these settings can hold anything at all. -/
def validate (c : TableConfig) : Except ConfigError Unit :=
  if c.capacity = 0 then .error .zeroCapacity
  else if c.bucketSize = 0 then .error .zeroBucketSize
  else .ok ()

end TableConfig

/-- The settings of a rollup. -/
structure RollupConfig where
  table : TableConfig
  timeframe : Timeframe
  overflow : OverflowPolicy
deriving DecidableEq, Repr

namespace RollupConfig

instance : Inhabited RollupConfig := ⟨default, default, .reject⟩

/-- Asks that a rollup with these settings can take in anything at all. -/
def validate (c : RollupConfig) : Except ConfigError Unit :=
  c.table.validate

end RollupConfig

end Candlestick
