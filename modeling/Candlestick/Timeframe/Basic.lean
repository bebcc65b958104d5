/-!
# Timeframes

A timeframe is the length of the periods that ticks are rolled up to, from the single tick to the
day. Each has one name, and texts may also use an alias of it in any case.
-/

namespace Candlestick

/-- The length of a period. -/
inductive Timeframe
  | tick
  | second1
  | minute1
  | minute5
  | minute15
  | minute30
  | hour1
  | hour4
  | day1
deriving DecidableEq, Repr

namespace Timeframe

/-- The timeframes, finest first. -/
def all : List Timeframe :=
  [tick, second1, minute1, minute5, minute15, minute30, hour1, hour4, day1]

/-- The length of a period in seconds; a tick has none. -/
def seconds? : Timeframe → Option Nat
  | tick => none
  | second1 => some 1
  | minute1 => some 60
  | minute5 => some 300
  | minute15 => some 900
  | minute30 => some 1800
  | hour1 => some 3600
  | hour4 => some 14400
  | day1 => some 86400

def name : Timeframe → String
  | tick => "tick"
  | second1 => "s1"
  | minute1 => "m1"
  | minute5 => "m5"
  | minute15 => "m15"
  | minute30 => "m30"
  | hour1 => "h1"
  | hour4 => "h4"
  | day1 => "d1"

/-- Other names of a timeframe. -/
def aliases : Timeframe → List String
  | tick => []
  | second1 => ["1s", "second"]
  | minute1 => ["1m", "minute"]
  | minute5 => ["5m"]
  | minute15 => ["15m"]
  | minute30 => ["30m"]
  | hour1 => ["1h", "hour"]
  | hour4 => ["4h"]
  | day1 => ["1d", "day", "daily"]

instance : ToString Timeframe := ⟨name⟩

instance : Inhabited Timeframe := ⟨minute1⟩

/-- The timeframe with exactly the given name. -/
def ofName? (name : String) : Option Timeframe :=
  all.find? (·.name == name)

/--
The lower case of a character as far as the names go: besides the ASCII capitals only the Kelvin
sign has an ASCII letter for its lower case.
-/
def lowerChar (c : Char) : Char :=
  if c.toNat = 0x212a then 'k' else c.toLower

/-- Whether a text, in lower case, is a name or an alias of the timeframe. -/
def answersTo (f : Timeframe) (text : String) : Bool :=
  (f.name :: f.aliases).contains (text.map lowerChar)

/-- The timeframe that a text names. -/
def ofText? (text : String) : Option Timeframe :=
  all.find? (·.answersTo text)

/-- The text that reports an unknown name. -/
def unknownMessage (text : String) : String :=
  "invalid timeframe '" ++ text ++ "', expected one of: " ++ ", ".intercalate (all.map name)

theorem mem_all (f : Timeframe) : f ∈ all := by
  cases f <;> simp [all]

@[simp] theorem ofName?_name (f : Timeframe) : ofName? f.name = some f := by
  cases f <;> decide

end Timeframe

end Candlestick
