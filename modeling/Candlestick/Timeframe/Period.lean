import Candlestick.Timeframe.Basic
import Candlestick.Timestamp.Basic

/-!
# Periods

The moments of a timeframe fall into periods. A period starts at a multiple of its length since
the start of 1970, counted in nanoseconds; only moments whose count has room in a signed 64-bit
number have a period. A leap second at the end of a period is a period of its own.
-/

namespace Candlestick

/-- Whether the nanosecond count of a moment has room in a signed 64-bit number. -/
def Timestamp.IsAlignable (t : Timestamp) : Prop :=
  -2 ^ 63 ≤ t.stamp ∧ t.stamp < 2 ^ 63

instance (t : Timestamp) : Decidable t.IsAlignable :=
  inferInstanceAs (Decidable (_ ∧ _))

/-- The nanoseconds by which a moment is past a multiple of a span of whole seconds. -/
def Timestamp.pastMultiple (t : Timestamp) (seconds : Nat) : Nat :=
  (t.stamp % (seconds * 10 ^ 9)).toNat

namespace Timeframe

/-- The start of the period that holds a moment; the period of a single tick is its moment. -/
def periodStart? (f : Timeframe) (t : Timestamp) : Option Timestamp :=
  match f.seconds? with
  | none => some t
  | some seconds =>
    if t.IsAlignable then
      if t.pastMultiple seconds = 0 then some t else t.back? (t.pastMultiple seconds)
    else none

@[simp] theorem periodStart?_tick (t : Timestamp) : tick.periodStart? t = some t := rfl

end Timeframe

end Candlestick
