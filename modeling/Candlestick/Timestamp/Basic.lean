import Candlestick.Date
import Candlestick.Digits

/-!
# Timestamps

A timestamp is a moment of universal time to the nanosecond. Its nanoseconds stay below two thousand
million: from one thousand million on they lie in a leap second, which follows the second that
`Timestamp.seconds` counts and is not counted itself. A leap second is the last of a minute as a
rule, but any second may be followed by one.
-/

namespace Candlestick

/-- A moment: seconds since the start of 1970, and nanoseconds into the second. -/
structure Timestamp where
  seconds : Int
  nanos : Nat
  seconds_ge : -8334601228800 ≤ seconds
  seconds_le : seconds ≤ 8210266876799
  nanos_lt : nanos < 2 * 10 ^ 9
deriving DecidableEq

namespace Timestamp

/-- The bounds on the parts of a timestamp. -/
def InBounds (seconds : Int) (nanos : Nat) : Prop :=
  (-8334601228800 ≤ seconds ∧ seconds ≤ 8210266876799) ∧ nanos < 2 * 10 ^ 9

instance (seconds : Int) (nanos : Nat) : Decidable (InBounds seconds nanos) :=
  inferInstanceAs (Decidable (_ ∧ _))

/-- The timestamp with the given parts, if they are within bounds. -/
def ofParts? (seconds : Int) (nanos : Nat) : Option Timestamp :=
  if h : InBounds seconds nanos then some ⟨seconds, nanos, h.1.1, h.1.2, h.2⟩ else none

/-- Whether the moment lies in a leap second. -/
def isLeap (t : Timestamp) : Bool :=
  10 ^ 9 ≤ t.nanos

/-- The years that timestamps span. -/
def IsYear (year : Int) : Prop :=
  -262143 ≤ year ∧ year ≤ 262142

instance (year : Int) : Decidable (IsYear year) :=
  inferInstanceAs (Decidable (_ ∧ _))

/-! ### Order -/

instance : LT Timestamp :=
  ⟨fun t u => t.seconds < u.seconds ∨ t.seconds = u.seconds ∧ t.nanos < u.nanos⟩

instance : LE Timestamp :=
  ⟨fun t u => t.seconds < u.seconds ∨ t.seconds = u.seconds ∧ t.nanos ≤ u.nanos⟩

instance (t u : Timestamp) : Decidable (t < u) :=
  inferInstanceAs (Decidable (_ ∨ _))

instance (t u : Timestamp) : Decidable (t ≤ u) :=
  inferInstanceAs (Decidable (_ ∨ _))

protected def min (t u : Timestamp) : Timestamp :=
  if u < t then u else t

protected def max (t u : Timestamp) : Timestamp :=
  if t < u then u else t

/-! ### Nanosecond counts -/

/-- The nanoseconds since the start of 1970; a leap second shares its count with the next one. -/
def stamp (t : Timestamp) : Int :=
  t.seconds * 10 ^ 9 + t.nanos

/-- The timestamp outside leap seconds with the given nanosecond count. -/
def ofStamp? (stamp : Int) : Option Timestamp :=
  ofParts? (stamp / 10 ^ 9) (stamp % 10 ^ 9).toNat

/-- The timestamp `span` nanoseconds earlier, which a leap second reaches without leaving itself
if the span is less than a second. -/
def back? (t : Timestamp) (span : Nat) : Option Timestamp :=
  if t.isLeap ∧ span < 10 ^ 9 then ofParts? t.seconds (t.nanos - span)
  else ofStamp? (t.stamp - span)

theorem ofParts?_eq_some_iff {s : Int} {n : Nat} {t : Timestamp} :
    ofParts? s n = some t ↔ t.seconds = s ∧ t.nanos = n := by
  unfold ofParts?
  constructor
  · intro h
    split at h
    · cases h; exact ⟨rfl, rfl⟩
    · cases h
  · rintro ⟨rfl, rfl⟩
    rw [dif_pos ⟨⟨t.seconds_ge, t.seconds_le⟩, t.nanos_lt⟩]

theorem ofParts?_seconds_nanos (t : Timestamp) : ofParts? t.seconds t.nanos = some t :=
  ofParts?_eq_some_iff.2 ⟨rfl, rfl⟩

end Timestamp

end Candlestick
