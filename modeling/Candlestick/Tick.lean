import Candlestick.Error

/-!
# Ticks

A tick record is one quote or trade. A sandwich is a group of one to three ticks of one moment,
its legs, that are taken in together or not at all. A raw tick is a record whose category is still
a number.
-/

namespace Candlestick

/-- One quote or trade. -/
structure TickRecord where
  timestamp : Timestamp
  category : Category
  price : Decimal
  quantity : Decimal
deriving DecidableEq

/-- One tick of a sandwich. -/
structure Leg where
  category : Category
  price : Decimal
  quantity : Decimal
deriving DecidableEq

def Leg.record (leg : Leg) (timestamp : Timestamp) : TickRecord where
  timestamp
  category := leg.category
  price := leg.price
  quantity := leg.quantity

def TickRecord.leg (r : TickRecord) : Leg where
  category := r.category
  price := r.price
  quantity := r.quantity

/-- One to three ticks of one moment. -/
structure Sandwich where
  timestamp : Timestamp
  legs : List Leg
  legs_ne_nil : legs ≠ []
  length_legs_le : legs.length ≤ 3
deriving DecidableEq

namespace Sandwich

/-- The sandwich with the given legs, if their number is right. -/
def ofLegs (timestamp : Timestamp) (legs : List Leg) : Except Error Sandwich :=
  if h : legs ≠ [] ∧ legs.length ≤ 3 then .ok ⟨timestamp, legs, h.1, h.2⟩
  else .error (.sandwichSize legs.length)

def single (r : TickRecord) : Sandwich where
  timestamp := r.timestamp
  legs := [r.leg]
  legs_ne_nil := by simp
  length_legs_le := by simp

def size (s : Sandwich) : Nat :=
  s.legs.length

/-- The records of the legs, in the order given. -/
def records (s : Sandwich) : List TickRecord :=
  s.legs.map (·.record s.timestamp)

def count (s : Sandwich) (c : Category) : Nat :=
  s.legs.countP (·.category == c)

theorem length_records (s : Sandwich) : s.records.length = s.size := by
  simp [records, size]

theorem size_pos (s : Sandwich) : 0 < s.size :=
  List.length_pos_iff.2 s.legs_ne_nil

@[simp] theorem records_single (r : TickRecord) : (single r).records = [r] := rfl

end Sandwich

/-- A tick of a contract as it comes in, with its category as a number. -/
structure RawTick where
  key : ContractKey
  timestamp : Timestamp
  tag : UInt8
  price : Decimal
  quantity : Decimal
deriving DecidableEq

/-- The contract and the record of a raw tick. -/
def RawTick.decode (raw : RawTick) : Except Error (ContractKey × TickRecord) :=
  match Category.ofTag? raw.tag with
  | some category =>
    let leg : Leg := { category, price := raw.price, quantity := raw.quantity }
    .ok (raw.key, leg.record raw.timestamp)
  | none => .error (.invalidCategory raw.tag)

end Candlestick
