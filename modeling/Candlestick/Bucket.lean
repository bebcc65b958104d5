import Candlestick.Config.Basic
import Candlestick.ContractCandle

/-!
# Buckets

A bucket keeps the ticks of one contract in a set amount of room, in order of arrival: in one
array that all categories share, or in one array for each category.
-/

namespace Candlestick

/-- The ticks of a bucket in their layout. -/
inductive Storage
  | flat (ticks : Array TickRecord)
  | perCategory (ticks : ByCategory (Array TickRecord))
deriving DecidableEq

namespace Storage

/-- No ticks, in the given layout. -/
def empty : Layout → Storage
  | .flat => .flat #[]
  | .perCategory => .perCategory (.fill #[])

def layout : Storage → Layout
  | .flat _ => .flat
  | .perCategory _ => .perCategory

/-- The array that takes in the ticks of a category. -/
def array : Storage → Category → Array TickRecord
  | .flat ticks, _ => ticks
  | .perCategory ticks, c => ticks.get c

/-- All arrays, in storage order. -/
def arrays : Storage → List (Array TickRecord)
  | .flat ticks => [ticks]
  | .perCategory ticks => ticks.toList

/-- Puts a tick at the end of the array of its category. -/
def push : Storage → TickRecord → Storage
  | .flat ticks, r => .flat (ticks.push r)
  | .perCategory ticks, r => .perCategory (ticks.modify (·.push r) r.category)

end Storage

/-- A store of the ticks of one contract; the null key marks a store that no contract owns. -/
structure Bucket where
  key : ContractKey
  /-- The number of ticks each array has room for. -/
  capacity : Nat
  storage : Storage
deriving DecidableEq

namespace Bucket

/-- A call on a bucket; a call that fails may leave a changed bucket behind. -/
abbrev Call := EStateM Error Bucket

/-- A bucket that no contract owns, without ticks. -/
def empty (layout : Layout) (capacity : Nat) : Bucket where
  key := .null
  capacity
  storage := .empty layout

/-- Whether a contract owns the bucket. -/
def isClaimed (b : Bucket) : Bool :=
  !b.key.isNull

def layout (b : Bucket) : Layout :=
  b.storage.layout

/-- The ticks in storage order: arrival order, within each category if these are kept apart. -/
def ticks (b : Bucket) : List TickRecord :=
  b.storage.arrays.flatMap Array.toList

/-- The ticks of a category in arrival order. -/
def ticksOf (b : Bucket) (c : Category) : List TickRecord :=
  (b.storage.array c).toList.filter (·.category == c)

def size (b : Bucket) : Nat :=
  b.storage.arrays.foldl (fun n ticks => n + ticks.size) 0

def sizeOf (b : Bucket) (c : Category) : Nat :=
  match b.storage with
  | .flat ticks => ticks.countP (·.category == c)
  | .perCategory ticks => (ticks.get c).size

def isEmpty (b : Bucket) : Bool :=
  b.storage.arrays.all Array.isEmpty

/-- Whether some array has no room. -/
def isFull (b : Bucket) : Bool :=
  b.storage.arrays.any (b.capacity ≤ ·.size)

/-- Whether a tick of a category has no room. -/
def isFullFor (b : Bucket) (c : Category) : Bool :=
  b.capacity ≤ (b.storage.array c).size

/-- The error that reports a lack of room for a category. -/
def fullError (b : Bucket) (c : Category) : Error :=
  match b.layout with
  | .flat => .bucketFull b.key none
  | .perCategory => .bucketFull b.key (some c)

/-- The bucket with one more tick, whether or not there is room. -/
def push (b : Bucket) (r : TickRecord) : Bucket :=
  { b with storage := b.storage.push r }

/-- Takes in a tick if there is room. -/
def add (r : TickRecord) : Call Unit := do
  let b ← get
  if b.isFullFor r.category then throw (b.fullError r.category)
  modify (·.push r)

/-- The first lack of room that keeps the legs of a sandwich from being taken in together. -/
def lackFor? (b : Bucket) (s : Sandwich) : Option Error :=
  match b.storage with
  | .flat ticks =>
    if b.capacity < ticks.size + s.size then some (.bucketFull b.key none) else none
  | .perCategory ticks =>
    (Category.all.find? fun c => b.capacity < (ticks.get c).size + s.count c).map fun c =>
      .bucketFull b.key (some c)

/-- Takes in all legs of a sandwich in their order, if there is room for all. -/
def addSandwich (s : Sandwich) : Call Unit := do
  match (← get).lackFor? s with
  | some e => throw e
  | none => s.records.forM fun r => modify (·.push r)

def flush (b : Bucket) : Bucket :=
  { b with storage := .empty b.layout }

/-- Gives the bucket to a contract. -/
def claim (b : Bucket) (key : ContractKey) : Bucket :=
  { b with key }

/-- Takes the bucket from its contract and drops all ticks. -/
def rinse (b : Bucket) : Bucket :=
  { b.flush with key := .null }

/-- The candles of the ticks, folded in storage order. -/
def aggregate (b : Bucket) : Except Decimal.Overflow ContractCandle :=
  ContractCandle.ofRecords b.ticks

end Bucket

end Candlestick
