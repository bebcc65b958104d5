import Candlestick.Bucket

/-!
# Tables of contracts

A table has a set number of slots, each with room for the bucket of one contract. A contract's
slot is looked for from the slot its key hashes to, going round, and a slot without an owner ends
the search. Slots are claimed one by one and released all together.
-/

namespace Candlestick

/-- The buckets of the contracts seen since the last rinse. -/
structure ContractTable where
  config : TableConfig
  /-- The bucket of each slot, made when the slot is first claimed and kept from then on. -/
  slots : Array (Option Bucket)
  /-- The slots that have an owner, in the order they were claimed. -/
  used : Array Nat
deriving DecidableEq

namespace ContractTable

/-- A call on a table; a call that fails may leave a changed table behind. -/
abbrev Call := EStateM Error ContractTable

/-- An empty table, if its settings can be used. -/
def ofConfig (config : TableConfig) : Except ConfigError ContractTable := do
  config.validate
  return { config, slots := .replicate config.capacity.toNat none, used := #[] }

def capacity (t : ContractTable) : Nat :=
  t.slots.size

/-- The number of slots that have an owner. -/
def activeCount (t : ContractTable) : Nat :=
  t.used.size

/-- The number of slots that have a bucket, with or without an owner. -/
def allocatedCount (t : ContractTable) : Nat :=
  t.slots.countP Option.isSome

def bucket? (t : ContractTable) (slot : Nat) : Option Bucket :=
  t.slots[slot]?.join

/-- The bucket of a slot that has an owner. -/
def owned? (t : ContractTable) (slot : Nat) : Option Bucket :=
  (t.bucket? slot).filter (·.isClaimed)

/-! ### Looking for a key -/

/-- Where the search for a key ends. -/
inductive Probe
  /-- The slot that the key owns, with its bucket. -/
  | occupied (slot : Nat) (bucket : Bucket)
  /-- The first slot without an owner. -/
  | free (slot : Nat)
deriving DecidableEq

/-- The slot where the search for a key starts. -/
def home (t : ContractTable) (key : ContractKey) : Nat :=
  (t.config.hasher.hash key).toNat % t.capacity

/-- The slot that is `steps` further round than the key's home. -/
def slotAt (t : ContractTable) (key : ContractKey) (steps : Nat) : Nat :=
  (t.home key + steps) % t.capacity

/-- What ends the search for a key at a slot, if anything does, by the bucket of its owner. -/
def Probe.ofOwned (key : ContractKey) (slot : Nat) : Option Bucket → Option Probe
  | none => some (.free slot)
  | some b => if b.key = key then some (.occupied slot b) else none

/-- What ends the search for a key `steps` further round than its home, if anything does. -/
def visit (t : ContractTable) (key : ContractKey) (steps : Nat) : Option Probe :=
  Probe.ofOwned key (t.slotAt key steps) (t.owned? (t.slotAt key steps))

/-- Searches the last `left` slots of the way round that starts at the key's home. -/
def probeLast (t : ContractTable) (key : ContractKey) : (left : Nat) → Option Probe
  | 0 => none
  | left + 1 => (t.visit key (t.capacity - (left + 1))).or (t.probeLast key left)

/-- Searches all slots for a key. -/
def probe (t : ContractTable) (key : ContractKey) : Option Probe :=
  if key.isNull then none else t.probeLast key t.capacity

/-- A slot with an owner, and its bucket. -/
structure Entry where
  slot : Nat
  bucket : Bucket
deriving DecidableEq

/-- The entry of a contract. -/
def entry? (t : ContractTable) (key : ContractKey) : Option Entry :=
  match t.probe key with
  | some (.occupied slot bucket) => some { slot, bucket }
  | _ => none

/-- The bucket of a contract. -/
def find? (t : ContractTable) (key : ContractKey) : Option Bucket :=
  (t.entry? key).map (·.bucket)

/-! ### Changing a table -/

def put (t : ContractTable) (slot : Nat) (b : Bucket) : ContractTable :=
  { t with slots := t.slots.setIfInBounds slot (some b) }

/-- A new bucket as the settings ask for it. -/
def newBucket (t : ContractTable) : Bucket :=
  .empty t.config.layout t.config.bucketSize.toNat

/-- Gives a slot without an owner to a contract. -/
def claimSlot (t : ContractTable) (slot : Nat) (key : ContractKey) : Entry × ContractTable :=
  let bucket := ((t.bucket? slot).getD t.newBucket).claim key
  ({ slot, bucket }, { t.put slot bucket with used := t.used.push slot })

/-- The entry of a contract, which claims a slot if it has none. -/
def claim (key : ContractKey) : Call Entry := do
  if key.isNull then throw .nullKey
  let t ← get
  match t.probe key with
  | some (.occupied slot bucket) => return { slot, bucket }
  | some (.free slot) => modifyGet (·.claimSlot slot key)
  | none => throw (.tableFull t.capacity)

/--
Claims a slot for a contract and adds to its bucket. A contract whose bucket has no room keeps a
slot it has newly claimed, with the bucket as the failed addition leaves it.
-/
def insert (key : ContractKey) (add : Bucket.Call Unit) : Call Unit :=
  fun t =>
    match claim key t with
    | .error e t => .error e t
    | .ok entry t =>
      match add entry.bucket with
      | .error e b => .error e (t.put entry.slot b)
      | .ok () b => .ok () (t.put entry.slot b)

/-- Changes the bucket of every slot that has an owner. -/
def mapUsed (t : ContractTable) (f : Bucket → Bucket) : ContractTable :=
  { t with slots := t.used.foldl (fun slots slot => slots.modify slot (·.map f)) t.slots }

/-- Releases all slots; their buckets stay for the next owners. -/
def rinse (t : ContractTable) : ContractTable :=
  { t.mapUsed Bucket.rinse with used := #[] }

/-- Drops the ticks of all contracts, which keep their slots. -/
def flush (t : ContractTable) : ContractTable :=
  t.mapUsed Bucket.flush

/-! ### Contents -/

/-- The contracts and their buckets, in the order the contracts were first seen. -/
def active (t : ContractTable) : List (ContractKey × Bucket) :=
  t.used.toList.filterMap fun slot => (t.bucket? slot).map fun b => (b.key, b)

/-- The contracts and their candles, in the order the contracts were first seen. -/
def candles (t : ContractTable) : Except Decimal.Overflow (List (ContractKey × ContractCandle)) :=
  t.active.mapM fun (key, b) => b.aggregate.map (key, ·)

end ContractTable

end Candlestick
