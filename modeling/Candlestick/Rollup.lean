import Candlestick.ContractTable
import Candlestick.Summary
import Candlestick.Timeframe.Period

/-!
# Rolling ticks up

A rollup takes in ticks in order of time. The first tick of another period closes the one that is
open: its candles are emitted as a summary and the table is rinsed. What happens to a tick that
does not fit is up to the overflow policy.
-/

namespace Candlestick

/-- The counters of a rollup. They grow from zero by at most three with a call: no feed takes them
to `2 ^ 64`. -/
structure Stats where
  /-- Ticks that were stored. -/
  ticks : Nat
  /-- Ticks that did not fit and were dropped. -/
  dropped : Nat
  /-- Raw ticks whose category is unknown. -/
  invalid : Nat
  /-- Summaries that were emitted. -/
  periods : Nat
  /-- Summaries that were emitted early to make room. -/
  earlyRollups : Nat
deriving DecidableEq, Repr

def Stats.zero : Stats := ⟨0, 0, 0, 0, 0⟩

/-- The state of a rollup. -/
structure Rollup where
  table : ContractTable
  timeframe : Timeframe
  overflow : OverflowPolicy
  /-- The start of the open period, once there has been a tick. -/
  periodStart : Option Timestamp
  stats : Stats
deriving DecidableEq

namespace Rollup

/-- A call on a rollup; a call that fails may leave a changed state behind. -/
abbrev Call := EStateM Error Rollup

/-- A rollup before its first tick, if its settings can be used. -/
def ofConfig (config : RollupConfig) : Except ConfigError Rollup := do
  let table ← ContractTable.ofConfig config.table
  return {
    table
    timeframe := config.timeframe
    overflow := config.overflow
    periodStart := none
    stats := .zero }

def count (f : Stats → Stats) : Call Unit :=
  modify fun s => { s with stats := f s.stats }

/-- The candles of all contracts; nothing changes if they overflow. -/
def candles : Call (List (ContractKey × ContractCandle)) :=
  fun s =>
    match s.table.candles with
    | .ok cs => .ok cs s
    | .error cause => .error (.overflow cause) s

/-- Emits the candles of all contracts and rinses the table, unless there are no contracts. -/
def takeSummary (complete : Bool) : Call (Option Summary) := do
  let s ← get
  match s.periodStart with
  | none => return none
  | some periodStart =>
    if s.table.activeCount = 0 then return none
    let candles ← candles
    modify fun s => { s with table := s.table.rinse }
    count fun c => { c with periods := c.periods + 1 }
    return some { periodStart, timeframe := s.timeframe, complete, candles }

/-- Opens the period of a moment; another period that is open is closed. -/
def rollTo (timestamp : Timestamp) : Call (Option Summary) := do
  let s ← get
  match s.timeframe.periodStart? timestamp with
  | none => throw (.unalignable timestamp)
  | some start =>
    if s.periodStart = some start then return none
    let closed ← if s.periodStart.isSome then takeSummary true else pure none
    modify fun s => { s with periodStart := some start }
    return closed

/-- Adds to the bucket of a contract. -/
def insert (key : ContractKey) (add : Bucket.Call Unit) : Call Unit :=
  fun s =>
    match ContractTable.insert key add s.table with
    | .ok () table => .ok () { s with table }
    | .error e table => .error e { s with table }

/-- Does what the policy asks for with `legs` ticks that do not fit because of `e`. -/
def applyPolicy (key : ContractKey) (legs : Nat) (add : Bucket.Call Unit) (e : Error) :
    Call (Option Summary) := do
  match (← get).overflow with
  | .reject => throw e
  | .dropTick =>
    count fun c => { c with dropped := c.dropped + legs }
    return none
  | .earlyRollup =>
    let early ← takeSummary false
    count fun c => { c with earlyRollups := c.earlyRollups + 1 }
    insert key add
    count fun c => { c with ticks := c.ticks + legs }
    return early

/-- Adds `legs` ticks to the bucket of a contract, under the overflow policy. -/
def store (key : ContractKey) (legs : Nat) (add : Bucket.Call Unit) : Call (Option Summary) :=
  fun s =>
    match insert key add s with
    | .ok () s => .ok none { s with stats.ticks := s.stats.ticks + legs }
    | .error e s => if e.isCapacity then applyPolicy key legs add e s else .error e s

/-- Asks that a key names a contract. -/
def checkKey (key : ContractKey) : Call Unit :=
  if key.isNull then throw .nullKey else pure ()

/-- Asks that a sandwich fits an empty bucket of its contract. -/
def checkFits (key : ContractKey) (sandwich : Sandwich) : Call Unit := do
  let config := (← get).table.config
  let size := config.bucketSize.toNat
  match config.layout with
  | .flat => if size < sandwich.size then throw (.bucketFull key none)
  | .perCategory =>
    match Category.all.find? fun c => size < sandwich.count c with
    | some c => throw (.bucketFull key (some c))
    | none => pure ()

/-- Takes in one tick. The summary is of ticks taken in before it. -/
def process (key : ContractKey) (record : TickRecord) : Call (Option Summary) := do
  checkKey key
  let closed ← rollTo record.timestamp
  let early ← store key 1 (Bucket.add record)
  return closed.or early

/--
Takes in all legs of a sandwich or none. A sandwich that would not fit an empty bucket is refused
under every policy.
-/
def processSandwich (key : ContractKey) (sandwich : Sandwich) : Call (Option Summary) := do
  checkKey key
  checkFits key sandwich
  let closed ← rollTo sandwich.timestamp
  let early ← store key sandwich.size (Bucket.addSandwich sandwich)
  return closed.or early

/-- Decodes and takes in one tick; one whose category is unknown is counted and refused. -/
def processRaw (raw : RawTick) : Call (Option Summary) := do
  match raw.decode with
  | .ok (key, record) => process key record
  | .error e =>
    count fun c => { c with invalid := c.invalid + 1 }
    throw e

/-- Emits what the open period holds so far; the period stays open. -/
def closePeriod : Call (Option Summary) :=
  takeSummary false

/-- Emits what the open period holds at the end of the feed. -/
def finish : Call (Option Summary) :=
  takeSummary true

end Rollup

end Candlestick
