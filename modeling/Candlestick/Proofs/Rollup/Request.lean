import Candlestick.Proofs.Rollup.Admission

/-!
# Requests to a rollup

A rollup is fed by ticks, sandwiches and raw ticks, and may be asked to close its period. All that
a request can come to is listed by `Rollup.Performed`. Every state that requests can lead to from
usable settings is sound (`Rollup.Reachable.sound`).
-/

namespace Candlestick

lemma RawTick.decode_eq_error {raw : RawTick} {e : Error} (h : raw.decode = .error e) :
    Category.ofTag? raw.tag = none ∧ e = .invalidCategory raw.tag := by
  unfold decode at h
  split at h
  · cases h
  · next hnone =>
    cases h
    exact ⟨hnone, rfl⟩

namespace Rollup

/-- A call on a rollup that goes on after it. -/
inductive Request
  | tick (key : ContractKey) (r : TickRecord)
  | sandwich (key : ContractKey) (s : Sandwich)
  | raw (t : RawTick)
  | close
deriving DecidableEq

namespace Request

/-- What a request does. -/
def call : Request → Call (Option Summary)
  | tick key r => process key r
  | sandwich key s => processSandwich key s
  | raw t => processRaw t
  | close => closePeriod

/-- What a request offers to the table. -/
def offer? : Request → Option Offer
  | tick key r => some (.single key r)
  | sandwich key s => some (.sandwich key s)
  | raw t =>
    match t.decode with
    | .ok (key, r) => some (.single key r)
    | .error _ => none
  | close => none

end Request

variable {s s' : Rollup} {o : Offer} {q : Request}

/-! ### What each request does -/

lemma checkKey_eq (key : ContractKey) (s : Rollup) :
    checkKey key s = if key = .null then .error .nullKey s else .ok () s := by
  rw [checkKey]
  by_cases hkey : key = .null
  · rw [if_pos hkey, if_pos (ContractKey.isNull_iff.mpr hkey)]
    rfl
  · rw [if_neg hkey, if_neg (mt ContractKey.isNull_iff.mp hkey)]
    rfl

lemma process_eq (key : ContractKey) (r : TickRecord) (s : Rollup) :
    process key r s = if key = .null then .error .nullKey s else offer (.single key r) s := by
  change EStateM.bind (checkKey key) _ s = _
  rw [EStateM.bind, checkKey_eq]
  split_ifs <;> rfl

/-- A sandwich is checked as a bucket without ticks would check it. -/
lemma checkFits_eq (key : ContractKey) (sandwich : Sandwich) (s : Rollup) :
    checkFits key sandwich s =
      match (s.table.newBucket.claim key).lackFor? sandwich with
      | some e => .error e s
      | none => .ok () s := by
  rw [checkFits, get_bind, ContractTable.newBucket, Bucket.lackFor?_empty_claim]
  cases s.table.config.layout with
  | flat =>
    dsimp only
    split_ifs <;> rfl
  | perCategory =>
    dsimp only
    cases Category.all.find? fun c => decide (s.table.config.bucketSize.toNat < sandwich.count c) <;>
      rfl

lemma processSandwich_eq (key : ContractKey) (sandwich : Sandwich) (s : Rollup) :
    processSandwich key sandwich s =
      if key = .null then .error .nullKey s
      else
        match (s.table.newBucket.claim key).lackFor? sandwich with
        | some e => .error e s
        | none => offer (.sandwich key sandwich) s := by
  change EStateM.bind (checkKey key) _ s = _
  rw [EStateM.bind, checkKey_eq]
  split_ifs with hkey
  · rfl
  · change EStateM.bind (checkFits key sandwich) _ s = _
    rw [EStateM.bind, checkFits_eq]
    cases (s.table.newBucket.claim key).lackFor? sandwich with
    | some e => rfl
    | none =>
      rw [offer, show (Offer.sandwich key sandwich).ticks.length = sandwich.size from
        sandwich.length_records]
      rfl

lemma processRaw_of_error {raw : RawTick} {e : Error} (h : raw.decode = .error e) (s : Rollup) :
    processRaw raw s = .error e { s with stats.invalid := s.stats.invalid + 1 } := by
  rw [processRaw, h]
  rfl

lemma processRaw_of_ok {raw : RawTick} {key : ContractKey} {r : TickRecord}
    (h : raw.decode = .ok (key, r)) (s : Rollup) : processRaw raw s = process key r s := by
  rw [processRaw, h]

/-! ### What a request can come to -/

/-- What a request can come to. -/
inductive Performed (s : Rollup) : Request → Outcome → Prop
  | undecodable {t : RawTick} {e : Error} (hdecode : t.decode = .error e) :
      Performed s (.raw t) (.error e { s with stats.invalid := s.stats.invalid + 1 })
  | null {q : Request} {o : Offer} (hoffer : q.offer? = some o) (hkey : o.key = .null) :
      Performed s q (.error .nullKey s)
  /-- A sandwich would not fit a bucket without ticks. -/
  | misfit {key : ContractKey} {sandwich : Sandwich} {c : Option Category} (hkey : key ≠ .null)
      (hlack : Bucket.addSandwich sandwich (s.table.newBucket.claim key) =
        .error (.bucketFull key c) (s.table.newBucket.claim key)) :
      Performed s (.sandwich key sandwich) (.error (.bucketFull key c) s)
  | offered {q : Request} {o : Offer} {r : Outcome}
      (hoffer : q.offer? = some o) (hkey : o.key ≠ .null) (hfit : o.Fits s.table.newBucket)
      (hadmission : Admission s o r) : Performed s q r
  | closed {r : Outcome} (hclosing : Closing s false r) :
      Performed s .close r

lemma fits_single (h : s.table.WellFormed) (key : ContractKey) (r : TickRecord) :
    (Offer.single key r).Fits s.table.newBucket :=
  Bucket.add_empty_claim s.table.config.layout h.bucketSize_pos key r

lemma fits_sandwich {key : ContractKey} {sandwich : Sandwich}
    (h : (s.table.newBucket.claim key).lackFor? sandwich = none) :
    (Offer.sandwich key sandwich).Fits s.table.newBucket := by
  change Bucket.addSandwich sandwich (s.table.newBucket.claim key) = _
  rw [Bucket.addSandwich_eq, h]
  rfl

lemma Performed.of_process (h : s.Sound) {key : ContractKey} {r : TickRecord}
    (hoffer : q.offer? = some (.single key r)) : Performed s q (process key r s) := by
  rw [process_eq]
  split_ifs with hkey
  · exact .null hoffer hkey
  · have hfit := fits_single h.table key r
    exact .offered hoffer hkey hfit (.of_offer h hkey hfit)

/-- All that a request can come to. -/
lemma Performed.of_call (h : s.Sound) (q : Request) : Performed s q (q.call s) := by
  cases q with
  | tick key r => exact .of_process h rfl
  | sandwich key sandwich =>
    rw [Request.call, processSandwich_eq]
    split_ifs with hkey
    · exact .null rfl hkey
    · cases hlack : (s.table.newBucket.claim key).lackFor? sandwich with
      | some e =>
        obtain ⟨c, rfl⟩ := Bucket.lackFor?_eq_some hlack
        exact .misfit hkey (by rw [Bucket.addSandwich_eq, hlack]; rfl)
      | none =>
        have hfit := fits_sandwich hlack
        exact .offered rfl hkey hfit (.of_offer h hkey hfit)
  | raw t =>
    rw [Request.call]
    cases hdecode : t.decode with
    | error e =>
      rw [processRaw_of_error hdecode]
      exact .undecodable hdecode
    | ok tick =>
      obtain ⟨key, r⟩ := tick
      rw [processRaw_of_ok hdecode]
      exact .of_process h (by rw [Request.offer?, hdecode])
  | close => exact .closed (.of_takeSummary h false)

lemma Performed.sound {r : Outcome} (h : Performed s q r)
    (hs : s.Sound) : (stateOf r).Sound := by
  cases h with
  | undecodable => exact ⟨hs.table, hs.active_eq_nil⟩
  | null | misfit => exact hs
  | offered _ _ _ hadmission => exact hadmission.sound hs
  | closed hclosing => exact hclosing.sound hs

lemma Performed.settings_eq {r : Outcome}
    (h : Performed s q r) : (stateOf r).settings = s.settings := by
  cases h with
  | undecodable | null | misfit => rfl
  | offered _ _ _ hadmission => exact hadmission.settings_eq
  | closed hclosing =>
    cases hclosing with
    | idle | overflowed | emitted => rfl

lemma sound_call (h : s.Sound) (q : Request) : (stateOf (q.call s)).Sound :=
  (Performed.of_call h q).sound h

lemma settings_call (h : s.Sound) (q : Request) : (stateOf (q.call s)).settings = s.settings :=
  (Performed.of_call h q).settings_eq

/-! ### Reachable states -/

/-- The states that requests lead to, failed ones included. -/
inductive Reachable : Rollup → Prop
  | fresh {config : RollupConfig} {s : Rollup} (h : ofConfig config = .ok s) : Reachable s
  | call {s : Rollup} (h : Reachable s) (q : Request) : Reachable (stateOf (q.call s))

lemma ofConfig_eq_ok_iff {config : RollupConfig} :
    ofConfig config = .ok s ↔
      ∃ table, ContractTable.ofConfig config.table = .ok table ∧
        s = ⟨table, config.timeframe, config.overflow, none, .zero⟩ := by
  rw [ofConfig]
  cases ContractTable.ofConfig config.table with
  | error e => simp [bind, Except.bind]
  | ok table => simp [bind, Except.bind, pure, Except.pure, eq_comm]

/-- A rollup by minutes with room for one tick of one contract. -/
def narrow (overflow : OverflowPolicy) : Rollup where
  table := { config := ⟨1, 1, .flat, 0⟩, slots := #[none], used := #[] }
  timeframe := .minute1
  overflow
  periodStart := none
  stats := .zero

lemma ofConfig_narrow (overflow : OverflowPolicy) :
    ofConfig ⟨⟨1, 1, .flat, 0⟩, .minute1, overflow⟩ = .ok (narrow overflow) := rfl

/-- A tick that takes up the room of a narrow rollup. -/
def narrowTick : TickRecord where
  timestamp := ⟨60, 0, by decide, by decide, by decide⟩
  category := .trade
  price := .zero
  quantity := .zero

lemma eq_of_ofConfig {config : RollupConfig} (h : ofConfig config = .ok s) :
    s.table.active = [] ∧ s.settings = config := by
  obtain ⟨table, htable, rfl⟩ := ofConfig_eq_ok_iff.mp h
  obtain ⟨-, rfl⟩ := ContractTable.ofConfig_eq_ok_iff.mp htable
  exact ⟨rfl, rfl⟩

lemma Sound.of_ofConfig {config : RollupConfig} (h : ofConfig config = .ok s) : s.Sound := by
  refine ⟨?_, fun _ => (eq_of_ofConfig h).1⟩
  obtain ⟨table, htable, rfl⟩ := ofConfig_eq_ok_iff.mp h
  exact .of_ofConfig htable

/-- A narrow rollup that has no room left. -/
def narrowed (overflow : OverflowPolicy) : Rollup :=
  stateOf ((Request.tick ⟨1, 0, 0⟩ narrowTick).call (narrow overflow))

lemma reachable_narrowed (overflow : OverflowPolicy) : (narrowed overflow).Reachable :=
  .call (.fresh (ofConfig_narrow overflow)) _

lemma Reachable.sound (h : s.Reachable) : s.Sound := by
  induction h with
  | fresh h => exact .of_ofConfig h
  | call _ q ih => exact sound_call ih q

end Rollup

end Candlestick
