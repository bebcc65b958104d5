import Candlestick.Proofs.Rollup.Journal

/-!
# What settings do not show

Two rollups of one timeframe that get the same requests and always have room answer the same and
show the same, whatever their capacity, bucket size, layout, seed and policy: both do what one
journal does. Rollups that differ in nothing but the seed do so even without room
(`Rollup.runs_agree`).
-/

namespace Candlestick

namespace Rollup

variable {s t : Rollup} {j : Journal} {o : Offer} {q : Request} {qs : List Request}

/-! ### What is seen of a run -/

/-- What a call returns. -/
def answerOf : Outcome → Except Error (Option Summary)
  | .ok summary _ => .ok summary
  | .error e _ => .error e

/-- The contracts in their order, each with its ticks by category. -/
def contents (s : Rollup) : List (ContractKey × (Category → List TickRecord)) :=
  s.table.active.map fun entry => (entry.1, entry.2.ticksOf)

/-- Two rollups show the same. -/
structure Alike (s t : Rollup) : Prop where
  periodStart_eq : s.periodStart = t.periodStart
  stats_eq : s.stats = t.stats
  contents_eq : s.contents = t.contents

/-- Two rollups answer the same to requests and to the end of the feed, and show the same. -/
def Agree (s t : Rollup) : List Request → Prop
  | [] => Alike s t ∧ answerOf (finish s) = answerOf (finish t)
  | q :: qs =>
    Alike s t ∧ answerOf (q.call s) = answerOf (q.call t) ∧
      Agree (stateOf (q.call s)) (stateOf (q.call t)) qs

/-- What is done with a tick before the policy has a say. -/
def attemptTick (key : ContractKey) (r : TickRecord) : Call Unit := do
  checkKey key
  let _ ← rollTo r.timestamp
  insert key (Bucket.add r)

/-- What a request does before the policy has a say. -/
def Request.attempt : Request → Call Unit
  | tick key r => attemptTick key r
  | sandwich key s => do
    checkKey key
    checkFits key s
    let _ ← rollTo s.timestamp
    insert key (Bucket.addSandwich s)
  | raw t =>
    match t.decode with
    | .ok (key, r) => attemptTick key r
    | .error _ => return
  | close => return

/-- A request finds the table or a bucket full. -/
def Request.isCrowded (q : Request) (s : Rollup) : Bool :=
  match q.attempt s with
  | .error e _ => e.isCapacity
  | .ok _ _ => false

/-- No request finds the table or a bucket full. -/
def Roomy (s : Rollup) : List Request → Prop
  | [] => True
  | q :: qs => q.isCrowded s = false ∧ Roomy (stateOf (q.call s)) qs

/-! ### Journals that are told the same -/

lemma attemptTick_eq (key : ContractKey) (r : TickRecord) (s : Rollup) :
    attemptTick key r s =
      if key = .null then .error .nullKey s
      else
        match rollTo r.timestamp s with
        | .error e s => .error e s
        | .ok _ s => insert key (Bucket.add r) s := by
  change EStateM.bind (checkKey key) _ s = _
  rw [EStateM.bind, checkKey_eq]
  split_ifs
  · rfl
  · change EStateM.bind (rollTo r.timestamp) _ s = _
    rw [EStateM.bind]
    cases rollTo r.timestamp s <;> rfl

/-- A request that has ticks to offer attempts to insert them unless a check fails. -/
lemma Request.attempt_of_offer? (h : q.offer? = some o) (s : Rollup) :
    q.attempt s =
      if o.key = .null then .error .nullKey s
      else
        match q.misfit? s.table.newBucket with
        | some e => .error e s
        | none =>
          match rollTo o.timestamp s with
          | .error e s => .error e s
          | .ok _ s => insert o.key o.add s := by
  cases Offers.of_offer? h with
  | tick key r => exact attemptTick_eq key r s
  | sandwich key sandwich =>
    change EStateM.bind (checkKey key) _ s = _
    rw [EStateM.bind, checkKey_eq]
    change _ = if key = .null then _ else _
    split_ifs
    · rfl
    · change EStateM.bind (checkFits key sandwich) _ s = _
      rw [EStateM.bind, checkFits_eq, misfit?]
      cases (s.table.newBucket.claim key).lackFor? sandwich with
      | some e => rfl
      | none =>
        change EStateM.bind (rollTo sandwich.timestamp) _ s = _
        rw [EStateM.bind]
        dsimp only [Offer.sandwich]
        cases rollTo sandwich.timestamp s <;> rfl
  | raw hdecode =>
    rw [attempt, hdecode]
    exact attemptTick_eq _ _ s

lemma Request.misfit?_eq_none (hcrowded : q.isCrowded s = false) (hoffer : q.offer? = some o)
    (hkey : o.key ≠ .null) : q.misfit? s.table.newBucket = none := by
  rw [isCrowded, attempt_of_offer? hoffer, if_neg hkey] at hcrowded
  cases hmisfit : q.misfit? s.table.newBucket with
  | none => rfl
  | some e =>
    rw [hmisfit] at hcrowded
    cases Offers.of_offer? hoffer with
    | tick | raw => cases hmisfit
    | sandwich =>
      obtain ⟨c, rfl⟩ := Bucket.lackFor?_eq_some hmisfit
      cases hcrowded

/-- Ticks of the open period that do not find the table full are not refused by it. -/
lemma Request.refusal?_eq_none {start : Timestamp} (hs : s.Sound) (hcrowded : q.isCrowded s = false)
    (hoffer : q.offer? = some o) (hkey : o.key ≠ .null)
    (hstart : s.timeframe.periodStart? o.timestamp = some start)
    (hopen : s.periodStart = some start) :
    Roster.refusal? s.table.capacity s.table.active o = none := by
  have hmisfit := misfit?_eq_none hcrowded hoffer hkey
  have hinserted :=
    ContractTable.Inserted.of_insert hs.table hkey (fits_of_misfit? hs hoffer hmisfit)
  rw [isCrowded, attempt_of_offer? hoffer, if_neg hkey, hmisfit] at hcrowded
  simp only [rollTo_of_eq hstart hopen, insert] at hcrowded
  generalize ContractTable.insert o.key o.add s.table = r at hcrowded hinserted
  cases hinserted with
  | taken hroom => exact hroom
  | refused _ hcapacity => cases hcapacity.symm.trans hcrowded

/-- A journal that is not told of any lack of room does what a rollup with room does. -/
lemma Represents.perform_of_roomy (h : Represents j s) (hcrowded : q.isCrowded s = false) :
    j.perform s.settings (q.misfit? s.table.newBucket) (q.refusal? s.table) q =
      j.perform s.settings none none q := by
  cases hoffer : q.offer? with
  | none => simp only [Journal.perform.eq_def, hoffer]
  | some o =>
    simp only [Journal.perform.eq_def, hoffer]
    split_ifs with hkey
    · rfl
    · rw [Request.misfit?_eq_none hcrowded hoffer hkey, Request.refusal?, hoffer, Option.bind_some]
      dsimp only
      rw [Journal.offer.eq_def, Journal.offer.eq_def,
        show s.settings.timeframe = s.timeframe from rfl]
      cases hstart : s.timeframe.periodStart? o.timestamp with
      | none => rfl
      | some start =>
        dsimp only
        -- Room is asked for only if the ticks are of the open period.
        split_ifs with hopen
        · rw [h.periodStart_eq] at hopen
          rw [Request.refusal?_eq_none h.sound hcrowded hoffer hkey hstart hopen]
        · rfl

/-- Of all settings, a journal with room looks at the timeframe only. -/
lemma perform_congr {c d : RollupConfig} (h : c.timeframe = d.timeframe) (j : Journal)
    (q : Request) : j.perform c none none q = j.perform d none none q := by
  simp only [Journal.perform.eq_def, Journal.offer.eq_def, h]

/-! ### Runs that agree -/

lemma Represents.of_ofConfig {config : RollupConfig} (h : ofConfig config = .ok s) :
    Represents ⟨[], none, .zero⟩ s := by
  have hbalanced := Ledger.Balanced.start (.of_ofConfig h) (eq_of_ofConfig h).1
  obtain ⟨table, -, rfl⟩ := ofConfig_eq_ok_iff.mp h
  exact ⟨hbalanced, rfl, rfl⟩

lemma Represents.contents_eq (h : Represents j s) :
    s.contents = j.pending.keys.map fun key => (key, (·.select (j.pending.ticksOf key))) := by
  rw [contents, show s.table.active = _ from h.balanced.active_eq, Feed.roster, List.map_map]
  refine List.map_congr_left fun key _ => congrArg (Prod.mk key) (funext fun c => ?_)
  rw [Bucket.ticksOf_pushAll]
  exact congrArg (· ++ _) (Bucket.ticksOf_empty_claim _ _ key c)

/-- Rollups that one journal represents show the same. -/
lemma Alike.of_represents (hs : Represents j s) (ht : Represents j t) : Alike s t where
  periodStart_eq := hs.periodStart_eq.symm.trans ht.periodStart_eq
  stats_eq := hs.stats_eq.symm.trans ht.stats_eq
  contents_eq := hs.contents_eq.trans ht.contents_eq.symm

/-- Calls that match one call on a journal answer the same. -/
lemma Matches.agree {r : Journal.Outcome} {u v : Outcome} (hu : Matches r u) (hv : Matches r v) :
    answerOf u = answerOf v ∧
      ∃ j, Represents j (stateOf u) ∧ Represents j (stateOf v) := by
  cases hu with
  | ok hs =>
    cases hv with
    | ok ht => exact ⟨rfl, _, hs, ht⟩
  | error hs =>
    cases hv with
    | error ht => exact ⟨rfl, _, hs, ht⟩

lemma Agree.nil (hs : Represents j s) (ht : Represents j t) (h : s.timeframe = t.timeframe) :
    Agree s t [] := by
  have hfinish := hs.close true
  rw [h] at hfinish
  exact ⟨.of_represents hs ht, (hfinish.agree (ht.close true)).1⟩

/-- Runs that have room agree if their timeframe is the same. -/
lemma Agree.of_roomy (hs : Represents j s) (ht : Represents j t) (h : s.timeframe = t.timeframe)
    (hroom : Roomy s qs) (hroom' : Roomy t qs) : Agree s t qs := by
  induction qs generalizing j s t with
  | nil => exact .nil hs ht h
  | cons q qs ih =>
    have hcall := hs.call q
    rw [hs.perform_of_roomy hroom.1, perform_congr (d := t.settings) h,
      ← ht.perform_of_roomy hroom'.1] at hcall
    obtain ⟨hanswer, j', hs', ht'⟩ := hcall.agree (ht.call q)
    have htimeframe : (stateOf (q.call s)).timeframe = (stateOf (q.call t)).timeframe := by
      have hkept := congrArg RollupConfig.timeframe (settings_call hs.sound q)
      have hkept' := congrArg RollupConfig.timeframe (settings_call ht.sound q)
      exact hkept.trans (h.trans hkept'.symm)
    exact ⟨.of_represents hs ht, hanswer, ih hs' ht' htimeframe hroom.2 hroom'.2⟩

/-- The settings with another seed. -/
def reseed (c : RollupConfig) (seed : UInt32) : RollupConfig :=
  { c with table := { c.table with seed } }

/-- Another seed leaves room as it is. -/
lemma room_eq_of_reseed {seed : UInt32} (hs : Represents j s) (ht : Represents j t)
    (h : t.settings = reseed s.settings seed) (q : Request) :
    q.misfit? t.table.newBucket = q.misfit? s.table.newBucket ∧
      q.refusal? t.table = q.refusal? s.table := by
  have hconfig : t.table.config = { s.table.config with seed } := congrArg RollupConfig.table h
  have hnew : t.table.newBucket = s.table.newBucket := by
    rw [ContractTable.newBucket, hconfig]
    rfl
  have hcapacity : t.table.capacity = s.table.capacity := by
    rw [ht.sound.table.capacity_eq, hconfig, hs.sound.table.capacity_eq]
  have hactive : t.table.active = s.table.active := by
    refine ht.balanced.active_eq.trans (Eq.trans ?_ hs.balanced.active_eq.symm)
    exact congrArg (Feed.roster · j.pending) hnew
  rw [Request.refusal?, hcapacity, hactive, hnew]
  exact ⟨rfl, rfl⟩

/-- Runs that differ in nothing but the seed agree. -/
lemma Agree.of_reseed {seed : UInt32} (hs : Represents j s) (ht : Represents j t)
    (h : t.settings = reseed s.settings seed) : Agree s t qs := by
  induction qs generalizing j s t with
  | nil => exact .nil hs ht (congrArg RollupConfig.timeframe h).symm
  | cons q qs ih =>
    have hcall' := ht.call q
    obtain ⟨hmisfit, hrefusal⟩ := room_eq_of_reseed hs ht h q
    rw [hmisfit, hrefusal, h] at hcall'
    obtain ⟨hanswer, j', hs', ht'⟩ := (hs.call q).agree hcall'
    refine ⟨.of_represents hs ht, hanswer, ih hs' ht' ?_⟩
    rw [settings_call hs.sound, settings_call ht.sound, h]

/--
Over the same requests and the end of the feed, rollups of one timeframe that always have room
answer the same and show the same. Rollups that differ in nothing but the seed do so in any case.
-/
theorem runs_agree {c d : RollupConfig} (hs : ofConfig c = .ok s) (ht : ofConfig d = .ok t)
    (qs : List Request) :
    (c.timeframe = d.timeframe → Roomy s qs → Roomy t qs → Agree s t qs) ∧
      ∀ seed, d = reseed c seed → Agree s t qs := by
  have hs₀ := Represents.of_ofConfig hs
  have ht₀ := Represents.of_ofConfig ht
  have hc := (eq_of_ofConfig hs).2
  have hd := (eq_of_ofConfig ht).2
  constructor
  · intro h hroom hroom'
    subst hc hd
    exact .of_roomy hs₀ ht₀ h hroom hroom'
  · rintro seed rfl
    exact .of_reseed hs₀ ht₀ (by rw [hd, hc])

/-- A rollup by minutes with more room than a narrow one, for each category. -/
def wide : Rollup where
  table := { config := ⟨2, 8, .perCategory, 7⟩, slots := #[none, none], used := #[] }
  timeframe := .minute1
  overflow := .dropTick
  periodStart := none
  stats := .zero

/-- A rollup by minutes with more room than a narrow one, which all categories share. -/
def shared : Rollup where
  table := { config := ⟨3, 4, .flat, 0⟩, slots := #[none, none, none], used := #[] }
  timeframe := .minute1
  overflow := .reject
  periodStart := none
  stats := .zero

/-- An ask in the second minute of 1970. -/
def minuteAsk : TickRecord where
  timestamp := Bucket.minuteTrade.timestamp
  category := .ask
  price := ⟨false, 2750, 4, by decide, by decide⟩
  quantity := .zero

/-- A trade of a later minute. -/
def laterTrade : TickRecord :=
  { narrowTick with timestamp := ⟨187, 375000000, by decide, by decide, by decide⟩ }

/-- Trades and quotes of two contracts in one minute, and a trade of a later one. -/
def mixed : List Request :=
  [.tick ⟨1, 0, 0⟩ narrowTick,
   .tick ⟨2, 0, 0⟩ minuteAsk,
   .sandwich ⟨1, 0, 0⟩ Bucket.minuteLegs,
   .raw ⟨⟨2, 0, 0⟩, minuteAsk.timestamp, Category.bid.tag, minuteAsk.price, .zero⟩,
   .tick ⟨2, 0, 0⟩ laterTrade,
   .close]

/-- Ticks of several categories and contracts do not tell layouts apart where there is room, nor
seeds where there is none. -/
theorem runs_agree_narrow :
    ofConfig ⟨⟨3, 4, .flat, 0⟩, .minute1, .reject⟩ = .ok shared ∧
      ofConfig ⟨⟨2, 8, .perCategory, 7⟩, .minute1, .dropTick⟩ = .ok wide ∧
      Roomy shared mixed ∧ Roomy wide mixed ∧ Agree shared wide mixed ∧
      ¬ Roomy (narrow .reject) mixed ∧
      ∃ t, ofConfig (reseed ⟨⟨1, 1, .flat, 0⟩, .minute1, .reject⟩ 7) = .ok t ∧
        Agree (narrow .reject) t mixed := by
  have hshared : ofConfig ⟨⟨3, 4, .flat, 0⟩, .minute1, .reject⟩ = .ok shared := rfl
  have hwide : ofConfig ⟨⟨2, 8, .perCategory, 7⟩, .minute1, .dropTick⟩ = .ok wide := rfl
  have hroom : Roomy shared mixed := ⟨rfl, rfl, rfl, rfl, rfl, rfl, trivial⟩
  have hroom' : Roomy wide mixed := ⟨rfl, rfl, rfl, rfl, rfl, rfl, trivial⟩
  have hfull : ¬ Roomy (narrow .reject) mixed := by
    intro h
    cases h.2.1
  have hreseeded : ∃ t, ofConfig (reseed ⟨⟨1, 1, .flat, 0⟩, .minute1, .reject⟩ 7) = .ok t :=
    ⟨_, rfl⟩
  obtain ⟨t, ht⟩ := hreseeded
  exact ⟨hshared, hwide, hroom, hroom', (runs_agree hshared hwide _).1 rfl hroom hroom', hfull, t,
    ht, (runs_agree (ofConfig_narrow .reject) ht _).2 7 rfl⟩

end Rollup

end Candlestick
