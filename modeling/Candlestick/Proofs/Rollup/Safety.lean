import Candlestick.Proofs.Rollup.Request

/-!
# What a call cannot lose

A call emits a summary before it has stored its own ticks, and stores them before it returns. No
step in between can fail once the state has changed (`Rollup.call_error_unchanged`), and nothing is
left out of what is emitted, stored or returned (`Rollup.nothing_lost`).
-/

namespace Candlestick

namespace Rollup

variable {s s' : Rollup} {o : Offer} {timestamp : Timestamp} {closed early : Option Summary}

/-! ### Failed calls -/

/-- A call that fails leaves the state as it was, but for the counter of raw ticks refused. -/
theorem call_error_unchanged (h : s.Reachable) (q : Request) :
    match q.call s with
    | .ok _ s' => s'.stats.invalid = s.stats.invalid
    | .error (.invalidCategory tag) s' =>
      (∃ t, q = .raw t ∧ t.tag = tag ∧ Category.ofTag? tag = none) ∧
        s' = { s with stats.invalid := s.stats.invalid + 1 }
    | .error _ s' => s' = s := by
  have hperformed := Performed.of_call h.sound q
  generalize q.call s = r at hperformed
  cases hperformed with
  | undecodable hdecode =>
    obtain ⟨hnone, rfl⟩ := RawTick.decode_eq_error hdecode
    exact ⟨⟨_, rfl, rfl, hnone⟩, rfl⟩
  | null | misfit => rfl
  | offered _ _ _ hadmission =>
    cases hadmission with
    | unalignable | overflowed | stored | dropped | split | opened | closed => rfl
    | @rejected start e hstart hopen hroom hcapacity =>
      cases e with
      | tableFull | bucketFull => rfl
      | _ => cases hcapacity
  | closed hclosing =>
    cases hclosing with
    | idle | overflowed | emitted => rfl

/-- A tick refused for want of a slot leaves no trace. -/
theorem call_error_unchanged_narrowed :
    (narrowed .reject).Reachable ∧
      (Request.tick ⟨2, 0, 0⟩ narrowTick).call (narrowed .reject) =
        .error (.tableFull 1) (narrowed .reject) := by
  have hreach := reachable_narrowed .reject
  have hunchanged := call_error_unchanged hreach (.tick ⟨2, 0, 0⟩ narrowTick)
  have hfull : ∃ s', (Request.tick ⟨2, 0, 0⟩ narrowTick).call (narrowed .reject) =
      .error (.tableFull 1) s' := ⟨_, rfl⟩
  obtain ⟨s', hs'⟩ := hfull
  rw [hs'] at hunchanged
  rw [hs', hunchanged]
  exact ⟨hreach, rfl⟩

/-! ### Summaries and ticks -/

/-- What moving to the period of a moment can come to. -/
inductive Rolled (s : Rollup) (timestamp : Timestamp) : Outcome → Prop
  | unalignable (hstart : s.timeframe.periodStart? timestamp = none) :
      Rolled s timestamp (.error (.unalignable timestamp) s)
  | overflowed {cause : Decimal.Overflow} (hcandles : s.table.candles = .error cause) :
      Rolled s timestamp (.error (.overflow cause) s)
  | stays {start : Timestamp} (hstart : s.timeframe.periodStart? timestamp = some start)
      (hopen : s.periodStart = some start) : Rolled s timestamp (.ok none s)
  /-- Another period is opened, without contracts. -/
  | moves {start : Timestamp} (hstart : s.timeframe.periodStart? timestamp = some start)
      (closed : Option Summary) {s' : Rollup} (hs' : s'.Sound) (hnil : s'.table.active = [])
      (hsettings : s'.settings = s.settings) (hdropped : s'.stats.dropped = s.stats.dropped) :
      Rolled s timestamp (.ok closed { s' with periodStart := some start })

/-- All that moving to the period of a moment can come to. -/
lemma Rolled.of_rollTo (h : s.Sound) (timestamp : Timestamp) :
    Rolled s timestamp (rollTo timestamp s) := by
  cases hstart : s.timeframe.periodStart? timestamp with
  | none =>
    rw [rollTo_of_none hstart]
    exact .unalignable hstart
  | some start =>
    by_cases hopen : s.periodStart = some start
    · rw [rollTo_of_eq hstart hopen]
      exact .stays hstart hopen
    · rw [rollTo_of_ne hstart hopen]
      have hclosing := Closing.of_takeSummary h true
      generalize takeSummary true s = r at hclosing
      cases hclosing with
      | idle hnil => exact .moves hstart none h hnil rfl rfl
      | overflowed hcandles => exact .overflowed hcandles
      | emitted => exact .moves hstart _ h.emptied rfl rfl rfl

/-- Moving to the period of a moment changes nothing, or leaves a table without contracts. -/
lemma rollTo_cases (h : s.Sound) (hroll : rollTo timestamp s = .ok closed s') :
    closed = none ∧ s' = s ∨
      s'.Sound ∧ s'.table.active = [] ∧ s'.table.newBucket = s.table.newBucket ∧
        s'.stats.dropped = s.stats.dropped := by
  have hrolled := Rolled.of_rollTo h timestamp
  rw [hroll] at hrolled
  cases hrolled with
  | stays => exact .inl ⟨rfl, rfl⟩
  | @moves start _ _ s' hs' hnil hsettings hdropped =>
    have hconfig : s'.table.config = s.table.config := congrArg RollupConfig.table hsettings
    exact .inr ⟨hs'.roll start, hnil, ContractTable.newBucket_congr hconfig, hdropped⟩

/-- A call closes the period before its tick or the part of it before, never both. -/
lemma closed_or_early (h : s.Sound) (hkey : o.key ≠ .null) (hfit : o.Fits s.table.newBucket)
    {s₁ s₂ : Rollup} (hroll : rollTo o.timestamp s = .ok closed s₁)
    (hstore : store o.key o.ticks.length o.add s₁ = .ok early s₂) :
    closed = none ∨ early = none := by
  rcases rollTo_cases h hroll with ⟨hclosed, -⟩ | ⟨hsound, hnil, hnew, -⟩
  · exact .inl hclosed
  · obtain ⟨table, -, hstored⟩ := store_of_active_eq_nil hsound hnil hkey (hnew ▸ hfit)
    rw [hstored] at hstore
    cases hstore
    exact .inr rfl

/-- The ticks that open a period are stored at the first attempt. -/
lemma insert_of_moved (h : s.Sound) (hkey : o.key ≠ .null) (hfit : o.Fits s.table.newBucket)
    {s₁ : Rollup} (hroll : rollTo o.timestamp s = .ok closed s₁)
    (hmoved : s₁.periodStart ≠ s.periodStart) :
    s₁.stats.dropped = s.stats.dropped ∧
      ∃ table, insert o.key o.add s₁ = .ok () { s₁ with table } ∧
        store o.key o.ticks.length o.add s₁ =
          .ok none { s₁ with table, stats.ticks := s₁.stats.ticks + o.ticks.length } := by
  rcases rollTo_cases h hroll with ⟨-, rfl⟩ | ⟨hsound, hnil, hnew, hdropped⟩
  · exact absurd rfl hmoved
  · obtain ⟨table, hinsert, -⟩ :=
      ContractTable.exists_insert_of_active_eq_nil hsound.table hnil hkey (hnew ▸ hfit)
    exact ⟨hdropped, table, by rw [insert, hinsert], store_of_ok hinsert⟩

/-- Ticks are stored behind those that their contract had in the table, or in a new bucket. -/
structure Stores (s : Rollup) (key : ContractKey) (rs : List TickRecord) (s' : Rollup) : Prop where
  bucket : ∃ b, s'.table.find? key = some (b.pushAll rs) ∧
    (s.table.find? key = some b ∨ b = s.table.newBucket.claim key)
  ticks : s'.stats.ticks = s.stats.ticks + rs.length
  dropped : s'.stats.dropped = s.stats.dropped

lemma Stores.of_taken (h : s.Sound) (htaken : s.table.Taken o s'.table)
    (hticks : s'.stats.ticks = s.stats.ticks + o.ticks.length)
    (hdropped : s'.stats.dropped = s.stats.dropped) : Stores s o.key o.ticks s' := by
  refine ⟨⟨_, htaken.find? h.table, ?_⟩, hticks, hdropped⟩
  cases hfind : s.table.find? o.key with
  | none => exact .inr rfl
  | some b => exact .inl rfl

lemma Stores.of_taken_rinse (h : s.Sound) (htaken : s.table.rinse.Taken o s'.table)
    (hticks : s'.stats.ticks = s.stats.ticks + o.ticks.length)
    (hdropped : s'.stats.dropped = s.stats.dropped) : Stores s o.key o.ticks s' := by
  have hnone : s.table.rinse.find? o.key = none := h.table.rinse.find?_eq_lookup o.key
  have hfind := htaken.find? h.table.rinse
  rw [hnone] at hfind
  exact ⟨⟨_, hfind, .inr rfl⟩, hticks, hdropped⟩

/-- With early rollups, only an overflow keeps ticks that have a period from being stored. -/
lemma Admission.stores {r : Outcome} (h : Admission s o r)
    (hs : s.Sound) (hpolicy : s.overflow = .earlyRollup)
    (hstart : (s.timeframe.periodStart? o.timestamp).isSome) :
    (∃ cause, s.table.candles = .error cause ∧ r = .error (.overflow cause) s) ∨
      ∃ summary s', r = .ok summary s' ∧ Stores s o.key o.ticks s' := by
  cases h with
  | unalignable hnone =>
    rw [hnone] at hstart
    cases hstart
  | overflowed _ hcandles => exact .inl ⟨_, hcandles, rfl⟩
  | rejected _ _ _ _ hother | dropped _ _ _ hother => cases hpolicy.symm.trans hother
  | stored _ _ _ htaken | opened _ _ _ htaken =>
    exact .inr ⟨_, _, rfl, .of_taken hs htaken rfl rfl⟩
  | split _ _ _ _ _ _ htaken | closed _ _ _ _ _ htaken =>
    exact .inr ⟨_, _, rfl, .of_taken_rinse hs htaken rfl rfl⟩

/-- The offers of the calls whose checks pass. -/
inductive Offered (s : Rollup) : Offer → Call (Option Summary) → Prop
  | tick {key : ContractKey} (hkey : key ≠ .null) (r : TickRecord) :
      Offered s (.single key r) (process key r)
  | sandwich {key : ContractKey} {sandwich : Sandwich} (hkey : key ≠ .null)
      (hfit : checkFits key sandwich s = .ok () s) :
      Offered s (.sandwich key sandwich) (processSandwich key sandwich)

lemma Offered.call_eq {call : Call (Option Summary)} (h : Offered s o call) (hs : s.Sound) :
    call s = offer o s ∧ o.key ≠ .null ∧ o.Fits s.table.newBucket := by
  cases h with
  | tick hkey r =>
    rw [process_eq, if_neg hkey]
    exact ⟨rfl, hkey, fits_single hs.table _ r⟩
  | @sandwich key sandwich hkey hfit =>
    rw [checkFits_eq] at hfit
    cases hlack : (s.table.newBucket.claim key).lackFor? sandwich with
    | some e =>
      rw [hlack] at hfit
      cases hfit
    | none =>
      rw [processSandwich_eq, if_neg hkey, hlack]
      exact ⟨rfl, hkey, fits_sandwich hlack⟩

/-- A sandwich is checked as any bucket without ticks would check it. -/
lemma checkFits_eq_addSandwich {b : Bucket} (hempty : b.isEmpty)
    (hlayout : b.layout = s.table.config.layout)
    (hcapacity : b.capacity = s.table.config.bucketSize.toNat) (sandwich : Sandwich) :
    checkFits b.key sandwich s =
      match Bucket.addSandwich sandwich b with
      | .ok () _ => .ok () s
      | .error e _ => .error e s := by
  have hb : s.table.newBucket.claim b.key = b := by
    rw [ContractTable.newBucket, ← hlayout, ← hcapacity]
    exact (Bucket.eq_claim_of_isEmpty hempty).symm
  rw [checkFits_eq, hb, Bucket.addSandwich_eq]
  cases b.lackFor? sandwich <;> rfl

/-- What a call that makes an offer does not lose. -/
structure LosesNothing (s : Rollup) (o : Offer) (call : Call (Option Summary)) : Prop where
  /-- The period before and a part of the one it is in are not both closed. -/
  one_summary : ∀ closed s₁ early s₂, rollTo o.timestamp s = .ok closed s₁ →
    store o.key o.ticks.length o.add s₁ = .ok early s₂ →
    (closed = none ∨ early = none) ∧ call s = .ok (closed.or early) s₂
  /-- Ticks that open a period are stored at the first attempt. -/
  opens : ∀ closed s₁, rollTo o.timestamp s = .ok closed s₁ → s₁.periodStart ≠ s.periodStart →
    s₁.stats.dropped = s.stats.dropped ∧
      ∃ table, insert o.key o.add s₁ = .ok () { s₁ with table } ∧
        call s = .ok closed { s₁ with table, stats.ticks := s₁.stats.ticks + o.ticks.length }
  /-- With early rollups, ticks that have a period are stored unless candles overflow. -/
  stores : s.overflow = .earlyRollup → (s.timeframe.periodStart? o.timestamp).isSome →
    (∃ cause, s.table.candles = .error cause ∧ call s = .error (.overflow cause) s) ∨
      ∃ summary s', call s = .ok summary s' ∧ Stores s o.key o.ticks s'

/--
No call whose checks pass loses a summary or a tick, and a sandwich fails its check just if a
bucket of its contract without ticks would refuse it, with the same error.
-/
theorem nothing_lost (h : s.Reachable) :
    (∀ o call, Offered s o call → LosesNothing s o call) ∧
      ∀ (b : Bucket) (sandwich : Sandwich), b.isEmpty → b.layout = s.table.config.layout →
        b.capacity = s.table.config.bucketSize.toNat →
        (checkFits b.key sandwich s =
          match Bucket.addSandwich sandwich b with
          | .ok () _ => .ok () s
          | .error e _ => .error e s) ∧
        ∀ e b', Bucket.addSandwich sandwich b = .error e b' →
          b' = b ∧ ∃ c, e = .bucketFull b.key c := by
  have hs := h.sound
  constructor
  · intro o call hoffered
    obtain ⟨hcall, hkey, hfit⟩ := hoffered.call_eq hs
    constructor
    · intro closed s₁ early s₂ hroll hstore
      refine ⟨closed_or_early hs hkey hfit hroll hstore, ?_⟩
      rw [hcall, offer_of_rollTo_ok hroll, hstore]
    · intro closed s₁ hroll hmoved
      obtain ⟨hdropped, table, hinsert, hstore⟩ := insert_of_moved hs hkey hfit hroll hmoved
      refine ⟨hdropped, table, hinsert, ?_⟩
      rw [hcall, offer_of_rollTo_ok hroll, hstore]
      simp only [Option.or_none]
    · intro hpolicy hstart
      rw [hcall]
      exact (Admission.of_offer hs hkey hfit).stores hs hpolicy hstart
  · intro b sandwich hempty hlayout hcapacity
    refine ⟨checkFits_eq_addSandwich hempty hlayout hcapacity sandwich, ?_⟩
    intro e b' he
    rcases Bucket.appends_addSandwich sandwich b with hok | ⟨c, hfull⟩
    · cases hok.symm.trans he
    · cases hfull.symm.trans he
      exact ⟨rfl, c, rfl⟩

/-- A tick of a second contract closes a narrow rollup early and is stored. -/
theorem nothing_lost_narrowed :
    (narrowed .earlyRollup).Reachable ∧
      ∃ summary s', process ⟨2, 0, 0⟩ narrowTick (narrowed .earlyRollup) = .ok (some summary) s' ∧
        Stores (narrowed .earlyRollup) ⟨2, 0, 0⟩ [narrowTick] s' := by
  have hreach := reachable_narrowed .earlyRollup
  have hoffered : Offered (narrowed .earlyRollup) (.single ⟨2, 0, 0⟩ narrowTick)
      (process ⟨2, 0, 0⟩ narrowTick) := .tick (by decide) narrowTick
  have hstores := ((nothing_lost hreach).1 _ _ hoffered).stores
  have hcandles : ∃ candles, (narrowed .earlyRollup).table.candles = .ok candles := ⟨_, rfl⟩
  have hsummary : ∃ summary s',
      process ⟨2, 0, 0⟩ narrowTick (narrowed .earlyRollup) = .ok (some summary) s' := ⟨_, _, rfl⟩
  obtain ⟨candles, hcandles⟩ := hcandles
  obtain ⟨summary, s', hsummary⟩ := hsummary
  rcases hstores rfl (by decide) with ⟨cause, hoverflow, -⟩ | ⟨_, _, hcall, hstored⟩
  · cases hcandles.symm.trans hoverflow
  · cases hsummary.symm.trans hcall
    exact ⟨hreach, summary, s', hsummary, hstored⟩

end Rollup

end Candlestick
