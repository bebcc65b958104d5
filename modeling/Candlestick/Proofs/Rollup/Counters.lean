import Candlestick.Proofs.Candle.Bar
import Candlestick.Proofs.Rollup.Partition
import Mathlib.Algebra.BigOperators.Group.List.Lemmas

/-!
# What the counters count

The counters of a rollup keep track of what its calls were offered and answered. Each tick that was
stored is counted by a summary or is still in a bucket, and no tick that was offered to a call
without an error is missing (`Rollup.counters_account`).
-/

namespace Candlestick

variable {f : Feed}

/-! ### Counting ticks -/

/-- The number of ticks in the buckets of all contracts. -/
def ContractTable.ticksHeld (t : ContractTable) : Nat :=
  (t.active.map (·.2.size)).sum

/-- Each tick is one of the ticks of one contract. -/
lemma Feed.sum_length_ticksOf (f : Feed) :
    (f.keys.map fun key => (f.ticksOf key).length).sum = f.length := by
  have hcount (key : ContractKey) : (f.ticksOf key).length = (f.map Prod.fst).count key := by
    rw [ticksOf, List.length_map, ← List.countP_eq_length_filter, List.count, List.countP_map]
    rfl
  have hperm : f.keys.Perm (f.map Prod.fst).dedup := by
    rw [List.perm_ext_iff_of_nodup f.nodup_keys (List.nodup_dedup _)]
    intro key
    rw [List.mem_dedup]
    exact List.mem_eraseDups
  simp only [hcount]
  rw [(hperm.map _).sum_nat, List.sum_map_count_dedup_eq_length, List.length_map]

lemma Feed.sum_size_roster (layout : Layout) (n : Nat) (f : Feed) :
    ((f.roster (.empty layout n)).map (·.2.size)).sum = f.length := by
  rw [roster, List.map_map, ← f.sum_length_ticksOf]
  congr 2
  funext key
  rw [Function.comp_apply, Bucket.size_pushAll, Bucket.size_empty_claim, Nat.zero_add]

/-- A summary counts all ticks that it has the candles of, as far as there are numbers to. -/
lemma Summary.tickCount_eq {summary : Summary} (h : f.candles = .ok summary.candles) :
    summary.tickCount = .ofNat f.length := by
  obtain ⟨hkeys, hcandles⟩ := Feed.candles_eq_ok h
  rw [← f.sum_length_ticksOf, ← hkeys, List.map_map, tickCount]
  generalize summary.candles = entries at hcandles
  have hfold (n : UInt64) : entries.foldl (fun n entry => n + entry.2.tickCount) n =
      n + .ofNat (entries.map ((fun key => (f.ticksOf key).length) ∘ Prod.fst)).sum := by
    induction entries generalizing n with
    | nil => exact (UInt64.add_zero n).symm
    | cons entry entries ih =>
      obtain ⟨hentry, hentries⟩ := List.forall_mem_cons.mp hcandles
      rw [List.foldl_cons, ih hentries, ContractCandle.tickCount_ofRecords hentry, List.map_cons,
        List.sum_cons, UInt64.ofNat_add, UInt64.add_assoc]
      rfl
  rw [hfold, UInt64.zero_add]

namespace Rollup

variable {s s' : Rollup} {o : Offer} {q : Request} {qs : List Request} {l : Ledger} {r : Outcome}

/-! ### One call -/

/-- The ticks that a call was offered, if it returns without an error. -/
def offeredLegs : Request × Outcome → Nat
  | (q, .ok _ _) => q.legs.length
  | (_, .error _ _) => 0

/-- Whether ticks had an incomplete summary emitted. -/
def closesEarly (call : Request × Outcome) : Bool :=
  call.1 ≠ .close && (summaryOf call.2).any (!·.complete)

/-- Whether a call fails for want of a category. -/
def lacksCategory : Request × Outcome → Bool
  | (_, .error (.invalidCategory _) _) => true
  | _ => false

/-- What a call of `s` that comes to `r` adds to the counters. -/
structure Counts (s : Rollup) (q : Request) (r : Outcome) : Prop where
  ticks : (stateOf r).stats.ticks = s.stats.ticks + (acceptedOf s q.legs r).length
  offered : (stateOf r).stats.ticks + (stateOf r).stats.dropped =
    s.stats.ticks + s.stats.dropped + offeredLegs (q, r)
  periods : (stateOf r).stats.periods = s.stats.periods + (summaryOf r).toList.length
  earlyRollups : (stateOf r).stats.earlyRollups =
    s.stats.earlyRollups + if closesEarly (q, r) then 1 else 0
  invalid : (stateOf r).stats.invalid = s.stats.invalid + if lacksCategory (q, r) then 1 else 0
  dropped_eq : s.overflow ≠ .dropTick → (stateOf r).stats.dropped = s.stats.dropped
  earlyRollups_eq : s.overflow ≠ .earlyRollup →
    (stateOf r).stats.earlyRollups = s.stats.earlyRollups

namespace Counts

/-- A call that fails for another reason than an unknown category changes no counter. -/
lemma of_error {e : Error} (he : lacksCategory (q, .error e s) = false) :
    Counts s q (.error e s) := by
  refine ⟨rfl, rfl, rfl, ?_, ?_, fun _ => rfl, fun _ => rfl⟩
  · rw [closesEarly, summaryOf, Option.any_none, Bool.and_false]
    rfl
  · rw [he]
    rfl

/-- A call whose ticks are stored. -/
lemma of_stored {summary : Option Summary} (hclose : q ≠ .close)
    (hticks : s'.stats.ticks = s.stats.ticks + q.legs.length)
    (hdropped : s'.stats.dropped = s.stats.dropped)
    (hperiods : s'.stats.periods = s.stats.periods + summary.toList.length)
    (hearly : s'.stats.earlyRollups =
      s.stats.earlyRollups + if summary.any (!·.complete) then 1 else 0)
    (hinvalid : s'.stats.invalid = s.stats.invalid)
    (hpolicy : s.overflow ≠ .earlyRollup → s'.stats.earlyRollups = s.stats.earlyRollups) :
    Counts s q (.ok summary s') where
  ticks := by rw [acceptedOf, hdropped, if_neg (Nat.lt_irrefl _), stateOf, hticks]
  offered := by
    rw [stateOf, hticks, hdropped, offeredLegs]
    omega
  periods := hperiods
  earlyRollups := by rw [closesEarly, decide_eq_true hclose]; exact hearly
  invalid := hinvalid
  dropped_eq _ := hdropped
  earlyRollups_eq := hpolicy

lemma of_admission (hoffer : q.offer? = some o) (h : Admission s o r) : Counts s q r := by
  have hclose : q ≠ .close := by
    rintro rfl
    cases hoffer
  have hlegs : q.legs.length = o.ticks.length := by
    rw [Request.legs_eq_of_offer? hoffer, Feed.ofTicks, List.length_map]
  have hpos : 0 < o.ticks.length := List.length_pos_iff.mpr o.ticks_ne_nil
  cases h with
  | unalignable | overflowed => exact of_error rfl
  | @rejected _ e _ _ _ hcapacity =>
    refine of_error ?_
    cases e with
    | invalidCategory => cases hcapacity
    | _ => rfl
  | dropped _ _ _ hpolicy =>
    have haccepted (s' : Rollup) (hs' : s'.stats.dropped = s.stats.dropped + o.ticks.length) :
        acceptedOf s q.legs (.ok none s') = [] := by
      rw [acceptedOf, hs', if_pos (Nat.lt_add_of_pos_right hpos)]
    refine ⟨?_, ?_, rfl, ?_, rfl, fun hother => absurd hpolicy hother, fun _ => rfl⟩
    · rw [haccepted _ rfl]
      rfl
    · rw [offeredLegs, hlegs, Nat.add_assoc]
      rfl
    · rw [closesEarly, summaryOf, Option.any_none, Bool.and_false]
      rfl
  | stored | opened | closed =>
    exact of_stored hclose (hlegs ▸ rfl) rfl rfl rfl rfl fun _ => rfl
  | split _ _ _ hpolicy =>
    exact of_stored hclose (hlegs ▸ rfl) rfl rfl rfl rfl fun hother => absurd hpolicy hother

lemma of_closing (h : Closing s false r) : Counts s .close r := by
  have haccepted : acceptedOf s Request.close.legs r = [] := by
    cases r with
    | ok summary s' => rw [acceptedOf, Request.legs, ite_self]
    | error e s' => rfl
  have hearly : closesEarly (.close, r) = false := rfl
  cases h with
  | idle | emitted =>
    refine ⟨?_, rfl, rfl, ?_, rfl, fun _ => rfl, fun _ => rfl⟩
    · rw [haccepted]
      rfl
    · rw [hearly]
      rfl
  | overflowed => exact of_error rfl

lemma of_call (h : s.Sound) (q : Request) : Counts s q (q.call s) := by
  have hperformed := Performed.of_call h q
  generalize q.call s = r at hperformed
  cases hperformed with
  | undecodable hdecode =>
    obtain ⟨-, rfl⟩ := RawTick.decode_eq_error hdecode
    exact ⟨rfl, rfl, rfl, rfl, rfl, fun _ => rfl, fun _ => rfl⟩
  | null | misfit => exact of_error rfl
  | offered hoffer _ _ hadmission => exact of_admission hoffer hadmission
  | closed hclosing => exact of_closing hclosing

end Counts

/-! ### Runs -/

/-- The calls of a run, each with what it comes to. -/
def outcomes (s : Rollup) : List Request → List (Request × Outcome)
  | [] => []
  | q :: qs => (q, q.call s) :: outcomes (stateOf (q.call s)) qs

/-- What a run adds to the counters. -/
structure Counted (s : Rollup) (qs : List Request) : Prop where
  ticks : (stateAfter s qs).stats.ticks = s.stats.ticks + (accepted s qs).length
  offered : (stateAfter s qs).stats.ticks + (stateAfter s qs).stats.dropped =
    s.stats.ticks + s.stats.dropped + ((outcomes s qs).map offeredLegs).sum
  periods : (stateAfter s qs).stats.periods = s.stats.periods + (summaries s qs).length
  earlyRollups : (stateAfter s qs).stats.earlyRollups =
    s.stats.earlyRollups + (outcomes s qs).countP closesEarly
  invalid : (stateAfter s qs).stats.invalid =
    s.stats.invalid + (outcomes s qs).countP lacksCategory
  dropped_eq : s.overflow ≠ .dropTick → (stateAfter s qs).stats.dropped = s.stats.dropped
  earlyRollups_eq : s.overflow ≠ .earlyRollup →
    (stateAfter s qs).stats.earlyRollups = s.stats.earlyRollups

lemma Counted.of_sound (h : s.Sound) (qs : List Request) : Counted s qs := by
  induction qs generalizing s with
  | nil => exact ⟨rfl, rfl, rfl, rfl, rfl, fun _ => rfl, fun _ => rfl⟩
  | cons q qs ih =>
    have hcall := Counts.of_call h q
    have hrest := ih (sound_call h q)
    have hafter : stateAfter s (q :: qs) = stateAfter (stateOf (q.call s)) qs := rfl
    have hoverflow : (stateOf (q.call s)).overflow = s.overflow :=
      congrArg RollupConfig.overflow (settings_call h q)
    constructor
    · rw [hafter, hrest.ticks, hcall.ticks, accepted, List.length_append, Nat.add_assoc]
    · rw [hafter, hrest.offered, hcall.offered, outcomes, List.map_cons, List.sum_cons,
        Nat.add_assoc]
    · rw [hafter, hrest.periods, hcall.periods, summaries, List.length_append, Nat.add_assoc]
    · rw [hafter, hrest.earlyRollups, hcall.earlyRollups, outcomes, List.countP_cons]
      omega
    · rw [hafter, hrest.invalid, hcall.invalid, outcomes, List.countP_cons]
      omega
    · intro hpolicy
      exact (hrest.dropped_eq (hoverflow ▸ hpolicy)).trans (hcall.dropped_eq hpolicy)
    · intro hpolicy
      exact (hrest.earlyRollups_eq (hoverflow ▸ hpolicy)).trans (hcall.earlyRollups_eq hpolicy)

/-- A call that overflows changes no counter. -/
lemma stats_of_overflow (h : s.Sound) {cause : Decimal.Overflow}
    (hcall : q.call s = .error (.overflow cause) s') : s'.stats = s.stats := by
  have hperformed := Performed.of_call h q
  rw [hcall] at hperformed
  cases hperformed with
  | undecodable hdecode =>
    obtain ⟨-, herror⟩ := RawTick.decode_eq_error hdecode
    cases herror
  | offered _ _ _ hadmission =>
    cases hadmission with
    | overflowed | rejected => rfl
  | closed hclosing =>
    cases hclosing
    rfl

namespace Ledger

/-- The buckets of the table have the ticks that are pending. -/
lemma Balanced.ticksHeld (h : l.Balanced) : l.state.table.ticksHeld = l.pending.length := by
  rw [ContractTable.ticksHeld, h.active_eq]
  exact Feed.sum_size_roster _ _ _

/-- The summaries count the ticks that are noted for them. -/
lemma Balanced.sum_tickCount (h : l.Balanced)
    (hlt : (l.batches.map Prod.snd).flatten.length < 2 ^ 64) :
    ((l.batches.map Prod.fst).map (·.tickCount.toNat)).sum =
      (l.batches.map Prod.snd).flatten.length := by
  rw [List.length_flatten, List.map_map, List.map_map]
  congr 1
  apply List.map_congr_left
  intro batch hbatch
  have hle : batch.2.length ≤ (l.batches.map Prod.snd).flatten.length :=
    (List.sublist_flatten_of_mem (List.mem_map_of_mem hbatch)).length_le
  rw [Function.comp_apply, Function.comp_apply, Summary.tickCount_eq (h.candles_eq batch hbatch)]
  exact UInt64.toNat_ofNat_of_lt' (hle.trans_lt hlt)

end Ledger

/-- The ticks stored are those that the summaries count and those still in buckets. -/
lemma ticks_stateAfter (h : s.Sound) (hnil : s.table.active = []) (hzero : s.stats.ticks = 0)
    (hlt : (stateAfter s qs).stats.ticks < 2 ^ 64) :
    (stateAfter s qs).stats.ticks =
      ((summaries s qs).map (·.tickCount.toNat)).sum + (stateAfter s qs).table.ticksHeld := by
  have hrun := (Ledger.Balanced.start h hnil).run qs
  have hheld := hrun.ticksHeld
  have hsummaries : ((Ledger.start s).run qs).batches.map Prod.fst = summaries s qs :=
    Ledger.summaries_run _ qs
  have hticks : (((Ledger.start s).run qs).batches.map Prod.snd).flatten.length +
      ((Ledger.start s).run qs).pending.length = (stateAfter s qs).stats.ticks := by
    rw [← List.length_append, Ledger.accepted_run, (Counted.of_sound h qs).ticks, hzero,
      Nat.zero_add]
    rfl
  rw [Ledger.state_run] at hheld
  change (stateAfter s qs).table.ticksHeld = _ at hheld
  rw [← hsummaries, hrun.sum_tickCount (by omega), hheld, hticks]

/--
After any calls on a new rollup, the ticks stored are those that the summaries count and those
still in buckets, and together with those dropped they are what was offered to the calls that
returned without an error. The other counters count summaries, those among them that ticks had
emitted early, and raw ticks without a category. Only the policy that asks for it drops ticks, or
emits early. A call that overflows is not counted at all.
-/
theorem counters_account {config : RollupConfig} (h : ofConfig config = .ok s)
    (qs : List Request) :
    let s' := stateAfter s qs
    (s'.stats.ticks < 2 ^ 64 →
      s'.stats.ticks = ((summaries s qs).map (·.tickCount.toNat)).sum + s'.table.ticksHeld) ∧
    s'.stats.ticks + s'.stats.dropped = ((outcomes s qs).map offeredLegs).sum ∧
    s'.stats.periods = (summaries s qs).length ∧
    s'.stats.earlyRollups = (outcomes s qs).countP closesEarly ∧
    s'.stats.invalid = (outcomes s qs).countP lacksCategory ∧
    (config.overflow ≠ .dropTick → s'.stats.dropped = 0) ∧
    (config.overflow ≠ .earlyRollup → s'.stats.earlyRollups = 0) ∧
    ∀ (q : Request) (cause : Decimal.Overflow) (s'' : Rollup),
      q.call s' = .error (.overflow cause) s'' → s''.stats = s'.stats := by
  intro s'
  have hs := Sound.of_ofConfig h
  have hnil := (eq_of_ofConfig h).1
  have hcounted := Counted.of_sound hs qs
  obtain ⟨table, -, rfl⟩ := ofConfig_eq_ok_iff.mp h
  exact ⟨ticks_stateAfter hs hnil rfl, hcounted.offered.trans (Nat.zero_add _),
    hcounted.periods.trans (Nat.zero_add _), hcounted.earlyRollups.trans (Nat.zero_add _),
    hcounted.invalid.trans (Nat.zero_add _), hcounted.dropped_eq, hcounted.earlyRollups_eq,
    fun q cause s'' => stats_of_overflow (sound_stateAfter hs qs)⟩

/-- Of two ticks, one is counted by an early summary and one by a summary that was asked for. -/
theorem counters_account_narrow :
    let qs : List Request := [.tick ⟨1, 0, 0⟩ narrowTick, .tick ⟨2, 0, 0⟩ narrowTick, .close]
    ofConfig ⟨⟨1, 1, .flat, 0⟩, .minute1, .earlyRollup⟩ = .ok (narrow .earlyRollup) ∧
      ((summaries (narrow .earlyRollup) qs).map (·.tickCount.toNat)).sum = 2 ∧
      ((outcomes (narrow .earlyRollup) qs).map offeredLegs).sum = 2 ∧
      (outcomes (narrow .earlyRollup) qs).countP closesEarly = 1 ∧
      (stateAfter (narrow .earlyRollup) qs).stats.dropped = 0 := by
  intro qs
  have hfresh := ofConfig_narrow .earlyRollup
  obtain ⟨hticks, hoffered, -, hearly, -, hdropped, -⟩ := counters_account hfresh qs
  exact ⟨hfresh, (hticks (by decide)).symm, hoffered.symm, hearly.symm, hdropped (by decide)⟩

end Rollup

end Candlestick
