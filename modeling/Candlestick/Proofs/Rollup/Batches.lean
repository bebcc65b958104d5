import Candlestick.Proofs.Bucket.Room
import Candlestick.Proofs.Candle.Merge
import Candlestick.Proofs.Rollup.Journal
import Candlestick.Proofs.Rollup.Progress

/-!
# The ticks behind each summary

A run is clean if its calls succeed and none of the volumes in its summaries is rounded. Each
summary of a clean run, the one at the end included, then accounts for a batch of ticks: they lie
in its period, and its candles sum them up (`Rollup.exists_batches`). No batch has more ticks than
can be counted, for they all had room in one bucket.
-/

namespace Candlestick

open ContractCandle (Exact)

namespace Rollup

variable {s s' : Rollup} {o : Offer} {q : Request} {qs : List Request} {l : Ledger} {f : Feed}
variable {timeframe : Timeframe} {key : ContractKey}

/-! ### Room in the buckets of a rollup -/

/-- No bucket has more ticks than it has room for. -/
def Within (s : Rollup) : Prop :=
  ∀ entry ∈ s.table.active, entry.2.Within

lemma Within.of_active_eq_nil (h : s.table.active = []) : s.Within := by
  intro entry hentry
  rw [h] at hentry
  cases hentry

/-- What a request offers is checked before it is added. -/
lemma Request.Offers.within {b b' : Bucket} (h : q.Offers o) (hadd : o.add b = .ok () b')
    (hb : b.Within) : b'.Within := by
  cases h with
  | tick | raw => exact hb.add hadd
  | sandwich => exact .addSandwich hadd

lemma within_take {m : Roster} {new : Bucket} (h : q.Offers o) (hnodup : (m.map Prod.fst).Nodup)
    (hm : ∀ entry ∈ m, entry.2.Within) {capacity : Nat}
    (hroom : Roster.refusal? capacity m o = none) (hfit : o.Fits new)
    (hnew : (new.claim o.key).Within) :
    ∀ entry ∈ m.take new o.key o.ticks, entry.2.Within := by
  intro entry hentry
  rw [Roster.take] at hentry
  rw [Roster.refusal?] at hroom
  cases hlookup : m.lookup o.key with
  | some b =>
    simp only [hlookup] at hentry hroom
    obtain ⟨old, hold, rfl⟩ := List.mem_map.mp hentry
    split_ifs with hkey
    · have hb : b.Within := hm _ ((Roster.lookup_eq_some_iff_mem hnodup).mp hlookup)
      rcases o.appends b with hadd | ⟨c, hadd⟩
      · exact h.within hadd hb
      · rw [hadd] at hroom
        cases hroom
    · exact hm old hold
  | none =>
    simp only [hlookup] at hentry
    rcases List.mem_append.mp hentry with hold | hnewest
    · exact hm entry hold
    · cases List.mem_singleton.mp hnewest
      exact h.within hfit hnew

lemma within_of_taken {t t' : ContractTable} (ht : t.WellFormed) (h : q.Offers o)
    (htaken : t.Taken o t') (hm : ∀ entry ∈ t.active, entry.2.Within)
    (hroom : Roster.refusal? t.capacity t.active o = none) (hfit : o.Fits t.newBucket) :
    ∀ entry ∈ t'.active, entry.2.Within := by
  rw [htaken.active_eq]
  exact within_take h ht.nodup_keys_active hm hroom hfit (Bucket.within_empty_claim _ _ _)

/-- A table without contracts has room for any offer. -/
lemma within_of_taken_nil {t t' : ContractTable} (ht : t.WellFormed) (h : q.Offers o)
    (htaken : t.Taken o t') (hnil : t.active = []) (hfit : o.Fits t.newBucket) :
    ∀ entry ∈ t'.active, entry.2.Within := by
  refine within_of_taken ht h htaken ?_ ?_ hfit
  · intro entry hentry
    rw [hnil] at hentry
    cases hentry
  · rw [hnil]
    exact if_pos ht.capacity_pos

/-- A call does not put more into a bucket than it has room for. -/
lemma within_call (hs : s.Sound) (h : s.Within) (q : Request) : (stateOf (q.call s)).Within := by
  have hperformed := Performed.of_call hs q
  generalize q.call s = r at hperformed
  cases hperformed with
  | undecodable | null | misfit => exact h
  | offered hoffer _ hfit hadmission =>
    have hoffers := Request.Offers.of_offer? hoffer
    cases hadmission with
    | unalignable | overflowed | rejected | dropped => exact h
    | stored _ _ hroom htaken => exact within_of_taken hs.table hoffers htaken h hroom hfit
    | opened _ _ hnil htaken => exact within_of_taken_nil hs.table hoffers htaken hnil hfit
    | split _ _ _ _ _ _ htaken | closed _ _ _ _ _ htaken =>
      exact within_of_taken_nil hs.table.rinse hoffers htaken rfl hfit
  | closed hclosing =>
    cases hclosing with
    | idle | overflowed => exact h
    | emitted => exact .of_active_eq_nil rfl

lemma Reachable.within (h : s.Reachable) : s.Within := by
  induction h with
  | fresh h => exact .of_active_eq_nil (eq_of_ofConfig h).1
  | call h q ih => exact within_call h.sound ih q

/-! ### Clean runs -/

/-- The volumes of all contracts add up without rounding. -/
def VolumesAddUp (s : Rollup) : Prop :=
  ∀ entry ∈ s.table.active, Decimal.zero.AddsUp ((entry.2.ticksOf .trade).map (·.quantity))

/-- All calls succeed, and no volume in their summaries or at the end of the feed is rounded. -/
def Clean (s : Rollup) : List Request → Prop
  | [] => s.VolumesAddUp
  | q :: qs =>
    (∃ summary s', q.call s = .ok summary s' ∧ (summary.isSome → s.VolumesAddUp)) ∧
      Clean (stateOf (q.call s)) qs

/-- A summary accounts for ticks of its period. -/
structure Accounts (timeframe : Timeframe) (summary : Summary) (f : Feed) : Prop where
  candles_eq : f.candles = .ok summary.candles
  within : f.Within timeframe summary.periodStart
  exact : ∀ key, Exact (f.ticksOf key)

namespace Ledger

/-- The pending ticks of a contract are those in its bucket. -/
lemma Balanced.mem_active (h : l.Balanced) (hkey : key ∈ l.pending.keys) :
    (key, (l.state.table.newBucket.claim key).pushAll (l.pending.ticksOf key)) ∈
      l.state.table.active := by
  rw [h.active_eq]
  exact List.mem_map.mpr ⟨key, hkey, rfl⟩

/-- The pending ticks of a contract all have room in one bucket, and it has their volume. -/
lemma Balanced.exact (h : l.Balanced) (hwithin : l.state.Within)
    (hvolumes : l.state.VolumesAddUp) (key : ContractKey) : Exact (l.pending.ticksOf key) := by
  by_cases hkey : key ∈ l.pending.keys
  · have hb := h.mem_active hkey
    have hticks (c : Category) : Bucket.ticksOf ((l.state.table.newBucket.claim key).pushAll
        (l.pending.ticksOf key)) c = c.select (l.pending.ticksOf key) := by
      rw [Bucket.ticksOf_pushAll]
      exact congrArg (· ++ _) (Bucket.ticksOf_empty_claim _ _ key c)
    constructor
    · intro c
      rw [← hticks]
      refine ((hwithin _ hb).length_ticksOf_le c).trans_lt ?_
      rw [Bucket.capacity_pushAll]
      exact UInt64.toNat_lt _
    · rw [← hticks]
      exact hvolumes _ hb
  · rw [Feed.ticksOf_eq_nil hkey]
    exact .nil

/-- All buckets are within their room, and candles sum up the ticks of each summary exactly. -/
structure Measured (l : Ledger) : Prop where
  within : l.state.Within
  batches : ∀ batch ∈ l.batches, ∀ key, Exact (batch.2.ticksOf key)

lemma Measured.start (hnil : s.table.active = []) : (start s).Measured where
  within := .of_active_eq_nil hnil
  batches batch hbatch := by cases hbatch

lemma Measured.enter (h : l.Measured) (hl : l.Balanced) (q : Request)
    (hvolumes : (summaryOf (q.call l.state)).isSome → l.state.VolumesAddUp) :
    (l.enter q.legs (q.call l.state)).Measured := by
  have hwithin := within_call hl.sound h.within q
  rw [Ledger.enter]
  cases hsummary : summaryOf (q.call l.state) with
  | none => exact ⟨hwithin, h.batches⟩
  | some summary =>
    have hexact := hl.exact h.within (hvolumes (by rw [hsummary]; rfl))
    refine ⟨hwithin, fun batch hbatch => ?_⟩
    rcases List.mem_append.mp hbatch with hbatch | hbatch
    · exact h.batches batch hbatch
    · cases List.mem_singleton.mp hbatch
      exact hexact

/-- A clean run keeps a ledger measured. -/
lemma Measured.run (h : l.Measured) (hl : l.Balanced) (hclean : Clean l.state qs) :
    (l.run qs).Measured ∧ (l.run qs).state.VolumesAddUp := by
  induction qs generalizing l with
  | nil => exact ⟨h, hclean⟩
  | cons q qs ih =>
    obtain ⟨⟨summary, s', hcall, hvolumes⟩, hrest⟩ := hclean
    refine ih (h.enter hl q ?_) (hl.enter q) (by rwa [state_enter])
    rw [hcall]
    exact hvolumes

end Ledger

/-- Exact volumes do not overflow. -/
lemma exists_candles (h : ∀ key, Exact (f.ticksOf key)) :
    ∃ candles, f.candles = .ok candles := by
  rw [Feed.candles]
  generalize f.keys = keys
  induction keys with
  | nil => exact ⟨[], rfl⟩
  | cons key keys ih =>
    obtain ⟨candle, hcandle, -⟩ := ContractCandle.Sums.of_ofRecords (h key)
    obtain ⟨candles, hcandles⟩ := ih
    refine ⟨(key, candle) :: candles, ?_⟩
    rw [List.mapM_cons, hcandle, hcandles]
    rfl

/-- The end of the feed emits a summary that accounts for what is pending, if anything is. -/
lemma Accounts.finish (hl : l.Balanced) (hdated : l.Dated timeframe) (hmeasured : l.Measured)
    (hvolumes : l.state.VolumesAddUp) :
    ∃ rest s', finish l.state = .ok rest s' ∧
      match rest with
      | none => l.pending = []
      | some summary => Accounts timeframe summary l.pending := by
  have hclosing := Closing.of_takeSummary hl.sound true
  rw [Rollup.finish]
  generalize takeSummary true l.state = r at hclosing
  have hexact := hl.exact hmeasured.within hvolumes
  cases hclosing with
  | idle hnil => exact ⟨none, _, rfl, hl.pending_eq_nil_iff.mpr hnil⟩
  | overflowed hcandles =>
    obtain ⟨candles, hok⟩ := exists_candles hexact
    cases (hok.symm.trans hl.candles_table.symm).trans hcandles
  | emitted hperiod _ hcandles =>
    exact ⟨some _, _, rfl, hl.candles_table.symm.trans hcandles, hdated.pending _ hperiod,
      hexact⟩

/-- Each summary of a clean run accounts for a batch of the ticks that were accepted. -/
lemma exists_batches {config : RollupConfig} (h : ofConfig config = .ok s) (hclean : Clean s qs) :
    ∃ batches : List (Summary × Feed),
      (∃ rest s', finish (stateAfter s qs) = .ok rest s') ∧
      batches.map Prod.fst = report s qs ∧
      (batches.map Prod.snd).flatten = accepted s qs ∧
      ∀ batch ∈ batches, Accounts config.timeframe batch.1 batch.2 := by
  obtain ⟨hnil, rfl⟩ := eq_of_ofConfig h
  have hstart := Ledger.Balanced.start (.of_ofConfig h) hnil
  have hl := hstart.run qs
  have hdated := (Ledger.Dated.start s).run hstart qs
  obtain ⟨hmeasured, hvolumes⟩ := (Ledger.Measured.start hnil).run hstart hclean
  have hfinish := Accounts.finish hl hdated hmeasured hvolumes
  have hsummaries : ((Ledger.start s).run qs).batches.map Prod.fst = summaries s qs :=
    Ledger.summaries_run _ qs
  have haccepted : (((Ledger.start s).run qs).batches.map Prod.snd).flatten ++
      ((Ledger.start s).run qs).pending = accepted s qs := Ledger.accepted_run _ qs
  have hbatches : ∀ batch ∈ ((Ledger.start s).run qs).batches,
      Accounts s.settings.timeframe batch.1 batch.2 := fun batch hbatch =>
    ⟨hl.candles_eq batch hbatch, hdated.batches batch hbatch, hmeasured.batches batch hbatch⟩
  rw [Ledger.state_run, show (Ledger.start s).state = s from rfl] at hfinish
  generalize ((Ledger.start s).run qs).batches = batches,
    ((Ledger.start s).run qs).pending = pending at *
  obtain ⟨rest, s', hfinish, hrest⟩ := hfinish
  have hsummary : summaryOf (finish (stateAfter s qs)) = rest := by rw [hfinish]; rfl
  cases rest with
  | none =>
    refine ⟨batches, ⟨none, s', hfinish⟩, ?_, ?_, hbatches⟩
    · rw [hsummaries, report, hsummary, Option.toList_none, List.append_nil]
    · rw [← haccepted, show pending = [] from hrest, List.append_nil]
  | some summary =>
    refine ⟨batches ++ [(summary, pending)], ⟨some summary, s', hfinish⟩, ?_, ?_, ?_⟩
    · rw [List.map_append, hsummaries, report, hsummary]
      rfl
    · rw [List.map_append, List.flatten_append, ← haccepted, List.map_singleton,
        List.flatten_singleton]
    · intro batch hbatch
      rcases List.mem_append.mp hbatch with hbatch | hbatch
      · exact hbatches batch hbatch
      · cases List.mem_singleton.mp hbatch
        exact hrest

end Rollup

end Candlestick
