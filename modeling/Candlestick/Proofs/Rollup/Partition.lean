import Candlestick.Proofs.Rollup.Feed
import Candlestick.Proofs.Rollup.Request

/-!
# Summaries partition the accepted ticks

A ledger goes along with a run: it notes for each summary the ticks accepted between the emission
before and it, and the ticks accepted since the last one. The candles of each summary are those of
its ticks, and the buckets of the table hold what is pending
(`Rollup.summaries_partition_accepted`).
-/

namespace Candlestick

namespace Rollup

/-! ### Runs -/

/-- The ticks of a request, with their contract. -/
def Request.legs : Request → Feed
  | tick key r => .ofTicks key [r]
  | sandwich key s => .ofTicks key s.records
  | raw t =>
    match t.decode with
    | .ok (key, r) => .ofTicks key [r]
    | .error _ => []
  | close => []

/-- The state that requests lead to. -/
def stateAfter (s : Rollup) (qs : List Request) : Rollup :=
  qs.foldl (fun s q => stateOf (q.call s)) s

lemma sound_stateAfter {s : Rollup} (h : s.Sound) (qs : List Request) :
    (stateAfter s qs).Sound := by
  induction qs generalizing s with
  | nil => exact h
  | cons q qs ih => exact ih (sound_call h q)

/-- The summary that a call returns. -/
def summaryOf : Outcome → Option Summary
  | .ok summary _ => summary
  | .error _ _ => none

/-- The ticks accepted from `legs` by a call that `s` leads to `r`: all unless it fails or drops. -/
def acceptedOf (s : Rollup) (legs : Feed) : Outcome → Feed
  | .ok _ s' => if s.stats.dropped < s'.stats.dropped then [] else legs
  | .error _ _ => []

/-- The summaries that requests return. -/
def summaries (s : Rollup) : List Request → List Summary
  | [] => []
  | q :: qs => (summaryOf (q.call s)).toList ++ summaries (stateOf (q.call s)) qs

/-- The ticks that are accepted from requests. -/
def accepted (s : Rollup) : List Request → Feed
  | [] => []
  | q :: qs => acceptedOf s q.legs (q.call s) ++ accepted (stateOf (q.call s)) qs

/-! ### Ledgers -/

/-- What a run has accepted and emitted. -/
structure Ledger where
  state : Rollup
  /-- The summaries, each with the ticks accepted from the emission before it on. -/
  batches : List (Summary × Feed)
  /-- The ticks accepted from the last emission on. -/
  pending : Feed

namespace Ledger

/-- A ledger before the first request. -/
def start (s : Rollup) : Ledger where
  state := s
  batches := []
  pending := []

/-- Notes a call. The ticks of a call that emits a summary are not in that summary. -/
def enter (l : Ledger) (legs : Feed) (r : Outcome) : Ledger :=
  match summaryOf r with
  | some summary =>
    { state := stateOf r
      batches := l.batches ++ [(summary, l.pending)]
      pending := acceptedOf l.state legs r }
  | none => { l with state := stateOf r, pending := l.pending ++ acceptedOf l.state legs r }

/-- Notes the calls of a run. -/
def run (l : Ledger) (qs : List Request) : Ledger :=
  qs.foldl (fun l q => l.enter q.legs (q.call l.state)) l

/-- The summaries have the candles of their ticks, and the table has what is pending. -/
structure Balanced (l : Ledger) : Prop where
  sound : l.state.Sound
  active_eq : l.state.table.active = l.pending.roster l.state.table.newBucket
  candles_eq : ∀ batch ∈ l.batches, batch.2.candles = .ok batch.1.candles

end Ledger

variable {s s' : Rollup} {o : Offer} {q : Request} {l : Ledger}

lemma Request.legs_eq_of_offer? (h : q.offer? = some o) : q.legs = .ofTicks o.key o.ticks := by
  cases q with
  | tick | sandwich =>
    cases h
    rfl
  | raw t =>
    rw [Request.offer?] at h
    rw [Request.legs]
    cases hdecode : t.decode with
    | error e =>
      rw [hdecode] at h
      cases h
    | ok tick =>
      rw [hdecode] at h
      cases h
      rfl
  | close => cases h

namespace Ledger

lemma Balanced.start (h : s.Sound) (hnil : s.table.active = []) : (start s).Balanced where
  sound := h
  active_eq := hnil
  candles_eq batch hbatch := by cases hbatch

/-- The candles of the table are those of the pending ticks. -/
lemma Balanced.candles_table (h : l.Balanced) : l.state.table.candles = l.pending.candles := by
  change Roster.candles l.state.table.active = _
  rw [h.active_eq]
  exact Feed.candles_roster _ _ _

lemma Balanced.pending_eq_nil_iff (h : l.Balanced) :
    l.pending = [] ↔ l.state.table.active = [] := by
  rw [h.active_eq, Feed.roster_eq_nil_iff]

lemma Balanced.emit (h : l.Balanced) {candles : List (ContractKey × ContractCandle)}
    (hcandles : l.state.table.candles = .ok candles) {summary : Summary}
    (hsummary : summary.candles = candles) :
    Balanced ⟨l.state.emptied, l.batches ++ [(summary, l.pending)], []⟩ where
  sound := h.sound.emptied
  active_eq := rfl
  candles_eq batch hbatch := by
    rcases List.mem_append.mp hbatch with hbatch | hbatch
    · exact h.candles_eq batch hbatch
    · cases List.mem_singleton.mp hbatch
      rw [← h.candles_table, hcandles, hsummary]

lemma Balanced.take (h : l.Balanced) (hs' : s'.Sound)
    (htaken : l.state.table.Taken o s'.table) :
    Balanced ⟨s', l.batches, l.pending ++ .ofTicks o.key o.ticks⟩ where
  sound := hs'
  active_eq := by
    rw [htaken.active_eq, h.active_eq, ContractTable.newBucket_congr htaken.config_eq]
    exact (Feed.roster_append _ _ _ o.ticks_ne_nil).symm
  candles_eq := h.candles_eq

/-- A call that leaves the table alone and accepts nothing keeps a ledger balanced. -/
lemma Balanced.keep (h : l.Balanced) (hs' : s'.Sound) (htable : s'.table = l.state.table) :
    Balanced ⟨s', l.batches, l.pending ++ []⟩ where
  sound := hs'
  active_eq := by
    rw [htable, List.append_nil]
    exact h.active_eq
  candles_eq := h.candles_eq

lemma Balanced.enter_admission (h : l.Balanced)
    {r : Outcome} (hadmission : Admission l.state o r) :
    (l.enter (.ofTicks o.key o.ticks) r).Balanced := by
  have hs' := hadmission.sound h.sound
  have hlegs : 0 < o.ticks.length := List.length_pos_iff.mpr o.ticks_ne_nil
  cases hadmission with
  | unalignable | overflowed | rejected => exact h.keep hs' rfl
  | stored _ _ _ htaken | opened _ _ _ htaken =>
    rw [enter, summaryOf, acceptedOf, if_neg (Nat.lt_irrefl _)]
    exact h.take hs' htaken
  | dropped =>
    rw [enter, summaryOf, acceptedOf, if_pos (Nat.lt_add_of_pos_right hlegs)]
    exact h.keep hs' rfl
  | split _ _ _ _ _ hcandles htaken | closed _ _ _ _ hcandles htaken =>
    rw [enter, summaryOf, acceptedOf, if_neg (Nat.lt_irrefl _)]
    exact (h.emit hcandles rfl).take hs' htaken

/-- One request keeps a ledger balanced. -/
lemma Balanced.enter (h : l.Balanced) (q : Request) :
    (l.enter q.legs (q.call l.state)).Balanced := by
  have hperformed := Performed.of_call h.sound q
  have hs' := hperformed.sound h.sound
  generalize q.call l.state = r at hperformed hs'
  cases hperformed with
  | undecodable | null | misfit => exact h.keep hs' rfl
  | offered hoffer _ _ hadmission =>
    rw [Request.legs_eq_of_offer? hoffer]
    exact h.enter_admission hadmission
  | closed hclosing =>
    cases hclosing with
    | idle =>
      rw [Ledger.enter, summaryOf, acceptedOf, Request.legs, ite_self]
      exact h.keep hs' rfl
    | overflowed => exact h.keep hs' rfl
    | emitted _ _ hcandles =>
      rw [Ledger.enter, summaryOf, acceptedOf, Request.legs, ite_self]
      exact h.emit hcandles rfl

lemma Balanced.run (h : l.Balanced) (qs : List Request) : (l.run qs).Balanced := by
  induction qs generalizing l with
  | nil => exact h
  | cons q qs ih => exact ih (h.enter q)

lemma state_enter (l : Ledger) (legs : Feed) (r : Outcome) :
    (l.enter legs r).state = stateOf r := by
  rw [enter]
  cases summaryOf r <;> rfl

lemma run_cons (l : Ledger) (q : Request) (qs : List Request) :
    l.run (q :: qs) = (l.enter q.legs (q.call l.state)).run qs := rfl

lemma state_run (l : Ledger) (qs : List Request) : (l.run qs).state = stateAfter l.state qs := by
  induction qs generalizing l with
  | nil => rfl
  | cons q qs ih =>
    rw [run_cons, ih, state_enter]
    rfl

lemma summaries_run (l : Ledger) (qs : List Request) :
    (l.run qs).batches.map Prod.fst = l.batches.map Prod.fst ++ summaries l.state qs := by
  induction qs generalizing l with
  | nil => simp [run, summaries]
  | cons q qs ih =>
    rw [run_cons, ih, state_enter, summaries, ← List.append_assoc, enter]
    cases summaryOf (q.call l.state) <;> simp

/-- Nothing that is accepted is left out of the ledger, noted twice or out of order. -/
lemma accepted_run (l : Ledger) (qs : List Request) :
    ((l.run qs).batches.map Prod.snd).flatten ++ (l.run qs).pending =
      (l.batches.map Prod.snd).flatten ++ l.pending ++ accepted l.state qs := by
  induction qs generalizing l with
  | nil => simp [run, accepted]
  | cons q qs ih =>
    rw [run_cons, ih, state_enter, accepted, enter]
    cases summaryOf (q.call l.state) <;> simp

lemma settings_run (h : l.Balanced) (qs : List Request) :
    (l.run qs).state.settings = l.state.settings := by
  induction qs generalizing l with
  | nil => rfl
  | cons q qs ih =>
    rw [run_cons, ih (h.enter q), state_enter]
    exact (Performed.of_call h.sound q).settings_eq

lemma Balanced.finish (h : l.Balanced) :
    match finish l.state with
    | .ok none _ => l.pending = []
    | .ok (some summary) _ => l.pending ≠ [] ∧ l.pending.candles = .ok summary.candles
    | .error _ _ => ∃ cause, l.pending.candles = .error cause := by
  have hclosing := Closing.of_takeSummary h.sound true
  rw [Rollup.finish]
  generalize takeSummary true l.state = r at hclosing
  cases hclosing with
  | idle hnil => exact h.pending_eq_nil_iff.mpr hnil
  | overflowed hcandles => exact ⟨_, h.candles_table.symm.trans hcandles⟩
  | emitted _ hsome hcandles =>
    exact ⟨mt h.pending_eq_nil_iff.mp hsome, h.candles_table.symm.trans hcandles⟩

end Ledger

/--
Over a run from usable settings, the summaries together with what is left in the table have each
accepted tick once, under its own contract and in order of arrival: each summary those accepted
from the emission before it on, and none of the call that returned it.
-/
theorem summaries_partition_accepted {config : RollupConfig} (h : ofConfig config = .ok s)
    (qs : List Request) :
    let l := (Ledger.start s).run qs
    l.state = stateAfter s qs ∧
      l.batches.map Prod.fst = summaries s qs ∧
      (l.batches.map Prod.snd).flatten ++ l.pending = accepted s qs ∧
      (∀ batch ∈ l.batches, batch.2.candles = .ok batch.1.candles) ∧
      l.state.table.active =
        l.pending.roster (.empty config.table.layout config.table.bucketSize.toNat) ∧
      match finish l.state with
      | .ok none _ => l.pending = []
      | .ok (some summary) _ => l.pending ≠ [] ∧ l.pending.candles = .ok summary.candles
      | .error _ _ => ∃ cause, l.pending.candles = .error cause := by
  obtain ⟨hnil, rfl⟩ := eq_of_ofConfig h
  have hstart := Ledger.Balanced.start (.of_ofConfig h) hnil
  have hrun := hstart.run qs
  have hconfig : ((Ledger.start s).run qs).state.table.config = s.table.config :=
    congrArg RollupConfig.table (Ledger.settings_run hstart qs)
  refine ⟨Ledger.state_run _ qs, Ledger.summaries_run _ qs, Ledger.accepted_run _ qs,
    hrun.candles_eq, ?_, hrun.finish⟩
  rw [hrun.active_eq, ContractTable.newBucket_congr hconfig]
  rfl

/-- The summary that a second contract forces has the tick of the first, and only that. -/
theorem summaries_partition_accepted_narrow :
    ofConfig ⟨⟨1, 1, .flat, 0⟩, .minute1, .earlyRollup⟩ = .ok (narrow .earlyRollup) ∧
      ∃ summary,
        summaries (narrow .earlyRollup) [.tick ⟨1, 0, 0⟩ narrowTick, .tick ⟨2, 0, 0⟩ narrowTick] =
          [summary] ∧
        Feed.candles [(⟨1, 0, 0⟩, narrowTick)] = .ok summary.candles := by
  have hfresh := ofConfig_narrow .earlyRollup
  obtain ⟨-, hsummaries, -, hcandles, -⟩ := summaries_partition_accepted hfresh
    [.tick ⟨1, 0, 0⟩ narrowTick, .tick ⟨2, 0, 0⟩ narrowTick]
  have hbatches : ∃ summary, ((Ledger.start (narrow .earlyRollup)).run
      [.tick ⟨1, 0, 0⟩ narrowTick, .tick ⟨2, 0, 0⟩ narrowTick]).batches =
        [(summary, [(⟨1, 0, 0⟩, narrowTick)])] := ⟨_, rfl⟩
  obtain ⟨summary, hbatches⟩ := hbatches
  rw [hbatches] at hsummaries hcandles
  exact ⟨hfresh, summary, hsummaries.symm, hcandles _ (List.mem_singleton.mpr rfl)⟩

end Rollup

end Candlestick
