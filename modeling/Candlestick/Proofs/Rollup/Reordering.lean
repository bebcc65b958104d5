import Candlestick.Proofs.Rollup.Progress
import Candlestick.Proofs.Rollup.Verdict
import Mathlib.Data.List.SplitBy

/-!
# Contracts do not interfere

If no period is split and each has room for its contracts, requests of different contracts may
trade places within a period: the summaries have the same candles, each request gets the same
verdict and the counters end the same (`Rollup.reordered_runs_agree`). What one contract sends has
no bearing on another.
-/

namespace Candlestick

namespace Roster

lemma candles_eq_ok_iff {m : Roster} {cs : List (ContractKey × ContractCandle)} :
    m.candles = .ok cs ↔
      List.Forall₂ (fun entry c => entry.2.aggregate.map (entry.1, ·) = .ok c) m cs := by
  rw [candles]
  induction m generalizing cs with
  | nil => simp [pure, Except.pure, eq_comm]
  | cons entry m ih =>
    rw [List.mapM_cons, List.forall₂_cons_left_iff]
    cases hentry : entry.2.aggregate.map (entry.1, ·) with
    | error cause => simp [bind, Except.bind]
    | ok c =>
      cases hrest : m.mapM fun entry => entry.2.aggregate.map (entry.1, ·) with
      | error cause => simp [bind, Except.bind, ← ih, hrest]
      | ok cs' =>
        simp only [bind, Except.bind, pure, Except.pure, ← ih, hrest, Except.ok.injEq]
        constructor
        · rintro rfl
          exact ⟨c, cs', rfl, rfl, rfl⟩
        · rintro ⟨_, _, rfl, rfl, rfl⟩
          rfl

/-- The candles of a rearranged roster are rearranged in the same way. -/
lemma candles_perm {m m' : Roster} (h : m.Perm m') {cs : List (ContractKey × ContractCandle)}
    (hcs : m.candles = .ok cs) : ∃ cs', m'.candles = .ok cs' ∧ cs.Perm cs' := by
  obtain ⟨cs', hcs', hperm⟩ := List.perm_comp_forall₂ h.symm (candles_eq_ok_iff.mp hcs)
  exact ⟨cs', candles_eq_ok_iff.mpr hcs', hperm.symm⟩

end Roster

/-- Two summaries differ in nothing but the order of the contracts. -/
structure Summary.Rearranges (a b : Summary) : Prop where
  periodStart_eq : a.periodStart = b.periodStart
  timeframe_eq : a.timeframe = b.timeframe
  complete_eq : a.complete = b.complete
  candles_perm : a.candles.Perm b.candles

namespace Rollup

variable {s s₀ t : Rollup} {o : Offer} {q : Request} {qs qs' : List Request} {p : Timestamp}
variable {config : RollupConfig} {keys : Finset ContractKey} {closed : Option Summary}

/-! ### Rearranged requests -/

/-- Requests are rearranged, but not those of any one contract. -/
structure Rearranged (qs qs' : List Request) : Prop where
  perm : qs.Perm qs'
  order_eq : ∀ key, qs.filter (·.isFor key) = qs'.filter (·.isFor key)

/-- The requests by periods: the longest runs of consecutive requests for the same period. -/
def blocks (timeframe : Timeframe) (qs : List Request) : List (List Request) :=
  qs.splitBy fun q q' => q.start? timeframe == q'.start? timeframe

/-- Requests are rearranged within each run of requests for the same period. -/
def Reordered (timeframe : Timeframe) (qs qs' : List Request) : Prop :=
  ∃ bs, List.Forall₂ Rearranged (blocks timeframe qs) bs ∧ bs.flatten = qs'

/-- A request has ticks with a period for a contract, and they fit a bucket without ticks. -/
def Request.Admissible (config : RollupConfig) (q : Request) : Prop :=
  ∃ o p, q.Fitting config p o

/-- Whether candles overflow. -/
def overflows : Outcome → Bool
  | .error (.overflow _) _ => true
  | _ => false

/-- No candles overflow, neither in a call nor at the end of the feed. -/
def NeverOverflows (s : Rollup) : List Request → Prop
  | [] => overflows (finish s) = false
  | q :: qs => overflows (q.call s) = false ∧ NeverOverflows (stateOf (q.call s)) qs

lemma NeverOverflows.append (h : NeverOverflows s (qs ++ qs')) :
    NeverOverflows (stateAfter s qs) qs' := by
  induction qs generalizing s with
  | nil => exact h
  | cons q qs ih => exact ih h.2

/-! ### Closing a period -/

/-- Two states differ in nothing but the order and the places of the contracts. -/
structure Interchangeable (config : RollupConfig) (s t : Rollup) : Prop where
  sound_left : s.Sound
  sound_right : t.Sound
  settings_left : s.settings = config
  settings_right : t.settings = config
  periodStart_eq : s.periodStart = t.periodStart
  stats_eq : s.stats = t.stats
  active_perm : s.table.active.Perm t.table.active

/-- What closing the open period comes to, if no candles overflow. -/
structure Closed (s : Rollup) (complete : Bool) (closed : Option Summary) (s₀ : Rollup) : Prop where
  takeSummary_eq : takeSummary complete s = .ok closed s₀
  sound : s₀.Sound
  active_eq : s₀.table.active = []
  settings_eq : s₀.settings = s.settings
  dropped_eq : s₀.stats.dropped = s.stats.dropped

lemma Closed.of_takeSummary (h : s.Sound) {complete : Bool}
    (hclose : takeSummary complete s = .ok closed s₀) : Closed s complete closed s₀ := by
  have hclosing := Closing.of_takeSummary h complete
  rw [hclose] at hclosing
  cases hclosing with
  | idle hnil => exact ⟨hclose, h, hnil, rfl, rfl⟩
  | emitted => exact ⟨hclose, h.emptied, rfl, rfl, rfl⟩

/-- Closing has the same effect on states that are interchangeable. -/
lemma Interchangeable.exists_closed (h : Interchangeable config s t) {complete : Bool}
    (hclose : takeSummary complete s = .ok closed s₀) :
    ∃ closed' t₀, Closed t complete closed' t₀ ∧ s₀.stats = t₀.stats ∧
      List.Forall₂ Summary.Rearranges closed.toList closed'.toList := by
  have hleft := Closing.of_takeSummary h.sound_left complete
  have hright := Closing.of_takeSummary h.sound_right complete
  rw [hclose] at hleft
  have hsettings : s.timeframe = t.timeframe :=
    congrArg RollupConfig.timeframe (h.settings_left.trans h.settings_right.symm)
  cases hleft with
  | idle hnil =>
    have hnil' := List.nil_perm.mp (hnil ▸ h.active_perm)
    generalize hclose' : takeSummary complete t = r at hright
    cases hright with
    | idle => exact ⟨none, t, .of_takeSummary h.sound_right hclose', h.stats_eq, .nil⟩
    | overflowed hcandles =>
      change Roster.candles t.table.active = _ at hcandles
      rw [hnil'] at hcandles
      cases hcandles
    | emitted _ hsome => exact absurd hnil' hsome
  | emitted hperiod hsome hcandles =>
    obtain ⟨cs', hcandles', hperm⟩ := Roster.candles_perm h.active_perm hcandles
    generalize hclose' : takeSummary complete t = r at hright
    cases hright with
    | idle hnil => exact absurd (List.perm_nil.mp (hnil ▸ h.active_perm)) hsome
    | overflowed hcandles => cases hcandles'.symm.trans hcandles
    | emitted hperiod' _ hcandles =>
      cases hcandles'.symm.trans hcandles
      cases hperiod.symm.trans (h.periodStart_eq.trans hperiod')
      refine ⟨_, _, .of_takeSummary h.sound_right hclose', ?_,
        .cons ⟨rfl, hsettings, rfl, hperm⟩ .nil⟩
      exact congrArg (fun c : Stats => { c with periods := c.periods + 1 }) h.stats_eq

/-! ### Requests for another period -/

/-- A request for another period is heard once the open one is closed. -/
lemma Request.Fitting.call_moved (hq : q.Fitting config p o) (h : s.settings = config)
    (hmoved : s.periodStart ≠ some p) (hclosed : Closed s true closed s₀) :
    q.call s =
      match q.call { s₀ with periodStart := some p } with
      | .ok early s' => .ok (closed.or early) s'
      | .error e s' => .error e s' := by
  have h₀ := hclosed.settings_eq.trans h
  have hstart : s.timeframe.periodStart? o.timestamp = some p := by
    rw [← hq.start_eq, ← h]
    rfl
  have hstart₀ : s₀.timeframe.periodStart? o.timestamp = some p := by
    rw [← hq.start_eq, ← h₀]
    rfl
  have hroll := rollTo_of_ne hstart hmoved
  rw [hclosed.takeSummary_eq] at hroll
  rw [hq.call_eq h, offer_of_rollTo_ok hroll,
    hq.call_eq (s := { s₀ with periodStart := some p }) h₀,
    offer_of_rollTo_ok (rollTo_of_eq (s := { s₀ with periodStart := some p }) hstart₀ rfl)]
  cases store o.key o.ticks.length o.add { s₀ with periodStart := some p } <;> rfl

/-- A request for another period that does not overflow closes the open one. -/
lemma Request.Fitting.exists_closed (hq : q.Fitting config p o) (hs : s.Sound)
    (h : s.settings = config) (hmoved : s.periodStart ≠ some p)
    (hvolume : overflows (q.call s) = false) : ∃ closed s₀, Closed s true closed s₀ := by
  have hstart : s.timeframe.periodStart? o.timestamp = some p := by
    rw [← hq.start_eq, ← h]
    rfl
  have hroll := rollTo_of_ne hstart hmoved
  have hclosing := Closing.of_takeSummary hs true
  generalize hclose : takeSummary true s = r at hclosing hroll
  cases hclosing with
  | idle | emitted => exact ⟨_, _, .of_takeSummary hs hclose⟩
  | overflowed =>
    rw [hq.call_eq h, offer_of_rollTo_error hroll] at hvolume
    cases hvolume

/-- The first request that an empty table hears is accepted. -/
lemma Hearing.call_of_active_eq_nil (h : Hearing config p keys s) (hnil : s.table.active = [])
    (hq : q.Fitting config p o) (hkey : o.key ∈ keys) :
    ∃ s', q.call s = .ok none s' ∧ ¬ s.stats.dropped < s'.stats.dropped := by
  have hheard := Heard.of_call h hq hkey
  have hverdict := hheard.verdict_eq
  have hsummary := hheard.summary_eq
  rw [hnil, List.lookup_nil, Option.getD_none, verdictBy, hq.fits] at hverdict
  cases hcall : q.call s with
  | error e s' =>
    rw [hcall] at hverdict
    cases hverdict
  | ok early s' =>
    rw [hcall] at hverdict hsummary
    cases hsummary
    refine ⟨s', rfl, fun hdropped => ?_⟩
    rw [verdictOf, if_pos hdropped] at hverdict
    cases hverdict

/-- The state in which a period is opened once the one before it is closed. -/
lemma Closed.hearing (hclosed : Closed s true closed s₀) (h : s.settings = config)
    (hpolicy : config.overflow ≠ .earlyRollup) (hcard : keys.card ≤ config.table.capacity.toNat)
    (p : Timestamp) : Hearing config p keys { s₀ with periodStart := some p } where
  sound := hclosed.sound.roll p
  settings_eq := hclosed.settings_eq.trans h
  policy_ne := hpolicy
  periodStart_eq := rfl
  keys_subset key hkey := by
    change key ∈ s₀.table.active.map Prod.fst at hkey
    rw [hclosed.active_eq] at hkey
    cases hkey
  card_le := hcard

/-- A bucket lets no candles overflow. -/
lemma Heard.overflows_eq_false {r : Outcome} (h : Heard config p keys s q o r) :
    overflows r = false := by
  cases r with
  | ok => rfl
  | error e s' =>
    have hverdict := h.verdict_eq
    rcases verdictBy_cases config.overflow o ((s.table.active.lookup o.key).getD
      ((freshBucket config).claim o.key)) with heq | heq | ⟨c, heq⟩
    all_goals rw [heq] at hverdict; cases hverdict
    rfl

lemma Hearing.neverOverflows_append (h : Hearing config p keys s)
    (hqs : AllFitting config p keys qs)
    (hvolume : NeverOverflows (Rollup.stateAfter s qs) qs') : NeverOverflows s (qs ++ qs') := by
  induction qs generalizing s with
  | nil => exact hvolume
  | cons q qs ih =>
    obtain ⟨⟨o, hq, hkey⟩, hqs⟩ := List.forall_mem_cons.mp hqs
    have hheard := Heard.of_call h hq hkey
    exact ⟨hheard.overflows_eq_false, ih hheard.hearing hqs hvolume⟩

/-- Requests for another period are heard by an empty table `s₁` once the open one is closed. -/
structure Crossing (config : RollupConfig) (p : Timestamp) (keys : Finset ContractKey) (s : Rollup)
    (closed : Option Summary) (s₁ : Rollup) (qs : List Request) : Prop where
  hearing : Hearing config p keys s₁
  active_eq : s₁.table.active = []
  summaries_eq : summaries s qs = closed.toList
  verdicts_eq : verdicts s qs = verdicts s₁ qs
  stateAfter_eq : stateAfter s qs = stateAfter s₁ qs
  neverOverflows : ∀ qs', NeverOverflows (stateAfter s qs) qs' → NeverOverflows s (qs ++ qs')

lemma Closed.crossing (hclosed : Closed s true closed s₀) (h : s.settings = config)
    (hpolicy : config.overflow ≠ .earlyRollup) (hcard : keys.card ≤ config.table.capacity.toNat)
    (hmoved : s.periodStart ≠ some p) (hne : qs ≠ []) (hqs : AllFitting config p keys qs) :
    Crossing config p keys s closed { s₀ with periodStart := some p } qs := by
  have hhearing := hclosed.hearing h hpolicy hcard p
  cases qs with
  | nil => exact absurd rfl hne
  | cons q qs =>
    obtain ⟨⟨o, hq, hkey⟩, hrest⟩ := List.forall_mem_cons.mp hqs
    have hafter := (Heard.of_call hhearing hq hkey).hearing
    obtain ⟨s', hcall₁, hdropped⟩ := hhearing.call_of_active_eq_nil hclosed.active_eq hq hkey
    rw [hcall₁] at hafter
    have hcall : q.call s = .ok closed s' := by
      rw [hq.call_moved h hmoved hclosed, hcall₁]
      exact congrArg (EStateM.Result.ok · s') Option.or_none
    have hstate :
        stateAfter s (q :: qs) = stateAfter { s₀ with periodStart := some p } (q :: qs) := by
      rw [stateAfter, stateAfter, List.foldl_cons, List.foldl_cons, hcall, hcall₁]
      rfl
    refine ⟨hhearing, hclosed.active_eq, ?_, ?_, hstate, fun qs' hvolume => ⟨?_, ?_⟩⟩
    · rw [summaries, hcall]
      exact (congrArg (closed.toList ++ ·) (hafter.summaries_eq hrest)).trans (List.append_nil _)
    · rw [verdicts, verdicts, hcall, hcall₁]
      simp only [verdictOf, if_neg hdropped, ← hclosed.dropped_eq]
      rfl
    · rw [hcall]
      rfl
    · rw [hcall]
      refine hafter.neverOverflows_append hrest ?_
      rwa [hstate, stateAfter, List.foldl_cons, hcall₁] at hvolume

/-! ### Rearranged requests of a period -/

lemma Rearranged.allFitting (h : Rearranged qs qs') (hqs : AllFitting config p keys qs) :
    AllFitting config p keys qs' :=
  fun q hq => hqs q (h.perm.mem_iff.mpr hq)

/-- Runs that come to the same, contract by contract. -/
structure Matching (config : RollupConfig) (s t : Rollup) (qs qs' : List Request) : Prop where
  after : Interchangeable config (stateAfter s qs) (stateAfter t qs')
  summaries : List.Forall₂ Summary.Rearranges (summaries s qs) (summaries t qs')
  verdicts_eq : ∀ key,
    (verdicts s qs).filter (·.1.isFor key) = (verdicts t qs').filter (·.1.isFor key)
  verdict_cases : ∀ entry ∈ verdicts s qs, entry.2 = .accepted ∨ entry.2 = .dropped ∨
    ∃ key c, entry.1.key? = some key ∧ entry.2 = .refused (.bucketFull key c)
  neverOverflows : ∀ rest, NeverOverflows (stateAfter t qs') rest → NeverOverflows t (qs' ++ rest)

lemma Matching.nil (h : Interchangeable config s t) : Matching config s t [] [] where
  after := h
  summaries := .nil
  verdicts_eq _ := rfl
  verdict_cases _ hentry := by cases hentry
  neverOverflows _ hvolume := hvolume

lemma Matching.append {rest rest' : List Request} (h : Matching config s t qs qs')
    (hrest : Matching config (stateAfter s qs) (stateAfter t qs') rest rest') :
    Matching config s t (qs ++ rest) (qs' ++ rest') where
  after := by
    rw [stateAfter_append, stateAfter_append]
    exact hrest.after
  summaries := by
    rw [summaries_append, summaries_append]
    exact List.rel_append h.summaries hrest.summaries
  verdicts_eq key := by
    rw [verdicts_append, verdicts_append, List.filter_append, List.filter_append,
      h.verdicts_eq, hrest.verdicts_eq]
  verdict_cases entry hentry := by
    rw [verdicts_append] at hentry
    exact (List.mem_append.mp hentry).elim (h.verdict_cases entry) (hrest.verdict_cases entry)
  neverOverflows qs'' hvolume := by
    rw [stateAfter_append] at hvolume
    rw [List.append_assoc]
    exact h.neverOverflows _ (hrest.neverOverflows _ hvolume)

/-- Verdicts that agree for every contract are rearranged, if every request has a contract. -/
lemma verdicts_perm {vs vs' : List (Request × Verdict)}
    (h : ∀ key, vs.filter (·.1.isFor key) = vs'.filter (·.1.isFor key))
    (hvs : ∀ entry ∈ vs, ∃ key, entry.1.isFor key)
    (hvs' : ∀ entry ∈ vs', ∃ key, entry.1.isFor key) :
    vs.Perm vs' := by
  classical
  refine List.perm_iff_count.mpr fun entry => ?_
  by_cases hfor : ∃ key, entry.1.isFor key
  · obtain ⟨key, hkey⟩ := hfor
    have hcount (vs : List (Request × Verdict)) :
        (vs.filter (·.1.isFor key)).count entry = vs.count entry := List.count_filter hkey
    rw [← hcount, h, hcount]
  · rw [List.count_eq_zero.mpr (mt (hvs entry) hfor), List.count_eq_zero.mpr (mt (hvs' entry) hfor)]

/-- Each request of a run within a period is for a contract. -/
lemma AllFitting.exists_isFor (hqs : AllFitting config p keys qs) {entry : Request × Verdict}
    (hentry : entry ∈ verdicts s qs) : ∃ key, entry.1.isFor key := by
  have hmem := List.mem_map_of_mem (f := Prod.fst) hentry
  rw [map_fst_verdicts] at hmem
  obtain ⟨o, hq, -⟩ := hqs _ hmem
  exact ⟨o.key, hq.isFor_iff.mpr rfl⟩

/-- Rearranged requests come to the same if they are heard by empty tables. -/
lemma Hearing.matching (h : Hearing config p keys s) (h' : Hearing config p keys t)
    (hstats : s.stats = t.stats) (hnil : s.table.active = []) (hnil' : t.table.active = [])
    (hqs : AllFitting config p keys qs) (hre : Rearranged qs qs') :
    Matching config s t qs qs' := by
  have hqs' := hre.allFitting hqs
  have hverdicts (key : ContractKey) :
      (verdicts s qs).filter (·.1.isFor key) = (verdicts t qs').filter (·.1.isFor key) := by
    rw [h.verdicts_eq hqs, h'.verdicts_eq hqs', hnil, hnil', hre.order_eq]
  have hperm := verdicts_perm hverdicts (fun _ => hqs.exists_isFor) (fun _ => hqs'.exists_isFor)
  have hafter := h.stateAfter hqs
  have hafter' := h'.stateAfter hqs'
  exact
    { after :=
        { sound_left := hafter.sound
          sound_right := hafter'.sound
          settings_left := hafter.settings_eq
          settings_right := hafter'.settings_eq
          periodStart_eq := hafter.periodStart_eq.trans hafter'.periodStart_eq.symm
          stats_eq := by
            rw [h.stats_eq hqs, h'.stats_eq hqs', hstats]
            exact hperm.foldl_eq _
          active_perm := by
            refine Roster.perm_of_lookup_eq hafter.sound.table.nodup_keys_active
              hafter'.sound.table.nodup_keys_active fun key => ?_
            rw [h.lookup_eq hqs, h'.lookup_eq hqs', hnil, hnil', hre.order_eq] }
      summaries := by
        rw [h.summaries_eq hqs, h'.summaries_eq hqs']
        exact .nil
      verdicts_eq := hverdicts
      verdict_cases := fun _ => h.verdict_cases hqs
      neverOverflows := fun _ => h'.neverOverflows_append hqs' }

/-- Rearranged requests for another period come to the same. -/
lemma Interchangeable.matching (h : Interchangeable config s t)
    (hpolicy : config.overflow ≠ .earlyRollup)
    (hcard : keys.card ≤ config.table.capacity.toNat) (hmoved : s.periodStart ≠ some p)
    (hne : qs ≠ []) (hqs : AllFitting config p keys qs) (hre : Rearranged qs qs')
    {rest : List Request} (hvolume : NeverOverflows s (qs ++ rest)) :
    Matching config s t qs qs' ∧ (stateAfter s qs).periodStart = some p := by
  have hqs' := hre.allFitting hqs
  have hne' : qs' ≠ [] := fun hnil => hne (List.perm_nil.mp (hnil ▸ hre.perm))
  have hmoved' : t.periodStart ≠ some p := h.periodStart_eq ▸ hmoved
  obtain ⟨closed, s₀, hclosed⟩ : ∃ closed s₀, Closed s true closed s₀ := by
    cases qs with
    | nil => exact absurd rfl hne
    | cons q qs =>
      obtain ⟨o, hq, -⟩ := hqs q List.mem_cons_self
      exact hq.exists_closed h.sound_left h.settings_left hmoved hvolume.1
  obtain ⟨closed', t₀, hclosed', hstats, hsummaries⟩ := h.exists_closed hclosed.takeSummary_eq
  -- Both runs close the same period, and an empty table hears what follows.
  have hcross := hclosed.crossing h.settings_left hpolicy hcard hmoved hne hqs
  have hcross' := hclosed'.crossing h.settings_right hpolicy hcard hmoved' hne' hqs'
  have hmatching :=
    hcross.hearing.matching hcross'.hearing hstats hcross.active_eq hcross'.active_eq hqs hre
  constructor
  · exact
    { after := by
        rw [hcross.stateAfter_eq, hcross'.stateAfter_eq]
        exact hmatching.after
      summaries := by
        rw [hcross.summaries_eq, hcross'.summaries_eq]
        exact hsummaries
      verdicts_eq := by
        rw [hcross.verdicts_eq, hcross'.verdicts_eq]
        exact hmatching.verdicts_eq
      verdict_cases := by
        rw [hcross.verdicts_eq]
        exact hmatching.verdict_cases
      neverOverflows := hcross'.neverOverflows }
  · rw [hcross.stateAfter_eq]
    exact (hcross.hearing.stateAfter hqs).periodStart_eq

/-! ### Rearranged runs -/

/-- Blocks of requests, each for another period than the one before it and `p?` before the first. -/
inductive Periodwise (config : RollupConfig) : Option Timestamp → List (List Request) → Prop
  | nil {p? : Option Timestamp} : Periodwise config p? []
  | cons {p? : Option Timestamp} {p : Timestamp} {keys : Finset ContractKey} {b : List Request}
      {bs : List (List Request)} (hmoved : p? ≠ some p) (hne : b ≠ [])
      (hb : AllFitting config p keys b) (hcard : keys.card ≤ config.table.capacity.toNat)
      (hbs : Periodwise config (some p) bs) : Periodwise config p? (b :: bs)

lemma Request.Fitting.start?_eq (hq : q.Fitting config p o) :
    q.start? config.timeframe = some p := by
  rw [Request.start?, Request.timestamp?_of_offer? hq.offer?_eq]
  exact hq.start_eq

lemma Periodwise.of_blocks {bs : List (List Request)} {p? : Option Timestamp}
    (hne : ∀ b ∈ bs, b ≠ [])
    (hadm : ∀ b ∈ bs, ∀ q ∈ b, q.Admissible config)
    (hroom : ∀ b ∈ bs, (b.filterMap Request.key?).toFinset.card ≤ config.table.capacity.toNat)
    (hblock : ∀ b ∈ bs, b.IsChain fun q q' =>
      q.start? config.timeframe = q'.start? config.timeframe)
    (hchange : bs.IsChain fun b b' => ∃ h h',
      (b.getLast h).start? config.timeframe ≠ (b'.head h').start? config.timeframe)
    (hmoved : ∀ b ∈ bs.head?, ∀ h, p? ≠ (b.head h).start? config.timeframe) :
    Periodwise config p? bs := by
  induction bs generalizing p? with
  | nil => exact .nil
  | cons b bs ih =>
    obtain ⟨hhead, htail⟩ := List.isChain_cons.mp hchange
    cases b with
    | nil => exact absurd rfl (hne [] List.mem_cons_self)
    | cons q b =>
      obtain ⟨o, p, hq⟩ := hadm _ List.mem_cons_self q List.mem_cons_self
      have hstart : ∀ q' ∈ q :: b, q'.start? config.timeframe = some p := by
        have htrans : IsTrans Request fun q q' =>
            q.start? config.timeframe = q'.start? config.timeframe := ⟨fun _ _ _ => Eq.trans⟩
        have hpairs := List.pairwise_cons.mp (hblock _ List.mem_cons_self).pairwise
        exact List.forall_mem_cons.mpr
          ⟨hq.start?_eq, fun q' hq' => (hpairs.1 q' hq').symm.trans hq.start?_eq⟩
      have hfitting : AllFitting config p ((q :: b).filterMap Request.key?).toFinset (q :: b) := by
        intro q' hmem
        obtain ⟨o', p', hq'⟩ := hadm _ List.mem_cons_self q' hmem
        cases hq'.start?_eq.symm.trans (hstart q' hmem)
        refine ⟨o', hq', List.mem_toFinset.mpr (List.mem_filterMap.mpr ⟨q', hmem, ?_⟩)⟩
        rw [Request.key?, hq'.offer?_eq, Option.map_some]
      refine .cons ?_ (List.cons_ne_nil q b) hfitting (hroom _ List.mem_cons_self) ?_
      · exact hq.start?_eq ▸ hmoved _ rfl (List.cons_ne_nil q b)
      · refine ih (fun b hb => hne b (.tail _ hb)) (fun b hb => hadm b (.tail _ hb))
          (fun b hb => hroom b (.tail _ hb)) (fun b hb => hblock b (.tail _ hb)) htail ?_
        intro b' hb' h'
        obtain ⟨h, _, hne'⟩ := hhead b' hb'
        rwa [hstart _ (List.getLast_mem h)] at hne'

/-- Blocks that are rearranged one by one come to the same. -/
lemma Interchangeable.matching_flatten {bs bs' : List (List Request)}
    (h : Interchangeable config s t) (hpolicy : config.overflow ≠ .earlyRollup)
    (hbs : Periodwise config s.periodStart bs) (hre : List.Forall₂ Rearranged bs bs')
    (hvolume : NeverOverflows s bs.flatten) : Matching config s t bs.flatten bs'.flatten := by
  induction hre generalizing s t with
  | nil => exact .nil h
  | cons hb hre ih =>
    cases hbs with
    | cons hmoved hne hfitting hcard hbs =>
      obtain ⟨hmatching, hopen⟩ := h.matching hpolicy hcard hmoved hne hfitting hb hvolume
      exact hmatching.append (ih hmatching.after (hopen ▸ hbs) hvolume.append)

lemma Periodwise.of_admissible (hadm : ∀ q ∈ qs, q.Admissible config)
    (hroom : ∀ b ∈ blocks config.timeframe qs,
      (b.filterMap Request.key?).toFinset.card ≤ config.table.capacity.toNat) :
    Periodwise config none (blocks config.timeframe qs) := by
  have hadm' : ∀ b ∈ blocks config.timeframe qs, ∀ q ∈ b, q.Admissible config := by
    intro b hb q hq
    refine hadm q ?_
    have hmem := List.mem_flatten_of_mem hb hq
    rwa [blocks, List.flatten_splitBy] at hmem
  refine .of_blocks (fun b => List.ne_nil_of_mem_splitBy) hadm' hroom ?_ ?_ ?_
  · intro b hb
    exact (List.isChain_of_mem_splitBy hb).imp fun _ _ => beq_iff_eq.mp
  · refine (List.isChain_getLast_head_splitBy _ qs).imp ?_
    rintro b b' ⟨h, h', hne⟩
    exact ⟨h, h', beq_eq_false_iff_ne.mp hne⟩
  · intro b hb h
    obtain ⟨o, p, hq⟩ := hadm' b (List.mem_of_mem_head? hb) _ (List.head_mem h)
    rw [hq.start?_eq]
    exact Option.some_ne_none p |>.symm

/-- The end of the feed closes the open period if no candles overflow. -/
lemma exists_closed_of_finish (h : s.Sound) (hvolume : overflows (finish s) = false) :
    ∃ closed s₀, Closed s true closed s₀ := by
  have hclosing := Closing.of_takeSummary h true
  rw [finish] at hvolume
  generalize hclose : takeSummary true s = r at hclosing hvolume
  cases hclosing with
  | idle | emitted => exact ⟨_, _, .of_takeSummary h hclose⟩
  | overflowed => cases hvolume

/--
Requests of different contracts may trade places within a period: the summaries have the same
candles, each contract gets the same verdicts and the counters end the same.
-/
theorem reordered_runs_agree (h : ofConfig config = .ok s)
    (hpolicy : config.overflow ≠ .earlyRollup)
    (hadm : ∀ q ∈ qs, q.Admissible config) (hre : Reordered config.timeframe qs qs')
    (hroom : ∀ b ∈ blocks config.timeframe qs,
      (b.filterMap Request.key?).toFinset.card ≤ config.table.capacity.toNat)
    (hvolume : NeverOverflows s qs) :
    List.Forall₂ Summary.Rearranges (report s qs) (report s qs') ∧
      (∀ key, (verdicts s qs).filter (·.1.isFor key) = (verdicts s qs').filter (·.1.isFor key)) ∧
      (∀ entry ∈ verdicts s qs, entry.2 = .accepted ∨ entry.2 = .dropped ∨
        ∃ key c, entry.1.key? = some key ∧ entry.2 = .refused (.bucketFull key c)) ∧
      (stateOf (finish (stateAfter s qs))).stats = (stateOf (finish (stateAfter s qs'))).stats ∧
      NeverOverflows s qs' := by
  obtain ⟨bs, hbs, rfl⟩ := hre
  have hsound := Sound.of_ofConfig h
  have hsettings := (eq_of_ofConfig h).2
  have hnone : s.periodStart = none := by
    obtain ⟨table, -, rfl⟩ := ofConfig_eq_ok_iff.mp h
    rfl
  have hflatten : (blocks config.timeframe qs).flatten = qs := List.flatten_splitBy _ qs
  have hself : Interchangeable config s s :=
    ⟨hsound, hsound, hsettings, hsettings, rfl, rfl, .refl _⟩
  have hmatching : Matching config s s qs bs.flatten := by
    have := hself.matching_flatten hpolicy (hnone ▸ .of_admissible hadm hroom) hbs
      (by rwa [hflatten])
    rwa [hflatten] at this
  have hend : NeverOverflows (stateAfter s qs) [] := by
    rw [← List.append_nil qs] at hvolume
    exact hvolume.append
  obtain ⟨closed, s₀, hclosed⟩ := exists_closed_of_finish hmatching.after.sound_left hend
  obtain ⟨closed', t₀, hclosed', hstats, hsummaries⟩ :=
    hmatching.after.exists_closed hclosed.takeSummary_eq
  have hfinish : finish (stateAfter s qs) = .ok closed s₀ := hclosed.takeSummary_eq
  have hfinish' : finish (stateAfter s bs.flatten) = .ok closed' t₀ := hclosed'.takeSummary_eq
  refine ⟨?_, hmatching.verdicts_eq, hmatching.verdict_cases, ?_, ?_⟩
  · rw [report, report, hfinish, hfinish']
    exact List.rel_append hmatching.summaries hsummaries
  · rw [hfinish, hfinish']
    exact hstats
  · rw [← List.append_nil bs.flatten]
    refine hmatching.neverOverflows [] ?_
    rw [NeverOverflows, hfinish']
    rfl

/-- A request with the tick of a narrow rollup. -/
def sent (id : UInt32) : Request :=
  .tick ⟨id, 0, 0⟩ narrowTick

/-- Of the ticks of two contracts, the second one of the first contract finds its bucket full. -/
theorem reordered_runs_agree_interleaved :
    ∃ s, ofConfig ⟨⟨2, 1, .flat, 0⟩, .minute1, .dropTick⟩ = .ok s ∧
      (verdicts s [sent 1, sent 2, sent 1]).map Prod.snd = [.accepted, .accepted, .dropped] ∧
      List.Forall₂ Summary.Rearranges
        (report s [sent 1, sent 2, sent 1]) (report s [sent 2, sent 1, sent 1]) := by
  have hfresh : ∃ s, ofConfig ⟨⟨2, 1, .flat, 0⟩, .minute1, .dropTick⟩ = .ok s := ⟨_, rfl⟩
  obtain ⟨s, hs⟩ := hfresh
  refine ⟨s, hs, ?_, (reordered_runs_agree hs (by decide) ?_ ?_ ?_ ?_).1⟩
  · cases hs
    rfl
  · have hstart :
        Timeframe.minute1.periodStart? narrowTick.timestamp = some narrowTick.timestamp := by
      decide +kernel
    have hadm (id : UInt32) (hid : (⟨id, 0, 0⟩ : ContractKey) ≠ .null) :
        (sent id).Admissible ⟨⟨2, 1, .flat, 0⟩, .minute1, .dropTick⟩ :=
      ⟨_, narrowTick.timestamp, rfl, hid, hstart, rfl⟩
    simp only [List.forall_mem_cons, List.not_mem_nil, false_imp_iff, implies_true, and_true]
    exact ⟨hadm 1 (by decide), hadm 2 (by decide), hadm 1 (by decide)⟩
  · refine ⟨[_], .cons ⟨.swap _ _ _, fun key => ?_⟩ .nil, rfl⟩
    have hdistinct : (sent 1).isFor key → ¬ (sent 2).isFor key := by
      rw [Request.isFor, Request.isFor, decide_eq_true_iff, decide_eq_true_iff]
      exact fun h h' => absurd (h.trans h'.symm) (by decide)
    grind
  · intro b hb
    cases List.mem_singleton.mp (show b ∈ [_] from hb)
    decide
  · cases hs
    exact ⟨rfl, rfl, rfl, rfl⟩

end Rollup

end Candlestick
