import Candlestick.Proofs.Rollup.Progress
import Candlestick.Proofs.Timeframe.Order

/-!
# The period protocol

If the moments of requests never go back, neither do the periods of the summaries. A complete
summary is the last one of its period, and one that was emitted to make room never is
(`Rollup.Orderly`). So a period whose ticks were stored ends with a complete summary, or with one
that was asked for (`Rollup.emissions_orderly`).
-/

namespace Candlestick

namespace Rollup

variable {s s' : Rollup} {q : Request} {qs : List Request} {es : List Emission} {e e' : Emission}
variable {p : Timestamp} {rest : Option Summary}

/-- The start of the period of a summary. -/
def Emission.start (e : Emission) : Timestamp :=
  e.summary.periodStart

/-- The summaries of a run keep to the periods. -/
structure Orderly (es : List Emission) : Prop where
  sorted : es.Pairwise fun e e' => e.start ≤ e'.start
  /-- No summary of a period follows one that is complete. -/
  final : es.Pairwise fun e e' => e.summary.complete → e'.start ≠ e.start
  /-- Another summary of the period follows one that was emitted to make room. -/
  followed : ∀ {e es'}, e :: es' <:+ es → e.occasion = .room → ∃ e' ∈ es', e'.start = e.start
  /-- Only summaries emitted to make room or at request are not complete. -/
  complete_or : ∀ e ∈ es, e.summary.complete ∨ e.occasion = .room ∨ e.occasion = .request

namespace Orderly

lemma nil : Orderly [] where
  sorted := .nil
  final := .nil
  followed h := by simp at h
  complete_or e he := by cases he

lemma cons (h : Orderly es) (hsorted : ∀ e' ∈ es, e.start ≤ e'.start)
    (hfinal : e.summary.complete → ∀ e' ∈ es, e'.start ≠ e.start)
    (hfollowed : e.occasion = .room → ∃ e' ∈ es, e'.start = e.start)
    (hcomplete : e.summary.complete ∨ e.occasion = .room ∨ e.occasion = .request) :
    Orderly (e :: es) where
  sorted := .cons hsorted h.sorted
  final := .cons (fun e' he' hcomplete => hfinal hcomplete e' he') h.final
  followed {e₀ es₀} hsuffix hroom := by
    rcases List.suffix_cons_iff.mp hsuffix with heq | hsuffix
    · cases heq
      exact hfollowed hroom
    · exact h.followed hsuffix hroom
  complete_or := List.forall_mem_cons.mpr ⟨hcomplete, h.complete_or⟩

end Orderly

/-! ### Requests in the order of their moments -/

/-- The moments of requests never go back. -/
def Request.Ordered (qs : List Request) : Prop :=
  (qs.filterMap Request.timestamp?).Pairwise (· ≤ ·)

/-- No request is for a period before the open one. -/
def Ahead (s : Rollup) (qs : List Request) : Prop :=
  ∀ p, s.periodStart = some p → ∀ q ∈ qs, ∀ start, q.start? s.timeframe = some start → p ≤ start

lemma Request.Ordered.tail (h : Request.Ordered (q :: qs)) : Request.Ordered qs := by
  rw [Request.Ordered, List.filterMap_cons] at h
  cases hq : q.timestamp? with
  | none => rwa [hq] at h
  | some t =>
    rw [hq] at h
    exact (List.pairwise_cons.mp h).2

/-- Later requests are not for earlier periods. -/
lemma Request.Ordered.start_le {timeframe : Timeframe} (h : Request.Ordered (q :: qs))
    {q' : Request} (hq' : q' ∈ qs) {p start : Timestamp} (hp : q.start? timeframe = some p)
    (hstart : q'.start? timeframe = some start) : p ≤ start := by
  obtain ⟨t, ht, hp⟩ := Option.bind_eq_some_iff.mp hp
  obtain ⟨u, hu, hstart⟩ := Option.bind_eq_some_iff.mp hstart
  rw [Request.Ordered, List.filterMap_cons, ht] at h
  have hle : t ≤ u := (List.pairwise_cons.mp h).1 u (List.mem_filterMap.mpr ⟨q', hq', hu⟩)
  exact Timeframe.periodStart?_mono hle hp hstart

/-- A call leaves the period open, or opens the one it is for. -/
lemma periodStart_call (h : s.Sound) (q : Request) :
    (stateOf (q.call s)).periodStart = s.periodStart ∨
      ∃ start, q.start? s.timeframe = some start ∧
        (stateOf (q.call s)).periodStart = some start := by
  have hprogress := Progress.of_call h q
  generalize q.emission? s = e, q.taken s = legs, stateOf (q.call s) = s' at hprogress
  cases hprogress with
  | kept hperiod => exact .inl hperiod
  | stored _ _ hopen hopen' | split _ _ hopen hopen' | requested hopen hopen' =>
    exact .inl (hopen'.trans hopen.symm)
  | opened hstart _ _ hopen' | turned hstart _ _ _ hopen' => exact .inr ⟨_, hstart, hopen'⟩

lemma Ahead.call (h : s.Ahead (q :: qs)) (hs : s.Sound) (hordered : Request.Ordered (q :: qs)) :
    (stateOf (q.call s)).Ahead qs := by
  intro p hp q' hq' start hstart
  rw [timeframe_call hs] at hstart
  rcases periodStart_call hs q with hsame | ⟨start₀, hstart₀, hopen⟩
  · exact h p (hsame ▸ hp) q' (List.mem_cons_of_mem q hq') start hstart
  · cases hopen.symm.trans hp
    exact hordered.start_le hq' hstart₀ hstart

/-- Before the first period, every period is still to come. -/
lemma Ahead.of_ofConfig {config : RollupConfig} (h : ofConfig config = .ok s) (qs : List Request) :
    s.Ahead qs := by
  intro p hp
  obtain ⟨table, -, rfl⟩ := ofConfig_eq_ok_iff.mp h
  cases hp

/-! ### What is still to come -/

lemma finish_of_active (h : s.Sound) (hopen : s.periodStart = some p) (hsome : s.table.active ≠ [])
    (hfinish : finish s = .ok rest s') :
    ∃ summary, rest = some summary ∧ summary.periodStart = p := by
  have hclosing := Closing.of_takeSummary h true
  rw [show takeSummary true s = _ from hfinish] at hclosing
  cases hclosing with
  | idle hnil => exact absurd hnil hsome
  | emitted hperiod =>
    cases hopen.symm.trans hperiod
    exact ⟨_, rfl, rfl⟩

lemma eq_of_mem_emissions_nil (h : s.Sound) (he : e ∈ emissions s []) :
    s.periodStart = some e.start ∧ e.summary.complete ∧ e.occasion = .finish := by
  have hclosing := Closing.of_takeSummary h true
  rw [emissions, finish] at he
  generalize takeSummary true s = r at hclosing he
  cases hclosing with
  | idle | overflowed => cases he
  | emitted hperiod =>
    cases List.mem_singleton.mp he
    exact ⟨hperiod, rfl, rfl⟩

/-- No summary to come is of a period before the open one. -/
lemma le_start_of_mem_emissions (h : s.Sound) (hordered : Request.Ordered qs)
    (hahead : s.Ahead qs) (hopen : s.periodStart = some p) (he : e ∈ emissions s qs) :
    p ≤ e.start := by
  induction qs generalizing s p with
  | nil =>
    obtain ⟨hperiod, -⟩ := eq_of_mem_emissions_nil h he
    cases hopen.symm.trans hperiod
    exact le_rfl
  | cons q qs ih =>
    have hlater {p' : Timestamp} (hopen' : (stateOf (q.call s)).periodStart = some p')
        (he : e ∈ emissions (stateOf (q.call s)) qs) : p' ≤ e.start :=
      ih (sound_call h q) hordered.tail (hahead.call h hordered) hopen' he
    have hprogress := Progress.of_call h q
    rw [emissions] at he
    generalize q.emission? s = e₀, q.taken s = legs, stateOf (q.call s) = s' at hprogress he hlater
    have hle {start : Timestamp} (hstart : q.start? s.timeframe = some start) : p ≤ start :=
      hahead p hopen q List.mem_cons_self start hstart
    rcases List.mem_append.mp he with hhead | htail
    · rw [Option.mem_toList] at hhead
      cases hprogress with
      | kept | stored | opened => cases hhead
      | split _ _ hopen' | turned _ _ hopen' | requested hopen' =>
        cases hhead
        cases hopen.symm.trans hopen'
        exact le_rfl
    · cases hprogress with
      | kept hperiod => exact hlater (hperiod.trans hopen) htail
      | stored hstart _ _ hopen' | split hstart _ _ hopen' | opened hstart _ _ hopen'
      | turned hstart _ _ _ hopen' => exact (hle hstart).trans (hlater hopen' htail)
      | requested hopen₀ hopen' => exact hlater (hopen'.trans (hopen₀.symm.trans hopen)) htail

/-- A period that has ticks gets a summary, unless the last one overflows. -/
lemma exists_mem_emissions_of_active (h : s.Sound)
    (hfinish : finish (stateAfter s qs) = .ok rest s') (hopen : s.periodStart = some p)
    (hsome : s.table.active ≠ []) : ∃ e ∈ emissions s qs, e.start = p := by
  induction qs generalizing s with
  | nil =>
    obtain ⟨summary, rfl, hstart⟩ := finish_of_active h hopen hsome hfinish
    have hmem : ⟨summary, .finish⟩ ∈ emissions s [] := by
      rw [emissions, show finish s = _ from hfinish]
      exact List.mem_singleton.mpr rfl
    exact ⟨_, hmem, hstart⟩
  | cons q qs ih =>
    have hlater := ih (sound_call h q) hfinish
    have hprogress := Progress.of_call h q
    rw [emissions]
    generalize q.emission? s = e₀, q.taken s = legs, stateOf (q.call s) = s' at hprogress hlater
    have hhead {e : Emission} (hstart : s.periodStart = some e.start) :
        ∃ e' ∈ (some e).toList ++ emissions s' qs, e'.start = p :=
      ⟨e, List.mem_cons_self, Option.some.inj (hstart.symm.trans hopen)⟩
    cases hprogress with
    | kept hperiod htable => exact hlater (hperiod.trans hopen) (htable ▸ hsome)
    | stored _ _ hopen₀ hopen' hsome' =>
      exact hlater (hopen'.trans (hopen₀.symm.trans hopen)) hsome'
    | opened _ _ hnil => exact absurd hnil hsome
    | split _ _ hopen₀ | turned _ _ hopen₀ | requested hopen₀ => exact hhead hopen₀

/-- A period whose ticks are accepted gets a summary, unless the last one overflows. -/
lemma exists_mem_emissions_of_accepted (h : s.Sound)
    (hfinish : finish (stateAfter s qs) = .ok rest s') {entry : ContractKey × TickRecord}
    (hentry : entry ∈ accepted s qs) (hp : s.timeframe.periodStart? entry.2.timestamp = some p) :
    ∃ e ∈ emissions s qs, e.start = p := by
  induction qs generalizing s with
  | nil => cases hentry
  | cons q qs ih =>
    have hs' := sound_call h q
    have hprogress := Progress.of_call h q
    rw [accepted] at hentry
    rw [emissions]
    have hlater (hsome : ∃ e ∈ emissions (stateOf (q.call s)) qs, e.start = p) :
        ∃ e ∈ (q.emission? s).toList ++ emissions (stateOf (q.call s)) qs, e.start = p := by
      obtain ⟨e, he, hstart⟩ := hsome
      exact ⟨e, List.mem_append.mpr (.inr he), hstart⟩
    apply hlater
    rcases List.mem_append.mp hentry with hentry | hentry
    · change entry ∈ q.taken s at hentry
      have hpending := exists_mem_emissions_of_active hs' hfinish (p := p)
      generalize q.emission? s = e₀, q.taken s = legs, stateOf (q.call s) = s'
        at hprogress hentry hpending
      cases hprogress with
      | kept | requested => cases hentry
      | stored _ hlegs _ hopen' hsome' | split _ hlegs _ hopen' hsome'
      | opened _ hlegs _ hopen' hsome' | turned _ hlegs _ _ hopen' hsome' =>
        cases hp.symm.trans (hlegs entry hentry)
        exact hpending hopen' hsome'
    · exact ih hs' hfinish hentry (by rwa [timeframe_call h])

/-! ### The protocol -/

lemma Orderly.emissions_nil (h : s.Sound) : Orderly (emissions s []) := by
  have hmem (e : Emission) (he : e ∈ emissions s []) := eq_of_mem_emissions_nil h he
  rw [emissions] at hmem ⊢
  generalize summaryOf (finish s) = summary at hmem ⊢
  cases summary with
  | none => exact .nil
  | some summary =>
    obtain ⟨-, hcomplete, hoccasion⟩ := hmem ⟨summary, .finish⟩ (List.mem_singleton.mpr rfl)
    refine .cons .nil ?_ ?_ ?_ (.inl hcomplete)
    · intro e he
      cases he
    · intro _ e he
      cases he
    · intro hroom
      cases hroom

/-- The summaries to come keep to the periods, unless the last one overflows. -/
lemma Orderly.of_ahead (h : s.Sound) (hordered : Request.Ordered qs) (hahead : s.Ahead qs)
    (hfinish : finish (stateAfter s qs) = .ok rest s') : Orderly (emissions s qs) := by
  induction qs generalizing s with
  | nil => exact .emissions_nil h
  | cons q qs ih =>
    have hs' := sound_call h q
    have hahead' := hahead.call h hordered
    have hlater : Orderly (emissions (stateOf (q.call s)) qs) :=
      ih hs' hordered.tail hahead' hfinish
    have hbound {p : Timestamp} (hopen : (stateOf (q.call s)).periodStart = some p) (e : Emission)
        (he : e ∈ emissions (stateOf (q.call s)) qs) : p ≤ e.start :=
      le_start_of_mem_emissions hs' hordered.tail hahead' hopen he
    have hpending {p : Timestamp} := exists_mem_emissions_of_active hs' hfinish (p := p)
    have hprogress := Progress.of_call h q
    rw [emissions]
    generalize q.emission? s = e₀, q.taken s = legs, stateOf (q.call s) = s' at *
    cases hprogress with
    | kept | stored | opened => exact hlater
    | split _ _ _ hopen' hsome' =>
      refine hlater.cons (hbound hopen') ?_ (fun _ => hpending hopen' hsome') (.inr (.inl rfl))
      intro hcomplete
      cases hcomplete
    | @turned _ start old _ hstart _ hold hne hopen' =>
      have hlt : old < start :=
        lt_of_le_of_ne (hahead old hold q List.mem_cons_self start hstart) hne
      have hlate (e : Emission) (he : e ∈ emissions s' qs) : old < e.start :=
        hlt.trans_le (hbound hopen' e he)
      refine hlater.cons (fun e he => (hlate e he).le) (fun _ e he => (hlate e he).ne') ?_
        (.inl rfl)
      intro hroom
      cases hroom
    | requested _ hopen' =>
      refine hlater.cons (hbound hopen') ?_ ?_ (.inr (.inr rfl))
      · intro hcomplete
        cases hcomplete
      · intro hroom
        cases hroom

/-- Of the emissions of a period, one is the last. -/
lemma exists_last (h : ∃ e ∈ es, e.start = p) :
    ∃ before e after, es = before ++ e :: after ∧ e.start = p ∧ ∀ e' ∈ after, e'.start ≠ p := by
  induction es with
  | nil =>
    obtain ⟨e, he, -⟩ := h
    cases he
  | cons e₀ es ih =>
    by_cases hmore : ∃ e ∈ es, e.start = p
    · obtain ⟨before, e, after, rfl, hstart, hlast⟩ := ih hmore
      exact ⟨e₀ :: before, e, after, rfl, hstart, hlast⟩
    · obtain ⟨e, he, hstart⟩ := h
      rcases List.mem_cons.mp he with rfl | he
      · exact ⟨[], e, es, rfl, hstart, fun e' he' hstart' => hmore ⟨e', he', hstart'⟩⟩
      · exact absurd ⟨e, he, hstart⟩ hmore

/--
Over a run of requests from usable settings whose moments never go back and whose end does not
overflow, the summaries keep to the periods. Each period with accepted ticks has a last summary,
which is complete or was asked for.
-/
theorem emissions_orderly {config : RollupConfig} (h : ofConfig config = .ok s)
    (hordered : Request.Ordered qs) (hfinish : finish (stateAfter s qs) = .ok rest s') :
    (emissions s qs).map Emission.summary = report s qs ∧
      Orderly (emissions s qs) ∧
      ∀ entry ∈ accepted s qs, ∀ p, config.timeframe.periodStart? entry.2.timestamp = some p →
        ∃ before e after, emissions s qs = before ++ e :: after ∧ e.start = p ∧
          (∀ e' ∈ after, e'.start ≠ p) ∧ (e.summary.complete ∨ e.occasion = .request) := by
  have hs := Sound.of_ofConfig h
  have horderly := Orderly.of_ahead hs hordered (.of_ofConfig h qs) hfinish
  obtain ⟨-, rfl⟩ := eq_of_ofConfig h
  refine ⟨map_summary_emissions s qs, horderly, ?_⟩
  intro entry hentry p hp
  obtain ⟨before, e, after, heq, hstart, hlast⟩ :=
    exists_last (exists_mem_emissions_of_accepted hs hfinish hentry hp)
  refine ⟨before, e, after, heq, hstart, hlast, ?_⟩
  rcases horderly.complete_or e (heq ▸ List.mem_append.mpr (.inr List.mem_cons_self)) with
    hcomplete | hroom | hrequest
  · exact .inl hcomplete
  · -- A summary emitted to make room is not the last one of its period.
    obtain ⟨e', he', hstart'⟩ := horderly.followed ⟨before, heq.symm⟩ hroom
    exact absurd (hstart'.trans hstart) (hlast e' he')
  · exact .inr hrequest

/-- Ticks of two contracts that want the room of a narrow rollup. -/
def narrowRequests : List Request :=
  [.tick ⟨1, 0, 0⟩ narrowTick, .tick ⟨2, 0, 0⟩ narrowTick]

lemma ordered_narrowRequests : Request.Ordered narrowRequests := by
  simp [narrowRequests, Request.Ordered, Request.timestamp?]

/-- The summary that a second contract forces is followed by a complete one of the same minute. -/
theorem emissions_orderly_narrow :
    ofConfig ⟨⟨1, 1, .flat, 0⟩, .minute1, .earlyRollup⟩ = .ok (narrow .earlyRollup) ∧
      Request.Ordered narrowRequests ∧
      ∃ rest s', finish (stateAfter (narrow .earlyRollup) narrowRequests) = .ok rest s' ∧
        ∃ before e after, emissions (narrow .earlyRollup) narrowRequests = before ++ e :: after ∧
          e.start = narrowTick.timestamp ∧ (e.summary.complete ∨ e.occasion = .request) := by
  have hfresh := ofConfig_narrow .earlyRollup
  have hfinish : ∃ rest s', finish (stateAfter (narrow .earlyRollup) narrowRequests) =
      .ok rest s' := ⟨_, _, rfl⟩
  obtain ⟨rest, s', hfinish⟩ := hfinish
  obtain ⟨-, -, hlast⟩ := emissions_orderly hfresh ordered_narrowRequests hfinish
  have haccepted : (⟨1, 0, 0⟩, narrowTick) ∈ accepted (narrow .earlyRollup) narrowRequests :=
    List.mem_cons_self
  obtain ⟨before, e, after, heq, hstart, -, hcomplete⟩ := hlast _ haccepted narrowTick.timestamp rfl
  exact ⟨hfresh, ordered_narrowRequests, rest, s', hfinish, before, e, after, heq, hstart,
    hcomplete⟩

end Rollup

end Candlestick
