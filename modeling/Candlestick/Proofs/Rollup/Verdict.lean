import Candlestick.Proofs.Rollup.Journal

/-!
# Verdicts

A request is accepted, dropped or refused. While a period is open and no period is split, the
verdict rests with the bucket of the contract: a contract whose requests are taken out of a run and
heard on their own gets the same verdicts and the same bucket (`Rollup.Hearing.verdicts_eq`,
`Rollup.Hearing.lookup_eq`).
-/

namespace Candlestick

namespace Roster

variable {m m' : Roster} {key : ContractKey}

lemma lookup_set_of_ne {k : ContractKey} (h : k ≠ key) (m : Roster) (b : Bucket) :
    (m.set key b).lookup k = m.lookup k := by
  induction m with
  | nil => rfl
  | cons entry m ih =>
    rw [set] at ih ⊢
    rw [List.map_cons, List.lookup_cons, List.lookup_cons, ih]
    split_ifs with hkey
    · rw [hkey, beq_eq_false_iff_ne.mpr h]
    · rfl

/-- An offer leaves the buckets of other contracts alone. -/
lemma lookup_take_of_ne {k : ContractKey} (h : k ≠ key) (new : Bucket) (m : Roster)
    (rs : List TickRecord) : (m.take new key rs).lookup k = m.lookup k := by
  rw [take]
  cases m.lookup key with
  | some b => exact lookup_set_of_ne h m _
  | none => simp [List.lookup_append, List.lookup_cons, beq_eq_false_iff_ne.mpr h]

lemma mem_keys_take {new : Bucket} {rs : List TickRecord} {k : ContractKey}
    (h : k ∈ (m.take new key rs).map Prod.fst) : k = key ∨ k ∈ m.map Prod.fst := by
  by_contra hk
  obtain ⟨hne, hk⟩ := not_or.mp hk
  have hnone : m.lookup k = none := by
    rw [List.lookup_eq_none_iff]
    intro entry hentry
    exact bne_iff_ne.mpr fun heq => hk (List.mem_map.mpr ⟨entry, hentry, heq.symm⟩)
  rw [← lookup_take_of_ne hne new m rs, List.lookup_eq_none_iff] at hnone
  obtain ⟨entry, hentry, rfl⟩ := List.mem_map.mp h
  exact bne_iff_ne.mp (hnone entry hentry) rfl

/-- Rosters that list no contract twice and have the same buckets are rearrangements. -/
lemma perm_of_lookup_eq (hm : (m.map Prod.fst).Nodup) (hm' : (m'.map Prod.fst).Nodup)
    (h : ∀ key, m.lookup key = m'.lookup key) : m.Perm m' := by
  refine (List.perm_ext_iff_of_nodup hm.of_map hm'.of_map).mpr fun entry => ?_
  rw [← lookup_eq_some_iff_mem hm, ← lookup_eq_some_iff_mem hm', h]

end Roster

namespace Offer

/-- What is left of a bucket once the offer has been added to it, or refused by it. -/
def settle (o : Offer) (b : Bucket) : Bucket :=
  match o.add b with
  | .ok () b => b
  | .error _ b => b

end Offer

namespace Rollup

variable {s : Rollup} {o : Offer} {q : Request} {qs : List Request} {p : Timestamp}
variable {config : RollupConfig} {key : ContractKey}

/-! ### Verdicts of a run -/

/-- What becomes of a request. -/
inductive Verdict
  | accepted
  | dropped
  | refused (e : Error)
deriving DecidableEq

/-- The verdict of a call that leads `s` to an outcome. -/
def verdictOf (s : Rollup) : Outcome → Verdict
  | .ok _ s' => if s.stats.dropped < s'.stats.dropped then .dropped else .accepted
  | .error e _ => .refused e

/-- The requests of a run, each with its verdict. -/
def verdicts (s : Rollup) : List Request → List (Request × Verdict)
  | [] => []
  | q :: qs => (q, verdictOf s (q.call s)) :: verdicts (stateOf (q.call s)) qs

/-- The contract that a request has ticks for. -/
def Request.key? (q : Request) : Option ContractKey :=
  q.offer?.map (·.key)

/-- Whether a request has ticks for a contract. -/
def Request.isFor (key : ContractKey) (q : Request) : Bool :=
  q.key? = some key

/-- Counts the ticks of a request by its verdict. -/
def Stats.tally (c : Stats) (entry : Request × Verdict) : Stats :=
  match entry.2 with
  | .accepted => { c with ticks := c.ticks + entry.1.legs.length }
  | .dropped => { c with dropped := c.dropped + entry.1.legs.length }
  | .refused _ => c

instance : RightCommutative Stats.tally where
  right_comm c x y := by
    obtain ⟨q, v⟩ := x
    obtain ⟨q', v'⟩ := y
    cases v <;> cases v' <;> simp [Stats.tally] <;> omega

lemma verdicts_append (s : Rollup) (qs qs' : List Request) :
    verdicts s (qs ++ qs') = verdicts s qs ++ verdicts (stateAfter s qs) qs' := by
  induction qs generalizing s with
  | nil => rfl
  | cons q qs ih => exact congrArg (_ :: ·) (ih _)

lemma stateAfter_append (s : Rollup) (qs qs' : List Request) :
    stateAfter s (qs ++ qs') = stateAfter (stateAfter s qs) qs' :=
  List.foldl_append

lemma summaries_append (s : Rollup) (qs qs' : List Request) :
    summaries s (qs ++ qs') = summaries s qs ++ summaries (stateAfter s qs) qs' := by
  induction qs generalizing s with
  | nil => rfl
  | cons q qs ih =>
    rw [List.cons_append, summaries, ih, summaries, List.append_assoc]
    rfl

lemma map_fst_verdicts (s : Rollup) (qs : List Request) : (verdicts s qs).map Prod.fst = qs := by
  induction qs generalizing s with
  | nil => rfl
  | cons q qs ih => exact congrArg (q :: ·) (ih _)

/-! ### Requests heard by one contract -/

/-- The verdict of a bucket on an offer, under a policy that splits no period. -/
def verdictBy (policy : OverflowPolicy) (o : Offer) (b : Bucket) : Verdict :=
  match o.add b with
  | .ok () _ => .accepted
  | .error e _ => if policy = .dropTick then .dropped else .refused e

lemma verdictBy_cases (policy : OverflowPolicy) (o : Offer) (b : Bucket) :
    verdictBy policy o b = .accepted ∨ verdictBy policy o b = .dropped ∨
      ∃ c, verdictBy policy o b = .refused (.bucketFull b.key c) := by
  rw [verdictBy]
  rcases o.appends b with hadd | ⟨c, hadd⟩
  · exact .inl (by rw [hadd])
  · rw [hadd]
    dsimp only
    split_ifs
    · exact .inr (.inl rfl)
    · exact .inr (.inr ⟨c, rfl⟩)

/-- The bucket of a contract once it has heard an offer. -/
def heard (new : Bucket) (b? : Option Bucket) (o : Offer) : Bucket :=
  o.settle (b?.getD (new.claim o.key))

/-- The bucket of a contract that hears requests, and nothing else. -/
def bucketAfter (new : Bucket) (b? : Option Bucket) (qs : List Request) : Option Bucket :=
  (qs.filterMap Request.offer?).foldl (fun b? o => some (heard new b? o)) b?

/-- The verdicts of a contract that hears requests, and nothing else. -/
def hearings (policy : OverflowPolicy) (new : Bucket) (b? : Option Bucket) :
    List Request → List (Request × Verdict)
  | [] => []
  | q :: qs =>
    match q.offer? with
    | none => hearings policy new b? qs
    | some o =>
      (q, verdictBy policy o (b?.getD (new.claim o.key))) ::
        hearings policy new (some (heard new b? o)) qs

/-! ### Requests of the open period -/

/-- A new bucket of a table with the given settings. -/
def freshBucket (config : RollupConfig) : Bucket :=
  .empty config.table.layout config.table.bucketSize.toNat

lemma newBucket_eq_of_settings (h : s.settings = config) :
    s.table.newBucket = freshBucket config := by
  rw [← h]
  rfl

/-- A request has ticks of a period for a contract, and they fit a bucket without ticks. -/
structure Request.Fitting (config : RollupConfig) (p : Timestamp) (q : Request) (o : Offer) :
    Prop where
  offer?_eq : q.offer? = some o
  key_ne_null : o.key ≠ .null
  start_eq : config.timeframe.periodStart? o.timestamp = some p
  fits : o.Fits (freshBucket config)

/-- A period is open in which each of some contracts has a slot or can get one. -/
structure Hearing (config : RollupConfig) (p : Timestamp) (keys : Finset ContractKey)
    (s : Rollup) : Prop where
  sound : s.Sound
  settings_eq : s.settings = config
  policy_ne : config.overflow ≠ .earlyRollup
  periodStart_eq : s.periodStart = some p
  keys_subset : ∀ key ∈ s.table.active.map Prod.fst, key ∈ keys
  card_le : keys.card ≤ config.table.capacity.toNat

namespace Hearing

variable {keys : Finset ContractKey}

lemma capacity_eq (h : Hearing config p keys s) :
    s.table.capacity = config.table.capacity.toNat := by
  rw [h.sound.table.capacity_eq, ← h.settings_eq]
  rfl

/-- A contract without a slot finds one. -/
lemma length_active_lt (h : Hearing config p keys s) (hkey : key ∈ keys)
    (hnone : s.table.active.lookup key = none) : s.table.active.length < s.table.capacity := by
  have hmem : key ∉ (s.table.active.map Prod.fst).toFinset := by
    rw [List.mem_toFinset]
    intro hmem
    obtain ⟨entry, hentry, rfl⟩ := List.mem_map.mp hmem
    exact Roster.ne_of_lookup_eq_none hnone entry hentry rfl
  have hsubset : (s.table.active.map Prod.fst).toFinset ⊆ keys := fun k hk =>
    h.keys_subset k (List.mem_toFinset.mp hk)
  have hcard : (s.table.active.map Prod.fst).toFinset.card < keys.card :=
    Finset.card_lt_card ⟨hsubset, fun hsup => hmem (hsup hkey)⟩
  rw [List.toFinset_card_of_nodup h.sound.table.nodup_keys_active, List.length_map] at hcard
  rw [h.capacity_eq]
  exact hcard.trans_le h.card_le

end Hearing

/-- What a request of the open period comes to: the bucket of its contract decides. -/
structure Heard (config : RollupConfig) (p : Timestamp) (keys : Finset ContractKey) (s : Rollup)
    (q : Request) (o : Offer) (r : Outcome) : Prop where
  hearing : Hearing config p keys (stateOf r)
  summary_eq : summaryOf r = none
  verdict_eq : verdictOf s r =
    verdictBy config.overflow o
      ((s.table.active.lookup o.key).getD ((freshBucket config).claim o.key))
  lookup_self : (stateOf r).table.active.lookup o.key =
    some (heard (freshBucket config) (s.table.active.lookup o.key) o)
  lookup_other : ∀ k, k ≠ o.key → (stateOf r).table.active.lookup k = s.table.active.lookup k
  stats_eq : (stateOf r).stats = Stats.tally s.stats (q, verdictOf s r)

lemma Heard.of_taken {keys : Finset ContractKey} {table : ContractTable}
    (h : Hearing config p keys s) (hq : q.Fitting config p o) (hkey : o.key ∈ keys)
    (hadd : o.add ((s.table.active.lookup o.key).getD ((freshBucket config).claim o.key)) =
      .ok ()
        (((s.table.active.lookup o.key).getD ((freshBucket config).claim o.key)).pushAll o.ticks))
    (htaken : s.table.Taken o table) :
    Heard config p keys s q o
      (.ok none { s with table, stats.ticks := s.stats.ticks + o.ticks.length }) where
  hearing :=
    { sound := ⟨htaken.wellFormed, fun hnone => by cases h.periodStart_eq.symm.trans hnone⟩
      settings_eq := (settings_congr htaken.config_eq _ _).trans h.settings_eq
      policy_ne := h.policy_ne
      periodStart_eq := h.periodStart_eq
      keys_subset := by
        intro k hk
        change k ∈ table.active.map Prod.fst at hk
        rw [htaken.active_eq] at hk
        rcases Roster.mem_keys_take hk with rfl | hk
        · exact hkey
        · exact h.keys_subset k hk
      card_le := h.card_le }
  summary_eq := rfl
  verdict_eq := by
    rw [verdictBy, hadd]
    exact if_neg (Nat.lt_irrefl _)
  lookup_self := by
    change table.active.lookup o.key = _
    rw [htaken.active_eq, Roster.lookup_take, newBucket_eq_of_settings h.settings_eq, heard,
      Offer.settle, hadd]
  lookup_other k hk := by
    change table.active.lookup k = _
    rw [htaken.active_eq, Roster.lookup_take_of_ne hk]
  stats_eq := by
    rw [Stats.tally, verdictOf, if_neg (Nat.lt_irrefl _), Request.legs_eq_of_offer? hq.offer?_eq]
    simp [stateOf, Feed.ofTicks]

/-- A bucket that lacks room keeps its ticks, and the rollup its contracts. -/
lemma Heard.of_refused {keys : Finset ContractKey} {b : Bucket} {e : Error} {r : Outcome}
    (hearing : Hearing config p keys (stateOf r))
    (hlookup : s.table.active.lookup o.key = some b) (hadd : o.add b = .error e b)
    (hsummary : summaryOf r = none)
    (hverdict : verdictOf s r = if config.overflow = .dropTick then .dropped else .refused e)
    (hactive : (stateOf r).table.active = s.table.active)
    (hstats : (stateOf r).stats = Stats.tally s.stats (q, verdictOf s r)) :
    Heard config p keys s q o r where
  hearing := hearing
  summary_eq := hsummary
  verdict_eq := by rw [hverdict, verdictBy, hlookup, Option.getD_some, hadd]
  lookup_self := by
    rw [hactive, hlookup, heard, Offer.settle, Option.getD_some, hadd]
  lookup_other k _ := by rw [hactive]
  stats_eq := hstats

/-- A request that fits a bucket without ticks passes its checks. -/
lemma Request.Fitting.call_eq (hq : q.Fitting config p o) (h : s.settings = config) :
    q.call s = offer o s := by
  have hmisfit : q.misfit? s.table.newBucket = none := by
    rw [newBucket_eq_of_settings h]
    have hfit := hq.fits
    cases Request.Offers.of_offer? hq.offer?_eq with
    | tick | raw => rfl
    | sandwich key sandwich =>
      change Bucket.addSandwich sandwich ((freshBucket config).claim key) = _ at hfit
      rw [Bucket.addSandwich_eq] at hfit
      rw [Request.misfit?]
      cases hlack : ((freshBucket config).claim key).lackFor? sandwich with
      | none => rfl
      | some e =>
        rw [hlack] at hfit
        cases hfit
  rw [Request.call_of_offer? hq.offer?_eq, if_neg hq.key_ne_null, hmisfit]

/-- The bucket of its contract decides on a request of the open period. -/
lemma Heard.of_call {keys : Finset ContractKey} (h : Hearing config p keys s)
    (hq : q.Fitting config p o) (hkey : o.key ∈ keys) : Heard config p keys s q o (q.call s) := by
  have hstart : s.timeframe.periodStart? o.timestamp = some p := by
    rw [← hq.start_eq, ← h.settings_eq]
    rfl
  have hfit : o.Fits s.table.newBucket := newBucket_eq_of_settings h.settings_eq ▸ hq.fits
  have hpolicy : config.overflow = s.overflow := by rw [← h.settings_eq]; rfl
  have hlegs : q.legs.length = o.ticks.length := by
    rw [Request.legs_eq_of_offer? hq.offer?_eq, Feed.ofTicks, List.length_map]
  have hinserted := ContractTable.Inserted.of_insert h.sound.table hq.key_ne_null hfit
  rw [hq.call_eq h.settings_eq, offer_of_rollTo_ok (rollTo_of_eq hstart h.periodStart_eq)]
  generalize hinsert : ContractTable.insert o.key o.add s.table = r at hinserted
  cases hinserted with
  | taken hroom htaken =>
    rw [store_of_ok hinsert]
    refine .of_taken h hq hkey ?_ htaken
    cases hlookup : s.table.active.lookup o.key with
    | none => exact hq.fits
    | some b =>
      rcases o.appends b with hadd | ⟨c, hadd⟩
      · exact hadd
      · simp only [Roster.refusal?, hlookup, hadd] at hroom
        cases hroom
  | @refused e hroom hcapacity hsome =>
    rw [store_of_error hinsert hcapacity]
    -- The table has room for the contract, so it is a bucket with ticks that refuses the offer.
    cases hlookup : s.table.active.lookup o.key with
    | none =>
      rw [Roster.refusal?, hlookup, if_pos (h.length_active_lt hkey hlookup)] at hroom
      cases hroom
    | some b =>
      have hadd : o.add b = .error e b := by
        rcases o.appends b with hadd | ⟨c, hadd⟩
        · simp only [Roster.refusal?, hlookup, hadd] at hroom
          cases hroom
        · simp only [Roster.refusal?, hlookup, hadd] at hroom
          rw [hadd, Option.some.inj hroom]
      cases hoverflow : s.overflow with
      | reject =>
        rw [applyPolicy_reject hoverflow]
        refine .of_refused h hlookup hadd rfl ?_ rfl rfl
        rw [hpolicy, hoverflow]
        rfl
      | dropTick =>
        rw [applyPolicy_dropTick hoverflow]
        have hdropped : s.stats.dropped < s.stats.dropped + o.ticks.length :=
          Nat.lt_add_of_pos_right (List.length_pos_iff.mpr o.ticks_ne_nil)
        refine .of_refused ?_ hlookup hadd rfl ?_ rfl ?_
        · exact ⟨⟨h.sound.table, h.sound.active_eq_nil⟩, h.settings_eq, h.policy_ne,
            h.periodStart_eq, h.keys_subset, h.card_le⟩
        · rw [hpolicy, hoverflow]
          exact if_pos hdropped
        · simp only [verdictOf, if_pos hdropped, Stats.tally, hlegs]
          rfl
      | earlyRollup => exact absurd (hpolicy.trans hoverflow) h.policy_ne

/-! ### Runs within a period -/

/-- All requests have ticks of a period, for some contracts. -/
def AllFitting (config : RollupConfig) (p : Timestamp) (keys : Finset ContractKey)
    (qs : List Request) : Prop :=
  ∀ q ∈ qs, ∃ o, q.Fitting config p o ∧ o.key ∈ keys

lemma Request.Fitting.isFor_iff (hq : q.Fitting config p o) : q.isFor key ↔ key = o.key := by
  rw [Request.isFor, Request.key?, hq.offer?_eq]
  simp [eq_comm]

lemma hearings_cons (hq : q.Fitting config p o) (policy : OverflowPolicy) (new : Bucket)
    (b? : Option Bucket) (qs : List Request) :
    hearings policy new b? (q :: qs) =
      (q, verdictBy policy o (b?.getD (new.claim o.key))) ::
        hearings policy new (some (heard new b? o)) qs := by
  rw [hearings, hq.offer?_eq]

lemma bucketAfter_cons (hq : q.Fitting config p o) (new : Bucket) (b? : Option Bucket)
    (qs : List Request) :
    bucketAfter new b? (q :: qs) = bucketAfter new (some (heard new b? o)) qs := by
  rw [bucketAfter, List.filterMap_cons, hq.offer?_eq]
  rfl

namespace Hearing

variable {keys : Finset ContractKey}

lemma stateAfter (h : Hearing config p keys s) (hqs : AllFitting config p keys qs) :
    Hearing config p keys (Rollup.stateAfter s qs) := by
  induction qs generalizing s with
  | nil => exact h
  | cons q qs ih =>
    obtain ⟨⟨o, hq, hkey⟩, hqs⟩ := List.forall_mem_cons.mp hqs
    exact ih (Heard.of_call h hq hkey).hearing hqs

/-- Nothing is emitted while the period is open. -/
lemma summaries_eq (h : Hearing config p keys s) (hqs : AllFitting config p keys qs) :
    summaries s qs = [] := by
  induction qs generalizing s with
  | nil => rfl
  | cons q qs ih =>
    obtain ⟨⟨o, hq, hkey⟩, hqs⟩ := List.forall_mem_cons.mp hqs
    have hheard := Heard.of_call h hq hkey
    rw [summaries, hheard.summary_eq, ih hheard.hearing hqs]
    rfl

/-- The counters follow from the verdicts. -/
lemma stats_eq (h : Hearing config p keys s) (hqs : AllFitting config p keys qs) :
    (Rollup.stateAfter s qs).stats = (verdicts s qs).foldl Stats.tally s.stats := by
  induction qs generalizing s with
  | nil => rfl
  | cons q qs ih =>
    obtain ⟨⟨o, hq, hkey⟩, hqs⟩ := List.forall_mem_cons.mp hqs
    have hheard := Heard.of_call h hq hkey
    rw [verdicts, List.foldl_cons, ← hheard.stats_eq]
    exact ih hheard.hearing hqs

/-- A contract gets the verdicts that it gets if its requests are heard on their own. -/
lemma verdicts_eq (h : Hearing config p keys s) (hqs : AllFitting config p keys qs)
    (key : ContractKey) :
    (verdicts s qs).filter (·.1.isFor key) =
      hearings config.overflow (freshBucket config) (s.table.active.lookup key)
        (qs.filter (·.isFor key)) := by
  induction qs generalizing s with
  | nil => rfl
  | cons q qs ih =>
    obtain ⟨⟨o, hq, hkey⟩, hqs⟩ := List.forall_mem_cons.mp hqs
    have hheard := Heard.of_call h hq hkey
    have hrest := ih hheard.hearing hqs
    by_cases hown : key = o.key
    · have hfor := hq.isFor_iff.mpr hown
      rw [verdicts, List.filter_cons, if_pos hfor, List.filter_cons, if_pos hfor,
        hearings_cons hq, hrest, hown, hheard.lookup_self, hheard.verdict_eq]
    · have hfor := mt hq.isFor_iff.mp hown
      rw [verdicts, List.filter_cons, if_neg hfor, List.filter_cons, if_neg hfor, hrest,
        hheard.lookup_other key hown]

/-- A contract gets the bucket that it gets if its requests are heard on their own. -/
lemma lookup_eq (h : Hearing config p keys s) (hqs : AllFitting config p keys qs)
    (key : ContractKey) :
    (Rollup.stateAfter s qs).table.active.lookup key =
      bucketAfter (freshBucket config) (s.table.active.lookup key) (qs.filter (·.isFor key)) := by
  induction qs generalizing s with
  | nil => rfl
  | cons q qs ih =>
    obtain ⟨⟨o, hq, hkey⟩, hqs⟩ := List.forall_mem_cons.mp hqs
    have hheard := Heard.of_call h hq hkey
    have hrest := ih hheard.hearing hqs
    by_cases hown : key = o.key
    · rw [List.filter_cons, if_pos (hq.isFor_iff.mpr hown), bucketAfter_cons hq, hown,
        ← hheard.lookup_self, ← hown]
      exact hrest
    · rw [List.filter_cons, if_neg (mt hq.isFor_iff.mp hown), ← hheard.lookup_other key hown]
      exact hrest

lemma key_getD (h : Hearing config p keys s) (key : ContractKey) :
    ((s.table.active.lookup key).getD ((freshBucket config).claim key)).key = key := by
  cases hlookup : s.table.active.lookup key with
  | none => rfl
  | some b =>
    rw [Roster.lookup_eq_some_iff_mem h.sound.table.nodup_keys_active,
      h.sound.table.mem_active_iff] at hlookup
    obtain ⟨i, -, hkey⟩ := hlookup
    exact hkey

/-- A request is accepted or dropped, or the bucket of its contract refuses it. -/
lemma verdict_cases (h : Hearing config p keys s) (hqs : AllFitting config p keys qs)
    {entry : Request × Verdict} (hentry : entry ∈ verdicts s qs) :
    entry.2 = .accepted ∨ entry.2 = .dropped ∨
      ∃ key c, entry.1.key? = some key ∧ entry.2 = .refused (.bucketFull key c) := by
  induction qs generalizing s with
  | nil => cases hentry
  | cons q qs ih =>
    obtain ⟨⟨o, hq, hkey⟩, hqs⟩ := List.forall_mem_cons.mp hqs
    have hheard := Heard.of_call h hq hkey
    rcases List.mem_cons.mp hentry with rfl | hentry
    · rw [hheard.verdict_eq]
      refine (verdictBy_cases _ o _).imp_right (Or.imp_right ?_)
      rintro ⟨c, hrefused⟩
      rw [h.key_getD] at hrefused
      exact ⟨o.key, c, by rw [Request.key?, hq.offer?_eq, Option.map_some], hrefused⟩
    · exact ih hheard.hearing hqs hentry

end Hearing

end Rollup

end Candlestick
