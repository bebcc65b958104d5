import Candlestick.Proofs.Table.Invariant

/-!
# A rinsed table is as good as new

A rinsed table keeps the buckets it has, which no contract owns. A search ends at a slot without an
owner whether or not it has a bucket, and a spare bucket is what a new one would be. So what a table
answers and shows after a rinse, down to the slots it uses, is what a new table does
(`ContractTable.run_after_rinse`).
-/

namespace Candlestick

namespace ContractTable

variable {t u : ContractTable} {config : TableConfig} {key : ContractKey} {b : Bucket} {i : Nat}

/-- The table `u` is `t` with spare buckets in slots that have no owner. -/
structure Spared (t u : ContractTable) : Prop where
  config_eq : u.config = t.config
  capacity_eq : u.capacity = t.capacity
  used_eq : u.used = t.used
  owned?_eq : u.owned? = t.owned?
  isSome_bucket? : ∀ i, (t.bucket? i).isSome → (u.bucket? i).isSome

namespace Spared

/-! ### What such tables show -/

lemma probe_eq (h : Spared t u) (key : ContractKey) : u.probe key = t.probe key := by
  have hvisit (d : Nat) : u.visit key d = t.visit key d := by
    rw [visit, visit, slotAt_congr h.config_eq h.capacity_eq, h.owned?_eq]
  have hlast (left : Nat) : u.probeLast key left = t.probeLast key left := by
    induction left with
    | zero => rfl
    | succ left ih => rw [probeLast, probeLast, hvisit, ih, h.capacity_eq]
  rw [probe, probe, hlast, h.capacity_eq]

lemma entry?_eq (h : Spared t u) (key : ContractKey) : u.entry? key = t.entry? key := by
  rw [ContractTable.entry?, ContractTable.entry?, h.probe_eq]

lemma active_eq (h : Spared t u) (ht : t.Placed) (hu : u.Placed) : u.active = t.active := by
  have hentry : u.entryAt = t.entryAt := by
    funext i
    rw [entryAt, entryAt, h.owned?_eq]
  rw [hu.active_eq, ht.active_eq, h.used_eq, hentry]

/-! ### What keeps tables so -/

/-- A contract changes its bucket in both tables. -/
lemma put (h : Spared t u) (howned : t.owned? i = some b) {c : Bucket} (hkey : c.key = b.key) :
    Spared (t.put i c) (u.put i c) where
  config_eq := h.config_eq
  capacity_eq := by rw [capacity_put, capacity_put, h.capacity_eq]
  used_eq := h.used_eq
  owned?_eq := by
    obtain ⟨hb, hnull⟩ := owned?_eq_some_iff.mp howned
    have hi := lt_capacity_of_bucket? hb
    funext j
    rw [owned?_put hi (hkey ▸ hnull), owned?_put (h.capacity_eq ▸ hi) (hkey ▸ hnull), h.owned?_eq]
  isSome_bucket? j hj := by
    have hi := lt_capacity_of_bucket? (owned?_eq_some_iff.mp howned).1
    rw [bucket?_put hi] at hj
    rw [bucket?_put (h.capacity_eq ▸ hi)]
    split_ifs at hj ⊢ with hij
    · rfl
    · exact h.isSome_bucket? j hj

/-- A contract gets the same slot of both tables. -/
lemma give (h : Spared t u) (hi : i < t.capacity) (hkey : key ≠ .null) :
    Spared (t.give i key) (u.give i key) where
  config_eq := h.config_eq
  capacity_eq := by rw [capacity_give, capacity_give, h.capacity_eq]
  used_eq := by rw [used_give, used_give, h.used_eq]
  owned?_eq := by
    funext j
    rw [owned?_give hi hkey, owned?_give (h.capacity_eq ▸ hi) hkey, newBucket_congr h.config_eq,
      h.owned?_eq]
  isSome_bucket? j hj := by
    rw [bucket?_give hi] at hj
    rw [bucket?_give (h.capacity_eq ▸ hi)]
    split_ifs at hj ⊢ with hij
    · rfl
    · exact h.isSome_bucket? j hj

lemma rinse (h : Spared t u) (ht : t.WellFormed) (hu : u.WellFormed) :
    Spared t.rinse u.rinse where
  config_eq := h.config_eq
  capacity_eq := (capacity_mapUsed u _).trans (h.capacity_eq.trans (capacity_mapUsed t _).symm)
  used_eq := rfl
  owned?_eq := by
    funext i
    rw [hu.owned?_rinse, ht.owned?_rinse]
  isSome_bucket? i hi := by
    rw [ht.bucket?_rinse, Option.isSome_map] at hi
    rw [hu.bucket?_rinse, Option.isSome_map]
    exact h.isSome_bucket? i hi

lemma flush (h : Spared t u) (ht : t.Placed) (hu : u.Placed) : Spared t.flush u.flush where
  config_eq := h.config_eq
  capacity_eq := (capacity_mapUsed u _).trans (h.capacity_eq.trans (capacity_mapUsed t _).symm)
  used_eq := h.used_eq
  owned?_eq := by
    funext i
    rw [hu.owned?_flush, ht.owned?_flush, h.owned?_eq]
  isSome_bucket? i hi := by
    rw [ContractTable.flush, isSome_bucket?_mapUsed ht.nodup_used] at hi
    rw [ContractTable.flush, isSome_bucket?_mapUsed hu.nodup_used]
    exact h.isSome_bucket? i hi

lemma handOut (h : Spared t u) {entry : Entry} (howned : t.owned? entry.slot = some entry.bucket)
    (changes : List Bucket.Change) :
    (u.handOut entry changes).1 = (t.handOut entry changes).1 ∧
      Spared (t.handOut entry changes).2 (u.handOut entry changes).2 :=
  ⟨rfl, h.put howned (Bucket.Change.key_applyAll entry.bucket changes)⟩

/-- Both tables refuse a contract, or both hand out the same bucket in the same slot. -/
lemma claim (h : Spared t u) (ht : t.WellFormed) (hu : u.WellFormed) (key : ContractKey) :
    (∃ e, ContractTable.claim key t = .error e t ∧ ContractTable.claim key u = .error e u) ∨
      ∃ entry t' u', ContractTable.claim key t = .ok entry t' ∧
        ContractTable.claim key u = .ok entry u' ∧
        t'.owned? entry.slot = some entry.bucket ∧ Spared t' u' := by
  rw [claim_eq, claim_eq, h.probe_eq, h.capacity_eq]
  by_cases hnull : key.isNull
  · rw [if_pos hnull, if_pos hnull]
    exact .inl ⟨_, rfl, rfl⟩
  have hkey : key ≠ .null := fun heq => hnull (ContractKey.isNull_iff.mpr heq)
  have hprobed := Probed.of_probe (t := t) hkey
  rw [if_neg hnull, if_neg hnull]
  generalize t.probe key = p at hprobed
  cases hprobed with
  | none => exact .inl ⟨_, rfl, rfl⟩
  | occupied _ _ _ howned => exact .inr ⟨_, _, _, rfl, rfl, howned, h⟩
  | @free i d hslot hd hpass hfree =>
    have hi : i < t.capacity := hslot ▸ slotAt_lt ht.capacity_pos key d
    dsimp only
    rw [ht.claimSlot_eq hfree, hu.claimSlot_eq (by rwa [h.owned?_eq]), newBucket_congr h.config_eq]
    refine .inr ⟨_, _, _, rfl, rfl, ?_, h.give hi hkey⟩
    rw [owned?_give hi hkey, if_pos rfl]

/-- Both tables answer an operation alike. -/
lemma perform (h : Spared t u) (ht : t.WellFormed) (hu : u.WellFormed) (op : Operation) :
    (u.perform op).1 = (t.perform op).1 ∧ Spared (t.perform op).2 (u.perform op).2 := by
  cases op with
  | claim key changes =>
    rw [ContractTable.perform, ContractTable.perform]
    rcases h.claim ht hu key with ⟨e, ht', hu'⟩ | ⟨entry, t', u', ht', hu', howned, h'⟩
    · rw [ht', hu']
      exact ⟨rfl, h⟩
    · rw [ht', hu']
      exact h'.handOut howned changes
  | find key changes =>
    rw [ContractTable.perform, ContractTable.perform, h.entry?_eq]
    cases hentry : t.entry? key with
    | none => exact ⟨rfl, h⟩
    | some entry => exact h.handOut (ht.owned?_of_entry? hentry).1 changes
  | rinse => exact ⟨rfl, h.rinse ht hu⟩
  | flush => exact ⟨rfl, h.flush ht.toPlaced hu.toPlaced⟩

lemma run (h : Spared t u) (ht : t.WellFormed) (hu : u.WellFormed) (ops : List Operation) :
    (u.run ops).1 = (t.run ops).1 ∧ Spared (t.run ops).2 (u.run ops).2 := by
  induction ops generalizing t u with
  | nil => exact ⟨rfl, h⟩
  | cons op ops ih =>
    obtain ⟨hanswer, hspared⟩ := h.perform ht hu op
    obtain ⟨hanswers, hrun⟩ :=
      ih hspared (ht.refines_perform op).wellFormed (hu.refines_perform op).wellFormed
    exact ⟨List.cons_eq_cons.mpr ⟨hanswer, hanswers⟩, hrun⟩

end Spared

/-- A new table, with the same settings, has no buckets at all. -/
lemma Spared.of_ofConfig (h : ofConfig config = .ok t) (hu : u.WellFormed)
    (hconfig : u.config = config) (hused : u.used = #[]) : Spared t u := by
  have ht := WellFormed.of_ofConfig h
  obtain ⟨-, rfl⟩ := ofConfig_eq_ok_iff.mp h
  refine ⟨hconfig, ?_, hused, ?_, ?_⟩
  · rw [hu.capacity_eq, ht.capacity_eq, hconfig]
  · funext i
    rw [hu.owned?_eq_none (by simp [hused]), ht.owned?_eq_none (by simp)]
  · intro i hi
    rw [bucket?_replicate] at hi
    cases hi

/--
Whatever operations a table has carried out, once it is rinsed it answers as a new table with its
settings does, and shows the same contracts, buckets and candles in the same slots. Only the number
of slots that have a bucket may be greater.
-/
theorem run_after_rinse (h : ofConfig config = .ok t) (ops more : List Operation) :
    let rinsed := (t.run ops).2.rinse.run more
    let new := t.run more
    rinsed.1 = new.1 ∧
      rinsed.2.config = new.2.config ∧
      rinsed.2.capacity = new.2.capacity ∧
      rinsed.2.used = new.2.used ∧
      rinsed.2.activeCount = new.2.activeCount ∧
      rinsed.2.active = new.2.active ∧
      rinsed.2.candles = new.2.candles ∧
      (∀ key, entry? rinsed.2 key = entry? new.2 key ∧ find? rinsed.2 key = find? new.2 key) ∧
      new.2.allocatedCount ≤ rinsed.2.allocatedCount := by
  have hnew := WellFormed.of_ofConfig h
  obtain ⟨hold, hconfig, -⟩ := refines_run_of_ofConfig h ops
  have hspared : Spared t (t.run ops).2.rinse := .of_ofConfig h hold.rinse hconfig rfl
  obtain ⟨hanswers, hrun⟩ := hspared.run hnew hold.rinse more
  have hactive := hrun.active_eq (hnew.refines_run more).1.toPlaced
    (hold.rinse.refines_run more).1.toPlaced
  refine ⟨hanswers, hrun.config_eq, hrun.capacity_eq, hrun.used_eq,
    congrArg Array.size hrun.used_eq, hactive, ?_, ?_, allocatedCount_le hrun.isSome_bucket?⟩
  · rw [candles, candles, hactive]
  · intro key
    exact ⟨hrun.entry?_eq key, congrArg (Option.map _) (hrun.entry?_eq key)⟩

/-- A contract whose home had an owner before a rinse is stored there after it. -/
theorem run_after_rinse_collision :
    ∃ t, ofConfig ⟨3, 1, .flat, 0⟩ = .ok t ∧
      let rinsed := (t.run [.claim ⟨1, 2, 3⟩ [], .claim ⟨3, 1, 2⟩ []]).2.rinse
      (rinsed.run [.claim ⟨3, 1, 2⟩ [], .find ⟨1, 2, 3⟩ []]).1 =
          [.handed ⟨⟨3, 1, 2⟩, 1, .flat #[]⟩ [], .absent] ∧
        (rinsed.run [.claim ⟨3, 1, 2⟩ [], .find ⟨1, 2, 3⟩ []]).2.used = #[t.home ⟨1, 2, 3⟩] := by
  obtain ⟨t, ht⟩ : ∃ t, ofConfig ⟨3, 1, .flat, 0⟩ = .ok t := ⟨_, rfl⟩
  obtain ⟨hanswers, -, -, hused, -⟩ := run_after_rinse ht
    [.claim ⟨1, 2, 3⟩ [], .claim ⟨3, 1, 2⟩ []] [.claim ⟨3, 1, 2⟩ [], .find ⟨1, 2, 3⟩ []]
  refine ⟨t, ht, hanswers.trans ?_, hused.trans ?_⟩
  · cases ht
    rfl
  · cases ht
    rfl

end ContractTable

end Candlestick
