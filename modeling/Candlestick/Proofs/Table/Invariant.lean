import Candlestick.Proofs.Table.Refinement

/-!
# What holds of a table at all times

Whatever operations a table has carried out, its used slots are the ones with an owner, in the order
they were claimed, every owner can be reached from its home past owned slots only, and a bucket that
nobody owns is empty (`ContractTable.Consistent`, `ContractTable.run_consistent`). The slots that
have a bucket only ever become more.
-/

namespace Candlestick

/-! ### The order of claims -/

/-- The contracts with a claim after an operation and its answer, from those before. -/
def Operation.noteClaim (keys : List ContractKey) : Operation × Answer → List ContractKey
  | (claim key _, .handed _ _) => if key ∈ keys then keys else keys ++ [key]
  | (rinse, _) => []
  | _ => keys

/-- The contracts that have claimed a slot since the last rinse, in the order they did so. -/
def Operation.claims (ops : List Operation) (answers : List Answer) : List ContractKey :=
  (ops.zip answers).foldl noteClaim []

namespace Roster

lemma keys_set (m : Roster) (key : ContractKey) (b : Bucket) :
    (m.set key b).map Prod.fst = m.map Prod.fst := by
  rw [set, List.map_map]
  apply List.map_congr_left
  intro entry _
  by_cases hkey : entry.1 = key <;> simp [hkey]

lemma mem_keys_of_lookup {m : Roster} {key : ContractKey} {b : Bucket}
    (h : m.lookup key = some b) : key ∈ m.map Prod.fst := by
  by_contra hmem
  have hnone : m.lookup key = none := List.lookup_eq_none_iff.mpr fun entry hentry =>
    bne_iff_ne.mpr fun hkey => hmem (List.mem_map.mpr ⟨entry, hentry, hkey.symm⟩)
  cases h.symm.trans hnone

lemma notMem_keys_of_lookup {m : Roster} {key : ContractKey} (h : m.lookup key = none) :
    key ∉ m.map Prod.fst := by
  intro hmem
  obtain ⟨entry, hentry, hkey⟩ := List.mem_map.mp hmem
  exact ne_of_lookup_eq_none h entry hentry hkey

/-- An operation changes the contracts of a roster as its answer says. -/
lemma keys_perform (capacity : Nat) (new : Bucket) (m : Roster) (op : Operation) :
    (m.perform capacity new op).2.map Prod.fst =
      Operation.noteClaim (m.map Prod.fst) (op, (m.perform capacity new op).1) := by
  cases op with
  | claim key changes =>
    rw [perform, claim]
    by_cases hnull : key = .null
    · rw [if_pos hnull]
      rfl
    rw [if_neg hnull]
    cases hlookup : m.lookup key with
    | some b =>
      refine (keys_set m key _).trans ?_
      exact (if_pos (mem_keys_of_lookup hlookup)).symm
    | none =>
      by_cases hroom : m.length < capacity
      · rw [if_pos hroom]
        refine (keys_set _ key _).trans ?_
        rw [List.map_append]
        exact (if_neg (notMem_keys_of_lookup hlookup)).symm
      · rw [if_neg hroom]
        rfl
  | find key changes =>
    rw [perform]
    cases m.lookup key with
    | none => rfl
    | some b => exact keys_set m key _
  | rinse => rfl
  | flush =>
    rw [perform, Roster.flush, List.map_map]
    rfl

lemma keys_run (capacity : Nat) (new : Bucket) (m : Roster) (ops : List Operation) :
    (m.run capacity new ops).2.map Prod.fst =
      (ops.zip (m.run capacity new ops).1).foldl Operation.noteClaim (m.map Prod.fst) := by
  induction ops generalizing m with
  | nil => rfl
  | cons op ops ih =>
    rw [run, List.zip_cons_cons, List.foldl_cons, ← keys_perform]
    exact ih _

end Roster

namespace ContractTable

variable {t t' : ContractTable} {config : TableConfig} {key : ContractKey} {b : Bucket} {i : Nat}

/-! ### Slots with a bucket -/

lemma slots_toList (t : ContractTable) :
    t.slots.toList = (List.range t.capacity).map t.bucket? := by
  apply List.ext_getElem
  · simp [capacity]
  · intro i hi _
    have hlt : i < t.slots.size := by simpa using hi
    simp [bucket?, hlt]

/-- The slots that have a bucket. -/
def allocated (t : ContractTable) : Finset Nat :=
  (Finset.range t.capacity).filter fun i => (t.bucket? i).isSome

lemma mem_allocated_iff : i ∈ t.allocated ↔ (t.bucket? i).isSome := by
  rw [allocated, Finset.mem_filter, Finset.mem_range, and_iff_right_iff_imp]
  intro hi
  obtain ⟨b, hb⟩ := Option.isSome_iff_exists.mp hi
  exact lt_capacity_of_bucket? hb

lemma allocatedCount_eq_card (t : ContractTable) : t.allocatedCount = t.allocated.card := by
  have hnodup : ((List.range t.capacity).filter (Option.isSome ∘ t.bucket?)).Nodup :=
    List.nodup_range.filter _
  rw [allocatedCount, ← Array.countP_toList, slots_toList, List.countP_map,
    List.countP_eq_length_filter, ← List.toFinset_card_of_nodup hnodup]
  congr 1
  ext i
  simp [allocated]

lemma allocatedCount_le_capacity (t : ContractTable) : t.allocatedCount ≤ t.capacity :=
  Array.countP_le_size

lemma Placed.activeCount_le_allocatedCount (h : t.Placed) : t.activeCount ≤ t.allocatedCount := by
  rw [← h.card_used, allocatedCount_eq_card]
  apply Finset.card_le_card
  intro i hi
  rw [List.mem_toFinset] at hi
  rw [mem_allocated_iff, h.bucket?_eq_owned? hi]
  simpa [owner?] using (h.mem_used_iff i).mp hi

/-- Slots that have a bucket keep one. -/
lemma allocatedCount_le (h : ∀ i, (t.bucket? i).isSome → (t'.bucket? i).isSome) :
    t.allocatedCount ≤ t'.allocatedCount := by
  rw [allocatedCount_eq_card, allocatedCount_eq_card]
  apply Finset.card_le_card
  intro i hi
  rw [mem_allocated_iff] at *
  exact h i hi

lemma isSome_bucket?_put (hi : (t.bucket? i).isSome) (j : Nat) (b : Bucket) :
    ((t.put j b).bucket? i).isSome := by
  by_cases hj : j < t.capacity
  · rw [bucket?_put hj]
    split_ifs
    · rfl
    · exact hi
  · rw [put, Array.setIfInBounds, dif_neg (by exact hj)]
    exact hi

lemma allocatedCount_le_mapUsed (h : t.Placed) (f : Bucket → Bucket) :
    t.allocatedCount ≤ (t.mapUsed f).allocatedCount := by
  apply allocatedCount_le
  intro i hi
  rwa [isSome_bucket?_mapUsed h.nodup_used]

lemma allocatedCount_le_perform (h : t.WellFormed) (op : Operation) :
    t.allocatedCount ≤ (t.perform op).2.allocatedCount := by
  have hput {u : ContractTable} (j : Nat) (b : Bucket) :
      u.allocatedCount ≤ (u.put j b).allocatedCount :=
    allocatedCount_le fun i hi => isSome_bucket?_put hi j b
  cases op with
  | claim key changes =>
    rw [perform, claim_eq]
    by_cases hnull : key.isNull
    · rw [if_pos hnull]
    rw [if_neg hnull]
    cases t.probe key with
    | none => exact Nat.le_refl _
    | some p =>
      cases p with
      | occupied slot b => exact hput slot _
      | free slot => exact (hput slot _).trans (hput (u := (t.claimSlot slot key).2) slot _)
  | find key changes =>
    rw [perform]
    cases t.entry? key with
    | none => exact Nat.le_refl _
    | some entry => exact hput entry.slot _
  | rinse => exact allocatedCount_le_mapUsed h.toPlaced Bucket.rinse
  | flush => exact allocatedCount_le_mapUsed h.toPlaced Bucket.flush

lemma run_append (t : ContractTable) (ops more : List Operation) :
    (t.run (ops ++ more)).2 = ((t.run ops).2.run more).2 := by
  induction ops generalizing t with
  | nil => rfl
  | cons op ops ih => exact ih _

lemma allocatedCount_le_run (h : t.WellFormed) (ops : List Operation) :
    t.allocatedCount ≤ (t.run ops).2.allocatedCount := by
  induction ops generalizing t with
  | nil => exact Nat.le_refl _
  | cons op ops ih =>
    exact (allocatedCount_le_perform h op).trans (ih (h.refines_perform op).wellFormed)

/-! ### The invariant -/

/-- The parts of a table with the given settings fit together. -/
structure Consistent (config : TableConfig) (t : ContractTable) : Prop where
  config_eq : t.config = config
  capacity_eq : t.capacity = config.capacity.toNat
  nodup_used : t.used.toList.Nodup
  used_lt_capacity : ∀ i ∈ t.used, i < t.capacity
  mem_used_iff : ∀ i, i ∈ t.used ↔ ∃ b, t.bucket? i = some b ∧ b.isClaimed
  key_ne_null : ∀ {i b}, t.bucket? i = some b → b.isClaimed → b.key ≠ .null
  /-- No contract owns two slots. -/
  key_injective : ∀ {i j b c}, t.bucket? i = some b → b.isClaimed → t.bucket? j = some c →
    c.isClaimed → b.key = c.key → i = j
  /-- A bucket without an owner has the null key and no ticks. -/
  unclaimed : ∀ {i b}, t.bucket? i = some b → ¬ b.isClaimed → b.key = .null ∧ b.isEmpty
  /-- All slots on the way round from a contract's home to its slot have owners. -/
  no_holes : ∀ {i b}, t.bucket? i = some b → b.isClaimed →
    ∃ d < t.capacity, (t.home b.key + d) % t.capacity = i ∧
      ∀ e < d, ∃ c, t.bucket? ((t.home b.key + e) % t.capacity) = some c ∧ c.isClaimed
  shape : ∀ {i b}, t.bucket? i = some b →
    b.layout = config.layout ∧ b.capacity = config.bucketSize.toNat
  activeCount_le : t.activeCount ≤ t.allocatedCount
  allocatedCount_le : t.allocatedCount ≤ t.capacity

lemma owned?_of_isClaimed (hb : t.bucket? i = some b) (hclaimed : b.isClaimed) :
    t.owned? i = some b :=
  owned?_eq_some_iff.mpr ⟨hb, Bucket.isClaimed_iff.mp hclaimed⟩

lemma isSome_owner?_iff : (t.owner? i).isSome ↔ ∃ b, t.bucket? i = some b ∧ b.isClaimed := by
  rw [owner?, Option.isSome_map, Option.isSome_iff_exists]
  simp only [owned?_eq_some_iff, Bucket.isClaimed_iff]

lemma WellFormed.consistent (h : t.WellFormed) : Consistent t.config t where
  config_eq := rfl
  capacity_eq := h.capacity_eq
  nodup_used := h.nodup_used
  used_lt_capacity i hi := by
    have hrange := h.used_subset_range (List.mem_toFinset.mpr (Array.mem_toList_iff.mpr hi))
    exact Finset.mem_range.mp hrange
  mem_used_iff i := by rw [← Array.mem_toList_iff, h.mem_used_iff, isSome_owner?_iff]
  key_ne_null _ hclaimed := Bucket.isClaimed_iff.mp hclaimed
  key_injective hb hclaimed hc hclaimed' hkey := by
    have howner := owner?_eq_some (owned?_of_isClaimed hb hclaimed)
    have howner' := owner?_eq_some (owned?_of_isClaimed hc hclaimed')
    rw [hkey] at howner
    exact h.owner_injective howner howner'
  unclaimed {i b} hb hclaimed := by
    have hnull : b.key = .null := by
      by_contra hkey
      exact hclaimed (Bucket.isClaimed_iff.mpr hkey)
    refine ⟨hnull, ?_⟩
    rw [h.released hb hnull, newBucket]
    cases t.config.layout <;> rfl
  no_holes {i b} hb hclaimed := by
    obtain ⟨d, hd, hslot, hway⟩ := h.no_holes (owner?_eq_some (owned?_of_isClaimed hb hclaimed))
    exact ⟨d, hd, hslot, fun e he => isSome_owner?_iff.mp (hway e he)⟩
  shape {i b} hb := by
    by_cases hclaimed : b.isClaimed
    · exact h.shape (owned?_of_isClaimed hb hclaimed)
    · have hnull : b.key = .null := by
        by_contra hkey
        exact hclaimed (Bucket.isClaimed_iff.mpr hkey)
      rw [h.released hb hnull]
      exact ⟨Bucket.layout_empty _ _, rfl⟩
  activeCount_le := h.activeCount_le_allocatedCount
  allocatedCount_le := t.allocatedCount_le_capacity

/-- The owners of the used slots are the contracts that are listed, in the same order. -/
lemma Placed.map_owner?_used (h : t.Placed) :
    t.used.toList.map t.owner? = (t.active.map Prod.fst).map some := by
  rw [h.active_eq]
  have hsome : ∀ i ∈ t.used.toList, (t.owner? i).isSome := fun i hi => (h.mem_used_iff i).mp hi
  generalize t.used.toList = is at hsome
  induction is with
  | nil => rfl
  | cons i is ih =>
    obtain ⟨hi, his⟩ := List.forall_mem_cons.mp hsome
    obtain ⟨key, hkey⟩ := Option.isSome_iff_exists.mp hi
    obtain ⟨b, hb, rfl⟩ := owner?_eq_some_iff.mp hkey
    rw [List.map_cons, ih his, hkey, List.filterMap_cons_some (entryAt_eq_some_iff.mpr ⟨hb, rfl⟩)]
    rfl

/--
Whatever operations a new table has carried out, its parts fit together, the used slots belong to
the contracts with a claim in the order of their claims, and no slot has lost its bucket.
-/
theorem run_consistent (h : ofConfig config = .ok t) (ops : List Operation) :
    Consistent config (t.run ops).2 ∧
      (t.run ops).2.used.toList.map (t.run ops).2.owner? =
        (Operation.claims ops (t.run ops).1).map some ∧
      ∀ more, (t.run ops).2.allocatedCount ≤ (t.run (ops ++ more)).2.allocatedCount := by
  obtain ⟨hwell, hconfig, hrun⟩ := refines_run_of_ofConfig h ops
  refine ⟨hconfig ▸ hwell.consistent, ?_, ?_⟩
  · have hkeys := Roster.keys_run config.capacity.toNat
      (.empty config.layout config.bucketSize.toNat) [] ops
    rw [hrun] at hkeys
    rw [hwell.map_owner?_used, hkeys]
    rfl
  · intro more
    rw [run_append]
    exact allocatedCount_le_run hwell more

/-- Two contracts with the same home take up neighbouring slots, in the order of their claims. -/
theorem run_consistent_collision :
    ∃ t, ofConfig ⟨3, 1, .flat, 0⟩ = .ok t ∧
      (t.run [.claim ⟨1, 2, 3⟩ [], .claim ⟨3, 1, 2⟩ [], .claim ⟨1, 2, 3⟩ [.flush]]).2.used.toList.map
        (t.run [.claim ⟨1, 2, 3⟩ [], .claim ⟨3, 1, 2⟩ [], .claim ⟨1, 2, 3⟩ [.flush]]).2.owner? =
          [some ⟨1, 2, 3⟩, some ⟨3, 1, 2⟩] := by
  obtain ⟨t, ht⟩ : ∃ t, ofConfig ⟨3, 1, .flat, 0⟩ = .ok t := ⟨_, rfl⟩
  obtain ⟨-, hclaims, -⟩ := run_consistent ht
    [.claim ⟨1, 2, 3⟩ [], .claim ⟨3, 1, 2⟩ [], .claim ⟨1, 2, 3⟩ [.flush]]
  refine ⟨t, ht, hclaims.trans ?_⟩
  cases ht
  rfl

end ContractTable

end Candlestick
