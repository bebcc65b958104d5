import Candlestick.Proofs.Table.WellFormed

/-!
# The contracts of a table, in order

`ContractTable.active` lists the contracts and their buckets in the order the contracts were first
seen. It shows all that a table answers: which bucket a contract has (`Placed.find?_eq_lookup`)
and whether a slot is left (`Placed.length_active_lt`). Each change to a table is a plain change to
this list.
-/

namespace Candlestick

/-- The contracts and their buckets, in the order the contracts were first seen. -/
abbrev Roster := List (ContractKey × Bucket)

namespace Roster

/-- Replaces the bucket of a contract. -/
def set (m : Roster) (key : ContractKey) (b : Bucket) : Roster :=
  m.map fun entry => if entry.1 = key then (key, b) else entry

/-- Drops the ticks of all contracts. -/
def flush (m : Roster) : Roster :=
  m.map fun entry => (entry.1, entry.2.flush)

lemma lookup_eq_some_iff_mem {m : Roster} (h : (m.map Prod.fst).Nodup) {key : ContractKey}
    {b : Bucket} : m.lookup key = some b ↔ (key, b) ∈ m := by
  induction m with
  | nil => simp
  | cons entry m ih =>
    obtain ⟨k, c⟩ := entry
    obtain ⟨hk, hnodup⟩ := List.nodup_cons.mp h
    rw [List.lookup_cons, List.mem_cons, ← ih hnodup]
    by_cases hkey : key = k
    · subst hkey
      have hnone : m.lookup key ≠ some b := fun hb =>
        hk (List.mem_map.mpr ⟨(key, b), (ih hnodup).mp hb, rfl⟩)
      simp [hnone, eq_comm]
    · simp [hkey, beq_eq_false_iff_ne.mpr hkey]

lemma ne_of_lookup_eq_none {m : Roster} {key : ContractKey} (h : m.lookup key = none) :
    ∀ entry ∈ m, entry.1 ≠ key := by
  intro entry hentry hkey
  have hne := List.lookup_eq_none_iff.mp h entry hentry
  rw [hkey, bne_self_eq_false] at hne
  cases hne

lemma set_append {m : Roster} {key : ContractKey} (h : m.lookup key = none) (b c : Bucket) :
    Roster.set (m ++ [(key, b)]) key c = m ++ [(key, c)] := by
  rw [set, List.map_append, List.map_congr_left (g := id), List.map_id]
  · simp
  · intro entry hentry
    exact if_neg (ne_of_lookup_eq_none h entry hentry)

end Roster

namespace ContractTable

variable {t : ContractTable} {key : ContractKey} {b c : Bucket} {i : Nat}

/-- The contract of a slot and its bucket. -/
def entryAt (t : ContractTable) (slot : Nat) : Option (ContractKey × Bucket) :=
  (t.owned? slot).map fun b => (b.key, b)

lemma entryAt_eq_some_iff : t.entryAt i = some (key, b) ↔ t.owned? i = some b ∧ b.key = key := by
  rw [entryAt, Option.map_eq_some_iff]
  constructor
  · rintro ⟨c, hc, heq⟩
    cases heq
    exact ⟨hc, rfl⟩
  · rintro ⟨hb, rfl⟩
    exact ⟨b, hb, rfl⟩

namespace Placed

lemma active_eq (h : t.Placed) : t.active = t.used.toList.filterMap t.entryAt :=
  List.filterMap_congr fun _ hi => by rw [h.bucket?_eq_owned? hi, entryAt]

lemma mem_used (h : t.Placed) (howned : t.owned? i = some b) : i ∈ t.used.toList := by
  rw [h.mem_used_iff, owner?_eq_some howned]
  rfl

lemma mem_active_iff (h : t.Placed) :
    (key, b) ∈ t.active ↔ ∃ i, t.owned? i = some b ∧ b.key = key := by
  rw [h.active_eq, List.mem_filterMap]
  constructor
  · rintro ⟨i, -, hi⟩
    exact ⟨i, entryAt_eq_some_iff.mp hi⟩
  · rintro ⟨i, howned, hkey⟩
    exact ⟨i, h.mem_used howned, entryAt_eq_some_iff.mpr ⟨howned, hkey⟩⟩

/-- No contract is listed twice. -/
lemma nodup_keys_active (h : t.Placed) : (t.active.map Prod.fst).Nodup := by
  rw [h.active_eq, List.map_filterMap]
  apply h.nodup_used.filterMap
  intro i j k hi hj
  have howner {l : Nat} (hl : k ∈ (t.entryAt l).map Prod.fst) : t.owner? l = some k := by
    simpa [entryAt, owner?] using hl
  exact h.owner_injective (howner hi) (howner hj)

/-- The bucket found for a contract is the listed one. -/
lemma find?_eq_lookup (h : t.Placed) (key : ContractKey) : t.find? key = t.active.lookup key := by
  ext b
  rw [Roster.lookup_eq_some_iff_mem h.nodup_keys_active, h.mem_active_iff, find?,
    Option.map_eq_some_iff]
  constructor
  · rintro ⟨entry, hentry, rfl⟩
    exact ⟨entry.slot, h.owned?_of_entry? hentry⟩
  · rintro ⟨i, hi⟩
    exact ⟨⟨i, b⟩, h.entry?_eq_some_iff.mpr hi, rfl⟩

lemma lookup_active_of_owned (h : t.Placed) (howned : t.owned? i = some b) :
    t.active.lookup b.key = some b :=
  (Roster.lookup_eq_some_iff_mem h.nodup_keys_active).mpr (h.mem_active_iff.mpr ⟨i, howned, rfl⟩)

lemma lookup_active_eq_none (h : t.Placed) (hnew : ∀ i, t.owner? i ≠ some key) :
    t.active.lookup key = none := by
  rw [Option.eq_none_iff_forall_ne_some]
  intro b hb
  rw [Roster.lookup_eq_some_iff_mem h.nodup_keys_active, h.mem_active_iff] at hb
  obtain ⟨i, hi, hkey⟩ := hb
  exact hnew i (owner?_eq_some_iff.mpr ⟨b, hi, hkey⟩)

lemma length_active (h : t.Placed) : t.active.length = t.activeCount := by
  rw [h.active_eq, List.filterMap_length_eq_length.mpr, Array.length_toList, activeCount]
  intro i hi
  rw [h.mem_used_iff, owner?, Option.isSome_map] at hi
  rw [entryAt, Option.isSome_map, hi]

lemma used_subset_range (h : t.Placed) : t.used.toList.toFinset ⊆ Finset.range t.capacity := by
  intro i hi
  rw [List.mem_toFinset, h.mem_used_iff, Option.isSome_iff_exists] at hi
  obtain ⟨key, hkey⟩ := hi
  exact Finset.mem_range.mpr (lt_capacity_of_owner? hkey)

lemma card_used (h : t.Placed) : t.used.toList.toFinset.card = t.activeCount := by
  rw [List.toFinset_card_of_nodup h.nodup_used, Array.length_toList, activeCount]

/-- While a slot has no owner, fewer contracts are listed than there are slots. -/
lemma length_active_lt (h : t.Placed) (hi : i < t.capacity) (hfree : t.owned? i = none) :
    t.active.length < t.capacity := by
  rw [h.length_active, ← h.card_used, ← Finset.card_range t.capacity]
  apply Finset.card_lt_card
  refine ⟨h.used_subset_range, ?_⟩
  intro hsub
  have hused := hsub (Finset.mem_range.mpr hi)
  rw [List.mem_toFinset, h.mem_used_iff, owner?_eq_none_iff.mpr hfree] at hused
  cases hused

/-- Once all slots have owners, as many contracts are listed as there are slots. -/
lemma length_active_eq (h : t.Placed) (hfull : ∀ i < t.capacity, (t.owner? i).isSome) :
    t.active.length = t.capacity := by
  rw [h.length_active, ← h.card_used, ← Finset.card_range t.capacity]
  congr 1
  apply Finset.Subset.antisymm h.used_subset_range
  intro i hi
  rw [List.mem_toFinset, h.mem_used_iff]
  exact hfull i (Finset.mem_range.mp hi)

/-! ### Changes to the list -/

/-- A contract that gets a slot goes to the end of the list. -/
lemma active_give (h : t.Placed) (h' : (t.give i key).Placed) (hi : i < t.capacity)
    (hkey : key ≠ .null) (hfree : t.owned? i = none) :
    (t.give i key).active = t.active ++ [(key, t.newBucket.claim key)] := by
  have hnew : (t.give i key).entryAt i = some (key, t.newBucket.claim key) := by
    rw [entryAt, owned?_give hi hkey, if_pos rfl]
    rfl
  rw [h'.active_eq, h.active_eq, used_give, Array.toList_push, List.filterMap_append,
    List.filterMap_cons_some hnew, List.filterMap_nil]
  congr 1
  apply List.filterMap_congr
  intro j hj
  have hij : i ≠ j := by
    rintro rfl
    rw [h.mem_used_iff, owner?_eq_none_iff.mpr hfree] at hj
    cases hj
  rw [entryAt, owned?_give hi hkey, if_neg hij, entryAt]

/-- Changing the bucket of a contract changes its place in the list only. -/
lemma active_put (h : t.Placed) (h' : (t.put i c).Placed) (howned : t.owned? i = some b)
    (hkey : c.key = b.key) : (t.put i c).active = Roster.set t.active b.key c := by
  have hi : i < t.capacity := lt_capacity_of_bucket? (owned?_eq_some_iff.mp howned).1
  have hnull : c.key ≠ .null := hkey ▸ (owned?_eq_some_iff.mp howned).2
  rw [h'.active_eq, h.active_eq, Roster.set, List.map_filterMap, used_put]
  apply List.filterMap_congr
  intro j _
  rw [entryAt, entryAt, owned?_put hi hnull]
  by_cases hij : i = j
  · subst hij
    simp [howned, hkey]
  · rw [if_neg hij]
    cases hj : t.owned? j with
    | none => rfl
    | some d =>
      have hd : d.key ≠ b.key := fun heq =>
        hij (h.owner_injective (owner?_eq_some howned) (owner?_eq_some_iff.mpr ⟨d, hj, heq⟩))
      simp [hd]

lemma active_flush (h : t.Placed) (h' : t.flush.Placed) :
    t.flush.active = Roster.flush t.active := by
  rw [h'.active_eq, h.active_eq, Roster.flush, List.map_filterMap]
  apply List.filterMap_congr
  intro i _
  rw [entryAt, entryAt, h.owned?_flush, Option.map_map, Option.map_map]
  rfl

end Placed

/-! ### Claiming -/

/-- What claiming a slot for a contract can come to, by the contracts that are listed. -/
inductive Granted (t : ContractTable) (key : ContractKey) :
    EStateM.Result Error ContractTable Entry → Prop
  | null (hkey : key = .null) : Granted t key (.error .nullKey t)
  | known {i : Nat} {b : Bucket} (hkey : b.key = key) (howned : t.owned? i = some b)
      (hlookup : t.active.lookup key = some b) :
      Granted t key (.ok { slot := i, bucket := b } t)
  | new {i : Nat} (hkey : key ≠ .null) (hlookup : t.active.lookup key = none)
      (hroom : t.active.length < t.capacity) (hwell : (t.give i key).WellFormed)
      (howned : (t.give i key).owned? i = some (t.newBucket.claim key))
      (hactive : (t.give i key).active = t.active ++ [(key, t.newBucket.claim key)]) :
      Granted t key (.ok { slot := i, bucket := t.newBucket.claim key } (t.give i key))
  | full (hkey : key ≠ .null) (hlookup : t.active.lookup key = none)
      (hlength : t.active.length = t.capacity) : Granted t key (.error (.tableFull t.capacity) t)

lemma Granted.of_claim (h : t.WellFormed) (key : ContractKey) : Granted t key (claim key t) := by
  have hclaimed := Claimed.of_claim h.toPlaced key
  generalize claim key t = r at hclaimed
  cases hclaimed with
  | null hkey => exact .null hkey
  | known howned hkey =>
    have hlookup := h.lookup_active_of_owned howned
    rw [hkey] at hlookup
    exact .known hkey howned hlookup
  | @new i d hkey hnew hslot hd hway hfree =>
    have hi : i < t.capacity := hslot ▸ slotAt_lt h.capacity_pos key d
    have hgive := h.give hkey hnew hslot hd hway hfree
    rw [h.claimSlot_eq hfree]
    refine .new hkey (h.lookup_active_eq_none hnew) (h.length_active_lt hi hfree) hgive ?_
      (h.active_give hgive.toPlaced hi hkey hfree)
    rw [owned?_give hi hkey, if_pos rfl]
  | full hkey hnew hfull =>
    exact .full hkey (h.lookup_active_eq_none hnew) (h.length_active_eq hfull)

end ContractTable

end Candlestick
