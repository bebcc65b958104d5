import Candlestick.ContractTable
import Candlestick.Proofs.Bucket.Content
import Mathlib.Data.Nat.ModEq

/-!
# Slots and their owners

What the operations on a table do to its slots: which bucket a slot has (`bucket?`), which bucket
it has on behalf of an owner (`owned?`), and who the owner is (`owner?`).
-/

namespace Candlestick

lemma ContractKey.isNull_iff {key : ContractKey} : key.isNull = true ↔ key = .null :=
  beq_iff_eq

lemma ContractKey.isNull_eq_false_iff {key : ContractKey} : key.isNull = false ↔ key ≠ .null :=
  beq_eq_false_iff_ne

lemma Bucket.isClaimed_iff {b : Bucket} : b.isClaimed = true ↔ b.key ≠ .null := by
  rw [Bucket.isClaimed, Bool.not_eq_true', ContractKey.isNull_eq_false_iff]

namespace ContractTable

variable {t : ContractTable} {key : ContractKey} {b : Bucket} {i j d e : Nat}

/-- The owner of a slot. -/
def owner? (t : ContractTable) (slot : Nat) : Option ContractKey :=
  (t.owned? slot).map (·.key)

lemma owned?_eq_some_iff : t.owned? i = some b ↔ t.bucket? i = some b ∧ b.key ≠ .null := by
  rw [owned?, Option.filter_eq_some_iff, Bucket.isClaimed_iff]

lemma owner?_eq_some_iff : t.owner? i = some key ↔ ∃ b, t.owned? i = some b ∧ b.key = key :=
  Option.map_eq_some_iff

lemma owner?_eq_some (h : t.owned? i = some b) : t.owner? i = some b.key :=
  owner?_eq_some_iff.mpr ⟨b, h, rfl⟩

lemma owner?_eq_none_iff : t.owner? i = none ↔ t.owned? i = none :=
  Option.map_eq_none_iff

lemma ne_null_of_owner? (h : t.owner? i = some key) : key ≠ .null := by
  obtain ⟨b, hb, rfl⟩ := owner?_eq_some_iff.mp h
  exact (owned?_eq_some_iff.mp hb).2

lemma lt_capacity_of_bucket? (h : t.bucket? i = some b) : i < t.capacity := by
  by_contra hi
  rw [bucket?, Array.getElem?_eq_none (Nat.le_of_not_lt hi)] at h
  cases h

lemma lt_capacity_of_owner? (h : t.owner? i = some key) : i < t.capacity := by
  obtain ⟨b, hb, -⟩ := owner?_eq_some_iff.mp h
  exact lt_capacity_of_bucket? (owned?_eq_some_iff.mp hb).1

/-! ### Putting a bucket into a slot -/

@[simp] lemma used_put (t : ContractTable) (i : Nat) (b : Bucket) : (t.put i b).used = t.used := rfl

@[simp] lemma capacity_put (t : ContractTable) (i : Nat) (b : Bucket) :
    (t.put i b).capacity = t.capacity :=
  Array.size_setIfInBounds

lemma bucket?_put (hi : i < t.capacity) (b : Bucket) (j : Nat) :
    (t.put i b).bucket? j = if i = j then some b else t.bucket? j := by
  simp only [bucket?, put, Array.getElem?_setIfInBounds]
  split_ifs with hij hlt
  · rfl
  · exact absurd hi hlt
  · rfl

/-- A slot is as it was once it is given the bucket that it has. -/
lemma put_of_bucket? (h : t.bucket? i = some b) : t.put i b = t := by
  obtain ⟨hi, hget⟩ := Array.getElem?_eq_some_iff.mp (Option.join_eq_some_iff.mp h)
  rw [put, ← hget, Array.setIfInBounds, dif_pos hi, Array.set_getElem_self]

lemma owned?_put (hi : i < t.capacity) (hb : b.key ≠ .null) (j : Nat) :
    (t.put i b).owned? j = if i = j then some b else t.owned? j := by
  rw [owned?, bucket?_put hi]
  split_ifs with hij
  · rw [Option.filter_some, if_pos (Bucket.isClaimed_iff.mpr hb)]
  · rfl

/-! ### Changing the buckets of all owners -/

lemma size_foldl_modify {α : Type} (f : α → α) (is : List Nat) (slots : Array α) :
    (is.foldl (fun slots i => slots.modify i f) slots).size = slots.size := by
  induction is generalizing slots with
  | nil => rfl
  | cons i is ih => exact (ih _).trans Array.size_modify

@[simp] lemma capacity_mapUsed (t : ContractTable) (f : Bucket → Bucket) :
    (t.mapUsed f).capacity = t.capacity := by
  simp only [capacity, mapUsed, ← Array.foldl_toList, size_foldl_modify]

/-- Changing distinct places one by one changes each of them once. -/
lemma getElem?_foldl_modify {α : Type} (f : α → α) {is : List Nat} (h : is.Nodup)
    (slots : Array α) (j : Nat) :
    (is.foldl (fun slots i => slots.modify i f) slots)[j]? =
      if j ∈ is then slots[j]?.map f else slots[j]? := by
  induction is generalizing slots with
  | nil => simp
  | cons i is ih =>
    obtain ⟨hi, hnodup⟩ := List.nodup_cons.mp h
    rw [List.foldl_cons, ih hnodup, Array.getElem?_modify]
    by_cases hij : i = j
    · subst hij
      simp [hi]
    · simp [hij, Ne.symm hij]

lemma bucket?_mapUsed (h : t.used.toList.Nodup) (f : Bucket → Bucket) (j : Nat) :
    (t.mapUsed f).bucket? j =
      if j ∈ t.used.toList then (t.bucket? j).map f else t.bucket? j := by
  simp only [bucket?, mapUsed, ← Array.foldl_toList, getElem?_foldl_modify _ h]
  split_ifs
  · cases t.slots[j]? <;> rfl
  · rfl

/-- Slots get no bucket and lose none when the buckets in them change. -/
lemma isSome_bucket?_mapUsed (h : t.used.toList.Nodup) (f : Bucket → Bucket) (j : Nat) :
    ((t.mapUsed f).bucket? j).isSome = (t.bucket? j).isSome := by
  rw [bucket?_mapUsed h]
  split_ifs
  · exact Option.isSome_map
  · rfl

/-! ### The way round -/

/-- The way round depends on the seed and the number of slots only. -/
lemma slotAt_congr {t t' : ContractTable} (hconfig : t'.config = t.config)
    (hcapacity : t'.capacity = t.capacity) : t'.slotAt = t.slotAt := by
  funext key d
  simp only [slotAt, home, hconfig, hcapacity]

lemma home_lt (h : 0 < t.capacity) (key : ContractKey) : t.home key < t.capacity :=
  Nat.mod_lt _ h

lemma slotAt_lt (h : 0 < t.capacity) (key : ContractKey) (d : Nat) :
    t.slotAt key d < t.capacity :=
  Nat.mod_lt _ h

lemma slotAt_zero (h : 0 < t.capacity) (key : ContractKey) : t.slotAt key 0 = t.home key := by
  rw [slotAt, Nat.add_zero, Nat.mod_eq_of_lt (home_lt h key)]

lemma slotAt_succ (t : ContractTable) (key : ContractKey) (d : Nat) :
    t.slotAt key (d + 1) = (t.slotAt key d + 1) % t.capacity := by
  rw [slotAt, slotAt, Nat.mod_add_mod, Nat.add_assoc]

/-- The way round comes to no slot twice. -/
lemma slotAt_injective (hd : d < t.capacity) (he : e < t.capacity)
    (h : t.slotAt key d = t.slotAt key e) : d = e :=
  (Nat.ModEq.add_left_cancel' (t.home key) h).eq_of_lt_of_lt hd he

/-- The way round visits every slot. -/
lemma exists_slotAt (hi : i < t.capacity) (key : ContractKey) :
    ∃ d < t.capacity, t.slotAt key d = i := by
  have hhome := home_lt (Nat.zero_lt_of_lt hi) key
  by_cases hle : t.home key ≤ i
  · refine ⟨i - t.home key, by omega, ?_⟩
    rw [slotAt, Nat.add_sub_cancel' hle, Nat.mod_eq_of_lt hi]
  · refine ⟨i + t.capacity - t.home key, by omega, ?_⟩
    rw [slotAt, Nat.add_sub_cancel' (by omega), Nat.add_mod_right, Nat.mod_eq_of_lt hi]

end ContractTable

end Candlestick
