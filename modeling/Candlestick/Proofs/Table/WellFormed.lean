import Candlestick.Proofs.Table.Probe
import Mathlib.Data.Finset.Card
import Mathlib.Data.Finset.Range
import Mathlib.Data.List.Nodup

/-!
# Well-formed tables

The used slots are those that have an owner, no contract owns two slots, and on the way round from
a contract's home to its slot no slot is without an owner. So a search finds the slot of every
contract that has one (`WellFormed.entry?_eq_some_iff`). Claiming a slot, changing the buckets of
owners, dropping their ticks and releasing all slots keep a table well-formed.
-/

namespace Candlestick

namespace ContractTable

variable {t t' : ContractTable} {key : ContractKey} {b : Bucket} {i j : Nat}

/-- The owners are where a search finds them. -/
structure Placed (t : ContractTable) : Prop where
  nodup_used : t.used.toList.Nodup
  mem_used_iff : ∀ i, i ∈ t.used.toList ↔ (t.owner? i).isSome
  owner_injective : ∀ {i j key}, t.owner? i = some key → t.owner? j = some key → i = j
  /-- No slot on the way to a contract's slot is without an owner. -/
  no_holes : ∀ {i key}, t.owner? i = some key →
    ∃ d < t.capacity, t.slotAt key d = i ∧ ∀ e < d, (t.owner? (t.slotAt key e)).isSome

/-- The owners are where a search finds them, and every bucket is as the settings ask for it. -/
structure WellFormed (t : ContractTable) : Prop extends Placed t where
  capacity_eq : t.capacity = t.config.capacity.toNat
  capacity_pos : 0 < t.capacity
  bucketSize_pos : 0 < t.config.bucketSize.toNat
  /-- A bucket without an owner is as good as new. -/
  released : ∀ {i b}, t.bucket? i = some b → b.key = .null → b = t.newBucket
  shape : ∀ {i b}, t.owned? i = some b →
    b.layout = t.config.layout ∧ b.capacity = t.config.bucketSize.toNat

/-! ### Where contracts are found -/

namespace Placed

/-- A search for a contract that owns a slot ends at that slot. -/
lemma probe_of_owned (h : t.Placed) (howned : t.owned? i = some b) :
    t.probe b.key = some (.occupied i b) := by
  have howner := owner?_eq_some howned
  obtain ⟨d, hd, hslot, hway⟩ := h.no_holes howner
  have hstop {n : Nat} (hpass : t.Passes b.key n) : ¬ d < n := by
    intro hlt
    obtain ⟨k, hk, hne⟩ := hpass d hlt
    rw [hslot, howner] at hk
    exact hne (Option.some.inj hk).symm
  have hprobed := Probed.of_probe (t := t) (ne_null_of_owner? howner)
  generalize t.probe b.key = p at hprobed
  cases hprobed with
  | @occupied j n c hslot' hn hpass hfound hkey =>
    have hsame : j = i := h.owner_injective (owner?_eq_some_iff.mpr ⟨c, hfound, hkey⟩) howner
    rw [hsame, howned] at hfound
    rw [hsame, Option.some.inj hfound]
  | @free j n hslot' hn hpass hfree =>
    rcases Nat.lt_trichotomy n d with hlt | rfl | hlt
    · have hsome := hway n hlt
      rw [hslot', owner?_eq_none_iff.mpr hfree] at hsome
      cases hsome
    · rw [← hslot', hslot, howned] at hfree
      cases hfree
    · exact absurd hlt (hstop hpass)
  | none hpass => exact absurd hd (hstop hpass)

/-- The contracts found are those that own a slot. -/
lemma entry?_eq_some_iff (h : t.Placed) :
    t.entry? key = some ⟨i, b⟩ ↔ t.owned? i = some b ∧ b.key = key := by
  constructor
  · intro hentry
    have hkey : key ≠ .null := by
      rintro rfl
      cases hentry
    have hprobed := Probed.of_probe (t := t) hkey
    unfold entry? at hentry
    generalize t.probe key = p at hprobed hentry
    cases hprobed with
    | occupied _ _ _ hfound hkey =>
      cases hentry
      exact ⟨hfound, hkey⟩
    | free => cases hentry
    | none => cases hentry
  · rintro ⟨howned, rfl⟩
    unfold entry?
    rw [h.probe_of_owned howned]

lemma owned?_of_entry? (h : t.Placed) {entry : Entry} (hentry : t.entry? key = some entry) :
    t.owned? entry.slot = some entry.bucket ∧ entry.bucket.key = key :=
  h.entry?_eq_some_iff.mp hentry

lemma bucket?_eq_owned? (h : t.Placed) (hi : i ∈ t.used.toList) : t.bucket? i = t.owned? i := by
  obtain ⟨key, hkey⟩ := Option.isSome_iff_exists.mp ((h.mem_used_iff i).mp hi)
  obtain ⟨b, hb, -⟩ := owner?_eq_some_iff.mp hkey
  rw [hb, (owned?_eq_some_iff.mp hb).1]

end Placed

/-! ### What claiming comes to -/

/-- A claim that is refused leaves the table as it is. -/
lemma claim_eq (t : ContractTable) (key : ContractKey) :
    claim key t =
      if key.isNull then .error .nullKey t
      else
        match t.probe key with
        | some (.occupied slot bucket) => .ok { slot, bucket } t
        | some (.free slot) => .ok (t.claimSlot slot key).1 (t.claimSlot slot key).2
        | none => .error (.tableFull t.capacity) t := by
  rw [claim]
  split_ifs
  · rfl
  · change (get >>= _ : Call Entry) t = _
    rw [get_bind]
    rcases t.probe key with _ | _ | _ <;> rfl

/-- What claiming a slot for a contract can come to. -/
inductive Claimed (t : ContractTable) (key : ContractKey) :
    EStateM.Result Error ContractTable Entry → Prop
  | null (hkey : key = .null) : Claimed t key (.error .nullKey t)
  /-- The contract has a slot already. -/
  | known {i : Nat} {b : Bucket} (howned : t.owned? i = some b) (hkey : b.key = key) :
      Claimed t key (.ok { slot := i, bucket := b } t)
  /-- The contract gets the first slot on its way round that has no owner. -/
  | new {i d : Nat} (hkey : key ≠ .null) (hnew : ∀ i, t.owner? i ≠ some key)
      (hslot : t.slotAt key d = i) (hd : d < t.capacity)
      (hway : ∀ e < d, (t.owner? (t.slotAt key e)).isSome) (hfree : t.owned? i = none) :
      Claimed t key (.ok (t.claimSlot i key).1 (t.claimSlot i key).2)
  | full (hkey : key ≠ .null) (hnew : ∀ i, t.owner? i ≠ some key)
      (hfull : ∀ i < t.capacity, (t.owner? i).isSome) :
      Claimed t key (.error (.tableFull t.capacity) t)

lemma Claimed.of_claim (h : t.Placed) (key : ContractKey) : Claimed t key (claim key t) := by
  rw [claim_eq]
  by_cases hkey : key = .null
  · rw [if_pos (ContractKey.isNull_iff.mpr hkey)]
    exact .null hkey
  rw [if_neg (fun hnull => hkey (ContractKey.isNull_iff.mp hnull))]
  have hprobed := Probed.of_probe (t := t) hkey
  -- A search that does not end at a slot of the key shows that the key owns none.
  have hnew (hno : ∀ i b, t.probe key ≠ some (.occupied i b)) (i : Nat) :
      t.owner? i ≠ some key := by
    intro howner
    obtain ⟨b, hb, rfl⟩ := owner?_eq_some_iff.mp howner
    exact hno i b (h.probe_of_owned hb)
  generalize t.probe key = p at hprobed hnew
  cases hprobed with
  | occupied _ _ _ howned hkey => exact .known howned hkey
  | free hslot hd hpass hfree =>
    refine .new hkey (hnew (by simp)) hslot hd ?_ hfree
    intro e he
    obtain ⟨k, hk, -⟩ := hpass e he
    simp [hk]
  | none hpass =>
    refine .full hkey (hnew (by simp)) ?_
    intro i hi
    obtain ⟨d, hd, rfl⟩ := exists_slotAt hi key
    obtain ⟨k, hk, -⟩ := hpass d hd
    simp [hk]

/-! ### What keeps a table well-formed -/

lemma validate_eq_ok_iff {config : TableConfig} :
    config.validate = .ok () ↔ 0 < config.capacity.toNat ∧ 0 < config.bucketSize.toNat := by
  have hpos (n : UInt64) : 0 < n.toNat ↔ n ≠ 0 := by
    rw [ne_eq, ← UInt64.toNat_inj, Nat.pos_iff_ne_zero]
    rfl
  rw [hpos, hpos, TableConfig.validate]
  split_ifs with hcapacity hsize <;> simp [*]

/-- A table with settings that can be used starts out empty. -/
lemma ofConfig_eq_ok_iff {config : TableConfig} :
    ofConfig config = .ok t ↔ config.validate = .ok () ∧
      t = { config, slots := .replicate config.capacity.toNat none, used := #[] } := by
  rw [ofConfig]
  cases config.validate with
  | error e => simp [bind, Except.bind]
  | ok => simp [bind, Except.bind, pure, Except.pure, eq_comm]

lemma bucket?_replicate (config : TableConfig) (n : Nat) (used : Array Nat) (i : Nat) :
    bucket? { config, slots := .replicate n none, used } i = none := by
  rw [bucket?, Array.getElem?_replicate]
  split_ifs <;> rfl

/-- A table without owners is well-formed if its slots and buckets are as the settings ask. -/
lemma WellFormed.of_no_owner (hused : t.used = #[]) (howned : ∀ i, t.owned? i = none)
    (hcapacity : t.capacity = t.config.capacity.toNat) (hpos : 0 < t.capacity)
    (hsize : 0 < t.config.bucketSize.toNat)
    (hreleased : ∀ {i b}, t.bucket? i = some b → b = t.newBucket) : t.WellFormed := by
  have howner (i : Nat) : t.owner? i = none := owner?_eq_none_iff.mpr (howned i)
  exact
    { nodup_used := by simp [hused]
      mem_used_iff := fun i => by simp [hused, howner]
      owner_injective := fun hi => by simp [howner] at hi
      no_holes := fun hi => by simp [howner] at hi
      capacity_eq := hcapacity
      capacity_pos := hpos
      bucketSize_pos := hsize
      released := fun hb _ => hreleased hb
      shape := fun hb => by simp [howned] at hb }

lemma WellFormed.of_ofConfig {config : TableConfig} (h : ofConfig config = .ok t) :
    t.WellFormed := by
  obtain ⟨hvalid, rfl⟩ := ofConfig_eq_ok_iff.mp h
  obtain ⟨hcapacity, hsize⟩ := validate_eq_ok_iff.mp hvalid
  have hslots : ({ config, slots := .replicate config.capacity.toNat none, used := #[] } :
      ContractTable).capacity = config.capacity.toNat := Array.size_replicate
  refine .of_no_owner rfl ?_ hslots (by omega) hsize ?_
  · intro i
    rw [owned?, bucket?_replicate]
    rfl
  · intro i b hb
    rw [bucket?_replicate] at hb
    cases hb

/-- The same contracts own the same slots of two tables. -/
structure SameOwners (t t' : ContractTable) : Prop where
  config : t'.config = t.config
  capacity : t'.capacity = t.capacity
  used : t'.used = t.used
  owner : ∀ i, t'.owner? i = t.owner? i

lemma Placed.congr (h : t.Placed) (hsame : SameOwners t t') : t'.Placed where
  nodup_used := hsame.used ▸ h.nodup_used
  mem_used_iff i := by
    rw [hsame.used, hsame.owner]
    exact h.mem_used_iff i
  owner_injective hi hj := by
    rw [hsame.owner] at hi hj
    exact h.owner_injective hi hj
  no_holes hi := by
    rw [hsame.owner] at hi
    simp only [slotAt_congr hsame.config hsame.capacity, hsame.capacity, hsame.owner]
    exact h.no_holes hi

lemma newBucket_congr (h : t'.config = t.config) : t'.newBucket = t.newBucket := by
  rw [newBucket, newBucket, h]

/-- A contract may change what its bucket holds. -/
lemma WellFormed.put (h : t.WellFormed) (howned : t.owned? i = some b) {c : Bucket}
    (hkey : c.key = b.key) (hlayout : c.layout = b.layout) (hcapacity : c.capacity = b.capacity) :
    (t.put i c).WellFormed := by
  have hi : i < t.capacity := lt_capacity_of_bucket? (owned?_eq_some_iff.mp howned).1
  have hnull : c.key ≠ .null := hkey ▸ (owned?_eq_some_iff.mp howned).2
  have hsame : SameOwners t (t.put i c) :=
    { config := rfl
      capacity := capacity_put t i c
      used := rfl
      owner := fun j => by
        rw [owner?, owner?, owned?_put hi hnull]
        split_ifs with hij
        · rw [← hij, howned, Option.map_some, Option.map_some, hkey]
        · rfl }
  refine { h.toPlaced.congr hsame with
    capacity_eq := hsame.capacity.trans h.capacity_eq
    capacity_pos := hsame.capacity ▸ h.capacity_pos
    bucketSize_pos := h.bucketSize_pos
    released := fun {j d} hd hfree => ?_
    shape := fun {j d} hd => ?_ }
  · rw [bucket?_put hi] at hd
    split_ifs at hd with hij
    · rw [← Option.some.inj hd] at hfree
      exact absurd hfree hnull
    · exact h.released hd hfree
  · rw [owned?_put hi hnull] at hd
    split_ifs at hd with hij
    · rw [← Option.some.inj hd, hlayout, hcapacity]
      exact h.shape howned
    · exact h.shape hd

/-! ### Claiming a slot -/

/-- The table once a slot without an owner belongs to a contract. -/
def give (t : ContractTable) (i : Nat) (key : ContractKey) : ContractTable :=
  { t.put i (t.newBucket.claim key) with used := t.used.push i }

@[simp] lemma config_give (t : ContractTable) (i : Nat) (key : ContractKey) :
    (t.give i key).config = t.config := rfl

@[simp] lemma used_give (t : ContractTable) (i : Nat) (key : ContractKey) :
    (t.give i key).used = t.used.push i := rfl

@[simp] lemma capacity_give (t : ContractTable) (i : Nat) (key : ContractKey) :
    (t.give i key).capacity = t.capacity :=
  capacity_put t i _

lemma bucket?_give (hi : i < t.capacity) (key : ContractKey) (j : Nat) :
    (t.give i key).bucket? j = if i = j then some (t.newBucket.claim key) else t.bucket? j :=
  bucket?_put hi (t.newBucket.claim key) j

lemma owned?_give (hi : i < t.capacity) (hkey : key ≠ .null) (j : Nat) :
    (t.give i key).owned? j = if i = j then some (t.newBucket.claim key) else t.owned? j :=
  owned?_put hi (b := t.newBucket.claim key) hkey j

lemma owner?_give (hi : i < t.capacity) (hkey : key ≠ .null) (j : Nat) :
    (t.give i key).owner? j = if i = j then some key else t.owner? j := by
  rw [owner?, owner?, owned?_give hi hkey]
  split_ifs <;> rfl

/-- A slot without an owner has a bucket that is as good as new, if any. -/
lemma WellFormed.claimSlot_eq (h : t.WellFormed) (hfree : t.owned? i = none)
    (key : ContractKey) :
    t.claimSlot i key = ({ slot := i, bucket := t.newBucket.claim key }, t.give i key) := by
  have hnew : (t.bucket? i).getD t.newBucket = t.newBucket := by
    cases hb : t.bucket? i with
    | none => rfl
    | some b =>
      refine h.released hb (by_contra fun hkey => ?_)
      rw [owned?_eq_some_iff.mpr ⟨hb, hkey⟩] at hfree
      cases hfree
  rw [claimSlot, hnew, give]

/-- A contract that gets the first slot on its way round that had no owner is found there. -/
lemma Placed.give (h : t.Placed) {d : Nat} (hkey : key ≠ .null)
    (hnew : ∀ i, t.owner? i ≠ some key) (hslot : t.slotAt key d = i) (hd : d < t.capacity)
    (hway : ∀ e < d, (t.owner? (t.slotAt key e)).isSome) (hfree : t.owned? i = none) :
    (t.give i key).Placed := by
  have hi : i < t.capacity := hslot ▸ slotAt_lt (Nat.zero_lt_of_lt hd) key d
  have hnone : t.owner? i = none := owner?_eq_none_iff.mpr hfree
  have hsome {j : Nat} (hj : (t.owner? j).isSome) : ((t.give i key).owner? j).isSome := by
    rw [owner?_give hi hkey]
    split_ifs
    · rfl
    · exact hj
  exact
    { nodup_used := by
        rw [used_give, Array.toList_push]
        refine h.nodup_used.append (List.nodup_singleton _) ?_
        rw [List.disjoint_singleton, h.mem_used_iff, hnone]
        simp
      mem_used_iff := fun j => by
        rw [used_give, Array.toList_push, List.mem_append, List.mem_singleton, h.mem_used_iff,
          owner?_give hi hkey]
        split_ifs with hj
        · simp [hj]
        · simp [Ne.symm hj]
      owner_injective := fun {j k owner} hj hk => by
        rw [owner?_give hi hkey] at hj hk
        split_ifs at hj hk with hij hik hik
        · exact hij.symm.trans hik
        · exact absurd (hk.trans hj.symm) (hnew k)
        · exact absurd (hj.trans hk.symm) (hnew j)
        · exact h.owner_injective hj hk
      no_holes := fun {j owner} hj => by
        rw [slotAt_congr (config_give t i key) (capacity_give t i key), capacity_give]
        rw [owner?_give hi hkey] at hj
        split_ifs at hj with hij
        · cases hj
          exact ⟨d, hd, hslot.trans hij, fun e he => hsome (hway e he)⟩
        · obtain ⟨n, hn, hslot', hway'⟩ := h.no_holes hj
          exact ⟨n, hn, hslot', fun e he => hsome (hway' e he)⟩ }

lemma WellFormed.give (h : t.WellFormed) {d : Nat} (hkey : key ≠ .null)
    (hnew : ∀ i, t.owner? i ≠ some key) (hslot : t.slotAt key d = i) (hd : d < t.capacity)
    (hway : ∀ e < d, (t.owner? (t.slotAt key e)).isSome) (hfree : t.owned? i = none) :
    (t.give i key).WellFormed := by
  have hi : i < t.capacity := hslot ▸ slotAt_lt h.capacity_pos key d
  refine { h.toPlaced.give hkey hnew hslot hd hway hfree with
    capacity_eq := (capacity_give t i key).trans h.capacity_eq
    capacity_pos := (capacity_give t i key).symm ▸ h.capacity_pos
    bucketSize_pos := h.bucketSize_pos
    released := fun {j b} hb hnull => ?_
    shape := fun {j b} hb => ?_ }
  · rw [bucket?_give hi] at hb
    split_ifs at hb
    · rw [← Option.some.inj hb] at hnull
      exact absurd hnull hkey
    · exact h.released hb hnull
  · rw [owned?_give hi hkey] at hb
    split_ifs at hb
    · rw [← Option.some.inj hb]
      exact ⟨Bucket.layout_empty t.config.layout t.config.bucketSize.toNat, rfl⟩
    · exact h.shape hb

/-! ### Changing and releasing the buckets of all owners -/

lemma Placed.owned?_eq_none (h : t.Placed) (hi : i ∉ t.used.toList) : t.owned? i = none := by
  rw [h.mem_used_iff, Bool.not_eq_true, Option.isSome_eq_false_iff, Option.isNone_iff_eq_none] at hi
  exact owner?_eq_none_iff.mp hi

lemma Placed.owned?_flush (h : t.Placed) (i : Nat) :
    t.flush.owned? i = (t.owned? i).map Bucket.flush := by
  by_cases hi : i ∈ t.used.toList
  · rw [owned?, flush, bucket?_mapUsed h.nodup_used, if_pos hi, h.bucket?_eq_owned? hi]
    cases howned : t.owned? i with
    | none => rfl
    | some b =>
      have hclaimed : b.flush.isClaimed = true :=
        Bucket.isClaimed_iff.mpr (owned?_eq_some_iff.mp howned).2
      rw [Option.map_some, Option.filter_some, if_pos hclaimed]
  · rw [owned?, flush, bucket?_mapUsed h.nodup_used, if_neg hi, ← owned?, h.owned?_eq_none hi]
    rfl

/-- Contracts may drop all their ticks together. -/
lemma WellFormed.flush (h : t.WellFormed) : t.flush.WellFormed := by
  have hsame : SameOwners t t.flush :=
    { config := rfl
      capacity := capacity_mapUsed t _
      used := rfl
      owner := fun i => by
        rw [owner?, owner?, h.owned?_flush, Option.map_map]
        rfl }
  refine { h.toPlaced.congr hsame with
    capacity_eq := hsame.capacity.trans h.capacity_eq
    capacity_pos := hsame.capacity ▸ h.capacity_pos
    bucketSize_pos := h.bucketSize_pos
    released := fun {i b} hb hnull => ?_
    shape := fun {i b} hb => ?_ }
  · rw [ContractTable.flush, bucket?_mapUsed h.nodup_used] at hb
    split_ifs at hb with hi
    · obtain ⟨c, hc, rfl⟩ := Option.map_eq_some_iff.mp hb
      rw [h.bucket?_eq_owned? hi] at hc
      exact absurd hnull (owned?_eq_some_iff.mp hc).2
    · exact h.released hb hnull
  · rw [h.owned?_flush] at hb
    obtain ⟨c, hc, rfl⟩ := Option.map_eq_some_iff.mp hb
    rw [Bucket.layout_flush, Bucket.capacity_flush]
    exact h.shape hc

/-- A rinsed table has the buckets it had, all of them as good as new. -/
lemma WellFormed.bucket?_rinse (h : t.WellFormed) (i : Nat) :
    t.rinse.bucket? i = (t.bucket? i).map fun _ => t.newBucket := by
  rw [show t.rinse.bucket? i = (t.mapUsed Bucket.rinse).bucket? i from rfl,
    bucket?_mapUsed h.nodup_used]
  split_ifs with hi
  · rw [h.bucket?_eq_owned? hi]
    refine Option.map_congr fun b hb => ?_
    obtain ⟨hlayout, hcapacity⟩ := h.shape hb
    rw [Bucket.rinse_eq_empty, hlayout, hcapacity]
    rfl
  · cases hb : t.bucket? i with
    | none => rfl
    | some b =>
      have hnull : b.key = .null := by
        by_contra hkey
        have := h.owned?_eq_none hi
        rw [owned?_eq_some_iff.mpr ⟨hb, hkey⟩] at this
        cases this
      rw [h.released hb hnull]
      rfl

lemma WellFormed.owned?_rinse (h : t.WellFormed) (i : Nat) : t.rinse.owned? i = none := by
  rw [owned?, h.bucket?_rinse]
  cases t.bucket? i <;> rfl

/-- All contracts may lose their slots together. -/
lemma WellFormed.rinse (h : t.WellFormed) : t.rinse.WellFormed := by
  have hcapacity : t.rinse.capacity = t.capacity := capacity_mapUsed t _
  refine .of_no_owner rfl h.owned?_rinse (hcapacity.trans h.capacity_eq)
    (hcapacity ▸ h.capacity_pos) h.bucketSize_pos ?_
  intro i b hb
  rw [h.bucket?_rinse] at hb
  obtain ⟨-, -, rfl⟩ := Option.map_eq_some_iff.mp hb
  rfl

end ContractTable

end Candlestick
