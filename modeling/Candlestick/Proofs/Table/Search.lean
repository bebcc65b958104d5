import Candlestick.Proofs.Table.Refinement
import Mathlib.Data.List.Range
import Mathlib.Order.Bounds.Basic

/-!
# Which slots a search looks at

A search for a key goes from slot to slot, from the key's home on and round past the last slot, and
stops at the first slot that the key owns or that nobody owns (`ContractTable.scan`). It looks at no
slot twice, and what stands in the slots that it does not look at does not matter. In a table that
can be reached it finds the slot of the key if there is one, and else the slot that the key gets
when it is claimed (`ContractTable.SearchedExactly`, `ContractTable.run_searchedExactly`).
-/

namespace Candlestick

namespace ContractTable

variable {t t' : ContractTable} {config : TableConfig} {key : ContractKey} {p : Probe}
variable {i j d left : Nat}

/-! ### Going from slot to slot -/

/-- The slot after a slot, going round. -/
def nextSlot (t : ContractTable) (slot : Nat) : Nat :=
  if slot + 1 = t.capacity then 0 else slot + 1

/-- Looks for a key in `left` slots from a slot on, and notes each slot looked at. -/
def scan (t : ContractTable) (key : ContractKey) : (left slot : Nat) → List Nat × Option Probe
  | 0, _ => ([], none)
  | left + 1, slot =>
    match Probe.ofOwned key slot (t.owned? slot) with
    | some p => ([slot], some p)
    | none => (slot :: (t.scan key left (t.nextSlot slot)).1, (t.scan key left (t.nextSlot slot)).2)

/-- The slots that the search for a key looks at, in order. -/
def inspected (t : ContractTable) (key : ContractKey) : List Nat :=
  (t.scan key t.capacity (t.home key)).1

/-- The slot where a search ends. -/
def Probe.slot : Probe → Nat
  | occupied slot _ => slot
  | free slot => slot

lemma Probe.slot_of_ofOwned {o : Option Bucket} (h : Probe.ofOwned key i o = some p) :
    p.slot = i := by
  cases o with
  | none =>
    cases h
    rfl
  | some b =>
    rw [ofOwned] at h
    split_ifs at h
    cases h
    rfl

lemma scan_of_some (h : Probe.ofOwned key i (t.owned? i) = some p) (left : Nat) :
    t.scan key (left + 1) i = ([i], some p) := by
  rw [scan, h]

lemma scan_of_none (h : Probe.ofOwned key i (t.owned? i) = none) (left : Nat) :
    t.scan key (left + 1) i =
      (i :: (t.scan key left (t.nextSlot i)).1, (t.scan key left (t.nextSlot i)).2) := by
  rw [scan, h]

/-- A search that ends at a slot has looked at that slot last. -/
lemma getLast?_of_scan (h : (t.scan key left i).2 = some p) :
    (t.scan key left i).1.getLast? = some p.slot := by
  induction left generalizing i with
  | zero => cases h
  | succ left ih =>
    cases hends : Probe.ofOwned key i (t.owned? i) with
    | some q =>
      rw [scan_of_some hends] at h ⊢
      rw [← Option.some.inj h, Probe.slot_of_ofOwned hends]
      rfl
    | none =>
      rw [scan_of_none hends] at h ⊢
      rw [List.getLast?_cons, ih h, Option.getD_some]

/-- A search that ends nowhere has looked at all the slots it was to look at. -/
lemma length_of_scan (h : (t.scan key left i).2 = none) :
    (t.scan key left i).1.length = left := by
  induction left generalizing i with
  | zero => rfl
  | succ left ih =>
    cases hends : Probe.ofOwned key i (t.owned? i) with
    | some q =>
      rw [scan_of_some hends] at h
      cases h
    | none =>
      rw [scan_of_none hends] at h ⊢
      rw [List.length_cons, ih h]

/-- What a search comes to depends on the slots that it looks at and on no others. -/
lemma scan_congr (hcapacity : t'.capacity = t.capacity)
    (h : ∀ j ∈ (t.scan key left i).1, t'.owned? j = t.owned? j) :
    t'.scan key left i = t.scan key left i := by
  induction left generalizing i with
  | zero => rfl
  | succ left ih =>
    have hnext : t'.nextSlot i = t.nextSlot i := by rw [nextSlot, nextSlot, hcapacity]
    cases hends : Probe.ofOwned key i (t.owned? i) with
    | some q =>
      rw [scan_of_some hends] at h ⊢
      rw [scan_of_some (p := q) (by rw [h i List.mem_cons_self, hends])]
    | none =>
      rw [scan_of_none hends] at h ⊢
      obtain ⟨hi, hrest⟩ := List.forall_mem_cons.mp h
      rw [scan_of_none (by rw [hi, hends]), hnext, ih hrest]

/-! ### The way of a search -/

lemma nextSlot_slotAt (h : 0 < t.capacity) (key : ContractKey) (d : Nat) :
    t.nextSlot (t.slotAt key d) = t.slotAt key (d + 1) := by
  have hlt := slotAt_lt h key d
  rw [nextSlot, slotAt_succ]
  split_ifs with hlast
  · rw [hlast, Nat.mod_self]
  · rw [Nat.mod_eq_of_lt (by omega)]

/-- Going from slot to slot comes to the same as counting the steps from the key's home. -/
lemma snd_scan_slotAt (hleft : d + left = t.capacity) :
    (t.scan key left (t.slotAt key d)).2 = t.probeLast key left := by
  induction left generalizing d with
  | zero => rfl
  | succ left ih =>
    rw [probeLast, show t.capacity - (left + 1) = d by omega]
    cases hvisit : t.visit key d with
    | some p => rw [scan_of_some hvisit, Option.some_or]
    | none => rw [scan_of_none hvisit, nextSlot_slotAt (by omega), ih (by omega), Option.none_or]

/-- The slots that a search looks at are the next ones on the way round. -/
lemma fst_scan_slotAt (hpos : 0 < t.capacity) (key : ContractKey) (left d : Nat) :
    ∃ n ≤ left, (t.scan key left (t.slotAt key d)).1 = (List.range' d n).map (t.slotAt key) := by
  induction left generalizing d with
  | zero => exact ⟨0, Nat.le_refl 0, rfl⟩
  | succ left ih =>
    cases hvisit : t.visit key d with
    | some p => exact ⟨1, by omega, by rw [scan_of_some hvisit]; rfl⟩
    | none =>
      obtain ⟨n, hn, hslots⟩ := ih (d + 1)
      refine ⟨n + 1, by omega, ?_⟩
      rw [scan_of_none hvisit, nextSlot_slotAt hpos, hslots, List.range'_succ, List.map_cons]

/-! ### Where a search ends -/

/-- A slot that nobody has claimed: it has no bucket yet, or its bucket has been released. -/
def IsUnclaimed (t : ContractTable) (slot : Nat) : Prop :=
  t.slots[slot]? = some none ∨ ∃ b, t.slots[slot]? = some (some b) ∧ b.key = .null

lemma isUnclaimed_iff (hi : i < t.capacity) : t.IsUnclaimed i ↔ t.owned? i = none := by
  rw [IsUnclaimed, owned?, bucket?, Array.getElem?_eq_getElem hi, Option.join_some,
    Option.filter_eq_none_iff]
  cases t.slots[i] with
  | none => simp
  | some b => simp [Bucket.isClaimed_iff]

/-- A slot is the first unclaimed one on the way round from the key's home. -/
def IsFirstUnclaimed (t : ContractTable) (key : ContractKey) (slot : Nat) : Prop :=
  ∃ d, IsLeast {d | d < t.capacity ∧ t.IsUnclaimed (t.slotAt key d)} d ∧ t.slotAt key d = slot

lemma IsFirstUnclaimed.unique (hi : t.IsFirstUnclaimed key i) (hj : t.IsFirstUnclaimed key j) :
    i = j := by
  obtain ⟨d, hd, rfl⟩ := hi
  obtain ⟨e, he, rfl⟩ := hj
  rw [hd.unique he]

lemma isFirstUnclaimed_of_passes (hslot : t.slotAt key d = i) (hd : d < t.capacity)
    (hpass : t.Passes key d) (hfree : t.owned? i = none) : t.IsFirstUnclaimed key i := by
  have hlt (e : Nat) : t.slotAt key e < t.capacity := slotAt_lt (Nat.zero_lt_of_lt hd) key e
  refine ⟨d, ⟨⟨hd, ?_⟩, ?_⟩, hslot⟩
  · rwa [isUnclaimed_iff (hlt d), hslot]
  · rintro e ⟨-, he⟩
    by_contra hed
    obtain ⟨k, hk, -⟩ := hpass e (Nat.lt_of_not_le hed)
    rw [isUnclaimed_iff (hlt e), ← owner?_eq_none_iff, hk] at he
    cases he

/-- A search ends nowhere if all slots have other owners, and only then. -/
lemma probe_eq_none_iff (hkey : key ≠ .null) :
    t.probe key = none ↔ ∀ i < t.capacity, ∃ k, t.owner? i = some k ∧ k ≠ key := by
  have hprobed := Probed.of_probe (t := t) hkey
  generalize t.probe key = p at hprobed
  constructor
  · rintro rfl i hi
    obtain ⟨d, hd, rfl⟩ := exists_slotAt hi key
    cases hprobed with
    | none hpass => exact hpass d hd
  · intro hall
    cases hprobed with
    | occupied hslot hd _ howned hkey =>
      obtain ⟨k, hk, hne⟩ := hall _ (hslot ▸ slotAt_lt (Nat.zero_lt_of_lt hd) key _)
      rw [owner?_eq_some howned, hkey] at hk
      exact absurd (Option.some.inj hk).symm hne
    | free hslot hd _ hfree =>
      obtain ⟨k, hk, -⟩ := hall _ (hslot ▸ slotAt_lt (Nat.zero_lt_of_lt hd) key _)
      rw [owner?_eq_none_iff.mpr hfree] at hk
      cases hk
    | none => rfl

namespace Placed

lemma probe_eq_occupied_iff (h : t.Placed) {b : Bucket} :
    t.probe key = some (.occupied i b) ↔ t.owned? i = some b ∧ b.key = key := by
  rw [← h.entry?_eq_some_iff, entry?]
  cases t.probe key with
  | none => simp
  | some p => cases p <;> simp

/-- A search ends at an unclaimed slot if the key owns none, and at the first one. -/
lemma probe_eq_free_iff (h : t.Placed) (hkey : key ≠ .null) :
    t.probe key = some (.free i) ↔ (∀ j, t.owner? j ≠ some key) ∧ t.IsFirstUnclaimed key i := by
  have hprobed := Probed.of_probe (t := t) hkey
  constructor
  · intro hprobe
    constructor
    · intro j hj
      obtain ⟨b, hb, rfl⟩ := owner?_eq_some_iff.mp hj
      rw [h.probe_of_owned hb] at hprobe
      cases hprobe
    · rw [hprobe] at hprobed
      cases hprobed with
      | free hslot hd hpass hfree => exact isFirstUnclaimed_of_passes hslot hd hpass hfree
  · rintro ⟨hnew, hfirst⟩
    generalize t.probe key = p at hprobed
    cases hprobed with
    | occupied _ _ _ howned hkey => exact absurd (owner?_eq_some_iff.mpr ⟨_, howned, hkey⟩) (hnew _)
    | free hslot hd hpass hfree =>
      rw [(isFirstUnclaimed_of_passes hslot hd hpass hfree).unique hfirst]
    | none hpass =>
      obtain ⟨d, ⟨⟨hd, hunclaimed⟩, -⟩, rfl⟩ := hfirst
      obtain ⟨k, hk, -⟩ := hpass d hd
      rw [isUnclaimed_iff (lt_capacity_of_owner? hk), ← owner?_eq_none_iff, hk] at hunclaimed
      cases hunclaimed

end Placed

/-- A contract gets a slot if it owns none, and gets the first unclaimed one. -/
lemma WellFormed.claim_new_iff (h : t.WellFormed) (hkey : key ≠ .null) :
    (∃ b u, claim key t = .ok ⟨i, b⟩ u ∧ u.used = t.used.push i ∧ u.owner? i = some key) ↔
      (∀ j, t.owner? j ≠ some key) ∧ t.IsFirstUnclaimed key i := by
  have hnull := ContractKey.isNull_eq_false_iff.mpr hkey
  rw [← h.probe_eq_free_iff hkey]
  cases hprobe : t.probe key with
  | none => simp [claim_eq, hnull, hprobe]
  | some p =>
    cases p with
    | occupied slot b =>
      have hclaim : claim key t = .ok ⟨slot, b⟩ t := by
        rw [claim_eq, hnull, hprobe]
        rfl
      rw [hclaim]
      constructor
      · rintro ⟨c, u, heq, hused, -⟩
        cases heq
        have hsize := congrArg Array.size hused
        rw [Array.size_push] at hsize
        omega
      · intro heq
        cases heq
    | free slot =>
      obtain ⟨-, d, ⟨⟨hd, hunclaimed⟩, -⟩, rfl⟩ := (h.probe_eq_free_iff hkey).mp hprobe
      have hlt := slotAt_lt h.capacity_pos key d
      have hclaim : claim key t =
          .ok ⟨t.slotAt key d, t.newBucket.claim key⟩ (t.give (t.slotAt key d) key) := by
        rw [claim_eq, hnull, hprobe]
        dsimp only
        rw [h.claimSlot_eq ((isUnclaimed_iff hlt).mp hunclaimed) key]
        rfl
      rw [hclaim]
      constructor
      · rintro ⟨c, u, heq, -, -⟩
        cases heq
        rfl
      · intro heq
        cases heq
        refine ⟨_, _, rfl, rfl, ?_⟩
        rw [owner?_give hlt hkey, if_pos rfl]

/-! ### What a search comes to -/

/-- What a search for a key looks at, where it ends, and what this says about the table. -/
structure SearchedExactly (t : ContractTable) (key : ContractKey) : Prop where
  /-- The search goes from slot to slot, and back to the first one from the last. -/
  scan_eq : t.probe key = (t.scan key t.capacity (t.home key)).2
  inspected_eq : ∃ n ≤ t.capacity, t.inspected key =
    (List.range n).map fun d => ((t.config.hasher.hash key).toNat % t.capacity + d) % t.capacity
  nodup_inspected : (t.inspected key).Nodup
  lt_size : ∀ i ∈ t.inspected key, i < t.slots.size
  ends : ∀ p, t.probe key = some p → (t.inspected key).getLast? = some p.slot
  goes_round : t.probe key = none → (t.inspected key).length = t.capacity
  /-- Whatever stands in the other slots does not matter. -/
  depends : ∀ t' : ContractTable, t'.config = t.config → t'.capacity = t.capacity →
    (∀ i ∈ t.inspected key, t'.owned? i = t.owned? i) → t'.probe key = t.probe key
  occupied_iff : ∀ i b, t.probe key = some (.occupied i b) ↔ t.owned? i = some b ∧ b.key = key
  owner_unique : ∀ i j, t.owner? i = some key → t.owner? j = some key → i = j
  free_iff : ∀ i, t.probe key = some (.free i) ↔
    (∀ j, t.owner? j ≠ some key) ∧ t.IsFirstUnclaimed key i
  none_iff : t.probe key = none ↔ ∀ i < t.capacity, ∃ k, t.owner? i = some k ∧ k ≠ key
  /-- The slot of a new contract is the one where the search for it ends. -/
  claim_new_iff : ∀ i,
    (∃ b u, claim key t = .ok ⟨i, b⟩ u ∧ u.used = t.used.push i ∧ u.owner? i = some key) ↔
      (∀ j, t.owner? j ≠ some key) ∧ t.IsFirstUnclaimed key i

lemma probe_eq_scan (hpos : 0 < t.capacity) (hkey : key ≠ .null) :
    t.probe key = (t.scan key t.capacity (t.home key)).2 := by
  rw [probe, ContractKey.isNull_eq_false_iff.mpr hkey, ← slotAt_zero hpos,
    snd_scan_slotAt (Nat.zero_add _)]
  rfl

lemma exists_inspected_eq (hpos : 0 < t.capacity) (key : ContractKey) :
    ∃ n ≤ t.capacity, t.inspected key = (List.range n).map (t.slotAt key) := by
  obtain ⟨n, hn, hslots⟩ := fst_scan_slotAt hpos key t.capacity 0
  refine ⟨n, hn, ?_⟩
  rw [inspected, ← slotAt_zero hpos, hslots, List.range_eq_range']

lemma WellFormed.searchedExactly (h : t.WellFormed) (hkey : key ≠ .null) :
    t.SearchedExactly key := by
  have hscan := probe_eq_scan h.capacity_pos hkey
  obtain ⟨n, hn, hslots⟩ := exists_inspected_eq h.capacity_pos key
  exact
    { scan_eq := hscan
      inspected_eq := by
        have hway : t.slotAt key = fun d =>
            ((t.config.hasher.hash key).toNat % t.capacity + d) % t.capacity := by
          funext d
          rw [slotAt, home]
        exact ⟨n, hn, hway ▸ hslots⟩
      nodup_inspected := by
        rw [hslots]
        refine List.nodup_range.map_on ?_
        intro d hd e he heq
        rw [List.mem_range] at hd he
        exact slotAt_injective (hd.trans_le hn) (he.trans_le hn) heq
      lt_size := by
        intro i hi
        rw [hslots] at hi
        obtain ⟨d, -, rfl⟩ := List.mem_map.mp hi
        exact slotAt_lt h.capacity_pos key d
      ends := fun p hp => getLast?_of_scan (hscan.symm.trans hp)
      goes_round := fun hnone => length_of_scan (hscan.symm.trans hnone)
      depends := by
        intro t' hconfig hcapacity howned
        have hhome : t'.home key = t.home key := by rw [home, home, hconfig, hcapacity]
        rw [hscan, probe_eq_scan (hcapacity ▸ h.capacity_pos) hkey, hcapacity, hhome,
          scan_congr hcapacity howned]
      occupied_iff := fun i b => h.probe_eq_occupied_iff
      owner_unique := fun i j => h.owner_injective
      free_iff := fun i => h.probe_eq_free_iff hkey
      none_iff := probe_eq_none_iff hkey
      claim_new_iff := fun i => h.claim_new_iff hkey }

/--
In every table that can be reached, the search for a key looks at the slots on the way round from
the key's home one after the other and stops at the first one that is the key's or nobody's. It
finds the slot of the key if there is one, otherwise the first slot that is free, which is the slot
that the key gets.
-/
theorem run_searchedExactly (h : ofConfig config = .ok t) (ops : List Operation)
    (hkey : key ≠ .null) : (t.run ops).2.SearchedExactly key :=
  (refines_run_of_ofConfig h ops).1.searchedExactly hkey

/-- Past the last slot a search goes on with the first one, which has been released. -/
theorem run_searchedExactly_collision :
    ∃ t, ofConfig ⟨3, 1, .flat, 0⟩ = .ok t ∧ (⟨2, 3, 1⟩ : ContractKey) ≠ .null ∧
      (t.run [.claim ⟨1, 2, 3⟩ [], .claim ⟨3, 1, 2⟩ [], .rinse, .claim ⟨3, 1, 2⟩ []]).2.inspected
        ⟨2, 3, 1⟩ = [2, 0] ∧
      (t.run [.claim ⟨1, 2, 3⟩ [], .claim ⟨3, 1, 2⟩ [], .rinse, .claim ⟨3, 1, 2⟩ []]).2.bucket? 0 =
        some (.empty .flat 1) ∧
      (t.run [.claim ⟨1, 2, 3⟩ [], .claim ⟨3, 1, 2⟩ [], .rinse,
        .claim ⟨3, 1, 2⟩ []]).2.IsFirstUnclaimed ⟨2, 3, 1⟩ 0 := by
  obtain ⟨t, ht⟩ : ∃ t, ofConfig ⟨3, 1, .flat, 0⟩ = .ok t := ⟨_, rfl⟩
  have hkey : (⟨2, 3, 1⟩ : ContractKey) ≠ .null := by decide
  have hsearched := run_searchedExactly ht
    [.claim ⟨1, 2, 3⟩ [], .claim ⟨3, 1, 2⟩ [], .rinse, .claim ⟨3, 1, 2⟩ []] hkey
  refine ⟨t, ht, hkey, ?_, ?_, ((hsearched.free_iff 0).mp ?_).2⟩
  · cases ht
    rfl
  · cases ht
    rfl
  · cases ht
    rfl

end ContractTable

end Candlestick
