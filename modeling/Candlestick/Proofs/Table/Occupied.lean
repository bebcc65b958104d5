import Candlestick.Proofs.Table.Invariant
import Mathlib.Data.Nat.Find
import Mathlib.Order.Interval.Finset.Nat

/-!
# The slots that contracts take up together

In which slot a contract is stored depends on the order of claims, but which slots are taken up
does not. No slot on the way to a contract's slot is without an owner, and that alone determines
the slots in use: fewer contracts use fewer of them (`Placed.used_subset`). So the contracts of a
period find all the buckets they need when they come back after a rinse
(`ContractTable.used_of_claims`).
-/

namespace Candlestick

/-! ### Claims one after the other -/

/-- Claims a slot for each contract in turn. -/
def Operation.claimEach (keys : List ContractKey) : List Operation :=
  keys.map (.claim · [])

/-- An operation adds no contract but the one that it claims a slot for. -/
lemma Operation.mem_noteClaim {keys : List ContractKey} {op : Operation} {answer : Answer}
    {key : ContractKey} (h : key ∈ noteClaim keys (op, answer)) :
    key ∈ keys ∨ ∃ changes, op = .claim key changes := by
  cases op with
  | claim k changes =>
    cases answer with
    | handed b errors =>
      rw [noteClaim] at h
      split_ifs at h
      · exact .inl h
      · rcases List.mem_append.mp h with hkey | hkey
        · exact .inl hkey
        · rw [List.mem_singleton.mp hkey]
          exact .inr ⟨changes, rfl⟩
    | done | absent | refused e => exact .inl h
  | rinse => cases h
  | find k changes | flush => exact .inl h

namespace Roster

/-- Contracts that are new and have room are all added, in the order of their claims. -/
lemma run_claimEach {capacity : Nat} (new : Bucket) {m : Roster} {keys : List ContractKey}
    (hnodup : (m.map Prod.fst ++ keys).Nodup) (hnull : .null ∉ keys)
    (hroom : m.length + keys.length ≤ capacity) :
    m.run capacity new (Operation.claimEach keys) =
      (keys.map fun key => .handed (new.claim key) [],
        m ++ keys.map fun key => (key, new.claim key)) := by
  induction keys generalizing m with
  | nil => rw [List.map_nil, List.map_nil, List.append_nil]; rfl
  | cons key keys ih =>
    obtain ⟨hkey, hnull⟩ := not_or.mp (mt List.mem_cons.mpr hnull)
    have hnew : m.lookup key = none := by
      rw [Option.eq_none_iff_forall_ne_some]
      intro b hb
      exact List.disjoint_of_nodup_append hnodup (mem_keys_of_lookup hb) List.mem_cons_self
    have hlt : m.length < capacity := by
      rw [List.length_cons] at hroom
      omega
    have hclaim : m.perform capacity new (.claim key []) =
        (.handed (new.claim key) [], m ++ [(key, new.claim key)]) := by
      rw [perform, claim, if_neg (Ne.symm hkey), hnew, if_pos hlt]
      exact congrArg _ (set_append hnew _ _)
    rw [show Operation.claimEach (key :: keys) = .claim key [] :: Operation.claimEach keys from rfl,
      run, hclaim, ih]
    · rw [List.append_assoc]
      rfl
    · rwa [List.map_append, List.append_assoc]
    · exact hnull
    · rw [List.length_append, List.length_singleton]
      rw [List.length_cons] at hroom
      omega

end Roster

namespace ContractTable

variable {t t' : ContractTable} {config : TableConfig} {key : ContractKey} {i j d m p q r : Nat}

/-! ### Going back -/

/-- The slot that is `steps` further back than slot `i`, going round. -/
def slotBefore (t : ContractTable) (i steps : Nat) : Nat :=
  (i + t.capacity - steps) % t.capacity

lemma slotBefore_eq (hi : i < t.capacity) (hq : q < t.capacity) :
    t.slotBefore i q = if q ≤ i then i - q else i + t.capacity - q := by
  rw [slotBefore]
  split_ifs with hle
  · rw [show i + t.capacity - q = i - q + t.capacity by omega, Nat.add_mod_right,
      Nat.mod_eq_of_lt (by omega)]
  · exact Nat.mod_eq_of_lt (by omega)

lemma slotBefore_zero (hi : i < t.capacity) : t.slotBefore i 0 = i :=
  slotBefore_eq hi (Nat.zero_lt_of_lt hi)

lemma slotBefore_injective (hi : i < t.capacity) (hq : q < t.capacity) (hr : r < t.capacity)
    (h : t.slotBefore i q = t.slotBefore i r) : q = r := by
  rw [slotBefore_eq hi hq, slotBefore_eq hi hr] at h
  split_ifs at h <;> omega

/-- A key whose way leads to a slot in `p` steps is `p - d` slots before it after `d` of them. -/
lemma slotAt_eq_slotBefore (hp : p < t.capacity) (hslot : t.slotAt key p = i) (hd : d ≤ p) :
    t.slotAt key d = t.slotBefore i (p - d) := by
  have hhome := home_lt (Nat.zero_lt_of_lt hp) key
  have hi : i < t.capacity := hslot ▸ slotAt_lt (Nat.zero_lt_of_lt hp) key p
  rw [slotBefore_eq hi (by omega)]
  rw [slotAt] at hslot ⊢
  rcases Nat.lt_or_ge (t.home key + p) t.capacity with hlt | hge
  · rw [Nat.mod_eq_of_lt hlt] at hslot
    rw [Nat.mod_eq_of_lt (by omega), if_pos (by omega)]
    omega
  · rw [Nat.mod_eq_sub_mod hge, Nat.mod_eq_of_lt (by omega)] at hslot
    rcases Nat.lt_or_ge (t.home key + d) t.capacity with hlt | hge'
    · rw [Nat.mod_eq_of_lt hlt, if_neg (by omega)]
      omega
    · rw [Nat.mod_eq_sub_mod hge', Nat.mod_eq_of_lt (by omega), if_pos (by omega)]
      omega

/-! ### Runs of used slots -/

namespace Placed

/-- A contract whose way leads to a slot without an owner is stored before that slot. -/
lemma exists_slotBefore (h : t.Placed) (howner : t.owner? j = some key) (hp : p < t.capacity)
    (hslot : t.slotAt key p = i) (hfree : t.owner? i = none) :
    ∃ q, 0 < q ∧ q ≤ p ∧ t.owner? (t.slotBefore i q) = some key := by
  obtain ⟨d, hd, hown, hway⟩ := h.no_holes howner
  have hlt : d < p := by
    by_contra hle
    rcases Nat.eq_or_lt_of_not_lt hle with rfl | hlt
    · rw [← hslot, hown, howner] at hfree
      cases hfree
    · have hsome := hway p hlt
      rw [hslot, hfree] at hsome
      cases hsome
  refine ⟨p - d, by omega, by omega, ?_⟩
  rw [← slotAt_eq_slotBefore hp hslot (by omega), hown, howner]

/-- The contracts stored in a run of slots start their ways in it, if no slot before it is used. -/
lemma lt_of_run (h : t.Placed) (hq : q < m) (hm : m ≤ t.capacity)
    (hfree : m < t.capacity → t.owner? (t.slotBefore i m) = none)
    (howner : t.owner? (t.slotBefore i q) = some key) (hp : p < t.capacity)
    (hslot : t.slotAt key p = i) : p < m := by
  by_contra hle
  have hi : i < t.capacity := hslot ▸ slotAt_lt (Nat.zero_lt_of_lt hp) key p
  obtain ⟨d, hd, hown, hway⟩ := h.no_holes howner
  have hpassed : p - m < d := by
    rcases Nat.lt_or_ge p d with hlt | hge
    · omega
    · rw [slotAt_eq_slotBefore hp hslot hge] at hown
      have := slotBefore_injective hi (by omega) (by omega) hown
      omega
  have hsome := hway (p - m) hpassed
  rw [slotAt_eq_slotBefore hp hslot (by omega), Nat.sub_sub_self (Nat.le_of_not_lt hle),
    hfree (by omega)] at hsome
  cases hsome

end Placed

/-- The used slots up to a given one, as far back as they go without a gap. -/
lemma exists_run (hi : i < t.capacity) (hused : (t.owner? i).isSome) :
    ∃ m, 0 < m ∧ m ≤ t.capacity ∧ (∀ q < m, (t.owner? (t.slotBefore i q)).isSome) ∧
      (m < t.capacity → t.owner? (t.slotBefore i m) = none) := by
  by_cases hgap : ∃ m, t.owner? (t.slotBefore i m) = none ∧ m < t.capacity
  · obtain ⟨hfree, hlt⟩ := Nat.find_spec hgap
    refine ⟨Nat.find hgap, ?_, hlt.le, ?_, fun _ => hfree⟩
    · rw [Nat.pos_iff_ne_zero]
      intro hzero
      rw [hzero, slotBefore_zero hi] at hfree
      rw [hfree] at hused
      cases hused
    · intro q hq
      have hmin := Nat.find_min hgap hq
      rw [not_and', ← ne_eq, Option.ne_none_iff_isSome] at hmin
      exact hmin (hq.trans hlt)
  · refine ⟨t.capacity, Nat.zero_lt_of_lt hi, Nat.le_refl _, ?_, fun hlt => absurd hlt (by omega)⟩
    intro q hq
    rw [← Option.ne_none_iff_isSome]
    exact fun hfree => hgap ⟨q, hfree, hq⟩

/--
The contracts stored in a run of used slots are all stored in it by any table that has them, and
before its last slot if that one is free.
-/
lemma Placed.exists_moved (h : t.Placed) (h' : t'.Placed) (hconfig : t'.config = t.config)
    (hcapacity : t'.capacity = t.capacity)
    (hkeys : ∀ {i key}, t.owner? i = some key → ∃ j, t'.owner? j = some key)
    (hi : i < t.capacity) (hm : m ≤ t.capacity)
    (hrun : ∀ q < m, (t.owner? (t.slotBefore i q)).isSome)
    (hgap : m < t.capacity → t.owner? (t.slotBefore i m) = none) (hfree : t'.owner? i = none)
    (hq : q < m) :
    ∃ r, 0 < r ∧ r < m ∧ t'.owner? (t.slotBefore i r) = t.owner? (t.slotBefore i q) := by
  obtain ⟨key, hkey⟩ := Option.isSome_iff_exists.mp (hrun q hq)
  obtain ⟨p, hp, hslot⟩ := exists_slotAt hi key
  obtain ⟨j, hj⟩ := hkeys hkey
  have hpm := h.lt_of_run hq hm hgap hkey hp hslot
  rw [← slotAt_congr hconfig hcapacity] at hslot
  obtain ⟨r, hr, hrp, howner⟩ := h'.exists_slotBefore hj (hcapacity ▸ hp) hslot hfree
  refine ⟨r, hr, by omega, ?_⟩
  rw [slotBefore, hcapacity] at howner
  exact howner.trans hkey.symm

/--
A slot used by some contracts is used by more of them. If it were not, those stored in the run of
used slots that it ends would all have to be stored before it, in one slot less.
-/
lemma Placed.used_subset (h : t.Placed) (h' : t'.Placed) (hconfig : t'.config = t.config)
    (hcapacity : t'.capacity = t.capacity)
    (hkeys : ∀ {i key}, t.owner? i = some key → ∃ j, t'.owner? j = some key)
    (hused : (t.owner? i).isSome) : (t'.owner? i).isSome := by
  by_contra hfree
  rw [Option.not_isSome_iff_eq_none] at hfree
  have hi : i < t.capacity := by
    obtain ⟨key, hkey⟩ := Option.isSome_iff_exists.mp hused
    exact lt_capacity_of_owner? hkey
  obtain ⟨m, hpos, hm, hrun, hgap⟩ := exists_run hi hused
  have hmoved (q : Nat) (hq : q ∈ Finset.range m) :=
    h.exists_moved h' hconfig hcapacity hkeys hi hm hrun hgap hfree (Finset.mem_range.mp hq)
  choose! f hf using hmoved
  have hcard : (Finset.Ico 1 m).card < (Finset.range m).card := by
    rw [Nat.card_Ico, Finset.card_range]
    omega
  have hmaps : Set.MapsTo f (Finset.range m) (Finset.Ico 1 m) := by
    intro q hq
    obtain ⟨hr, hrm, -⟩ := hf q hq
    exact Finset.mem_Ico.mpr ⟨hr, hrm⟩
  obtain ⟨q, hq, r, hr, hne, heq⟩ := Finset.exists_ne_map_eq_of_card_lt_of_maps_to hcard hmaps
  -- Two slots of the run have one owner between them.
  have hsame := (hf q hq).2.2.symm.trans (heq ▸ (hf r hr).2.2)
  rw [Finset.mem_range] at hq hr
  obtain ⟨key, hkey⟩ := Option.isSome_iff_exists.mp (hrun q hq)
  exact hne (slotBefore_injective hi (by omega) (by omega)
    (h.owner_injective hkey (hsame.symm.trans hkey)))

/-! ### Slots with a bucket -/

lemma Placed.exists_owner?_iff (h : t.Placed) :
    (∃ i, t.owner? i = some key) ↔ key ∈ t.active.map Prod.fst := by
  constructor
  · rintro ⟨i, howner⟩
    obtain ⟨b, howned, hkey⟩ := owner?_eq_some_iff.mp howner
    exact List.mem_map.mpr ⟨(key, b), h.mem_active_iff.mpr ⟨i, howned, hkey⟩, rfl⟩
  · intro hkey
    obtain ⟨⟨key, b⟩, hmem, rfl⟩ := List.mem_map.mp hkey
    obtain ⟨i, howned, hkey⟩ := h.mem_active_iff.mp hmem
    exact ⟨i, owner?_eq_some_iff.mpr ⟨b, howned, hkey⟩⟩

/-- The slots used by the contracts of a table are used by those of one with more of them. -/
lemma WellFormed.used_subset (h : t.WellFormed) (h' : t'.WellFormed)
    (hconfig : t'.config = t.config) (hkeys : t.active.map Prod.fst ⊆ t'.active.map Prod.fst) :
    ∀ i ∈ t.used, i ∈ t'.used := by
  have hcapacity : t'.capacity = t.capacity := by rw [h'.capacity_eq, h.capacity_eq, hconfig]
  intro i hi
  rw [← Array.mem_toList_iff, h.mem_used_iff] at hi
  rw [← Array.mem_toList_iff, h'.mem_used_iff]
  refine h.toPlaced.used_subset h'.toPlaced hconfig hcapacity ?_ hi
  intro j key hj
  exact h'.exists_owner?_iff.mpr (hkeys (h.exists_owner?_iff.mp ⟨j, hj⟩))

lemma isSome_of_bucket?_put {b c : Bucket} (howned : t.owned? i = some b)
    (hj : ((t.put i c).bucket? j).isSome) : (t.bucket? j).isSome := by
  have hb := (owned?_eq_some_iff.mp howned).1
  rw [bucket?_put (lt_capacity_of_bucket? hb)] at hj
  split_ifs at hj with hij
  · rw [← hij, hb]
    rfl
  · exact hj

/-- An operation makes no bucket but one for a slot that it claims. -/
lemma WellFormed.isSome_of_bucket?_perform (h : t.WellFormed) (op : Operation)
    (hi : ((t.perform op).2.bucket? i).isSome) :
    (t.bucket? i).isSome ∨ i ∈ (t.perform op).2.used := by
  cases op with
  | claim key changes =>
    have hgranted := Granted.of_claim h key
    rw [perform] at hi ⊢
    generalize ContractTable.claim key t = r at hgranted hi
    cases hgranted with
    | null | full => exact .inl hi
    | known _ howned => exact .inl (isSome_of_bucket?_put howned hi)
    | @new j _ _ _ hwell howned =>
      have hj := lt_capacity_of_bucket? (owned?_eq_some_iff.mp howned).1
      have hsome := isSome_of_bucket?_put howned hi
      rw [bucket?_give (capacity_give t j key ▸ hj)] at hsome
      split_ifs at hsome with hij
      · exact .inr (hij ▸ Array.mem_push_self)
      · exact .inl hsome
  | find key changes =>
    rw [perform] at hi
    cases hentry : t.entry? key with
    | none =>
      rw [hentry] at hi
      exact .inl hi
    | some entry =>
      rw [hentry] at hi
      exact .inl (isSome_of_bucket?_put (h.owned?_of_entry? hentry).1 hi)
  | rinse =>
    rw [perform, h.bucket?_rinse, Option.isSome_map] at hi
    exact .inl hi
  | flush =>
    rw [perform, ContractTable.flush, isSome_bucket?_mapUsed h.nodup_used] at hi
    exact .inl hi

/-- Contracts of a table that claim slots again, in any order, find a bucket in each of them. -/
lemma WellFormed.isSome_of_bucket?_run {u : ContractTable} (h : t.WellFormed) (hu : u.WellFormed)
    (hconfig : u.config = t.config) (hkeys : u.active.map Prod.fst ⊆ t.active.map Prod.fst)
    (hsome : ∀ i, (u.bucket? i).isSome → (t.bucket? i).isSome) {ops : List Operation}
    (hops : ∀ key changes, .claim key changes ∈ ops → key ∈ t.active.map Prod.fst) :
    ∀ i, ((u.run ops).2.bucket? i).isSome → (t.bucket? i).isSome := by
  induction ops generalizing u with
  | nil => exact hsome
  | cons op ops ih =>
    obtain ⟨hwell, hconfig', heq⟩ := hu.refines_perform op
    have hkeys' : (u.perform op).2.active.map Prod.fst ⊆ t.active.map Prod.fst := by
      intro key hkey
      rw [show (u.perform op).2.active = _ from (congrArg Prod.snd heq).symm,
        Roster.keys_perform] at hkey
      rcases Operation.mem_noteClaim hkey with hkey | ⟨changes, rfl⟩
      · exact hkeys hkey
      · exact hops key changes List.mem_cons_self
    refine ih hwell (hconfig'.trans hconfig) hkeys' ?_ fun key changes hclaim =>
      hops key changes (List.mem_cons_of_mem op hclaim)
    intro i hi
    rcases hu.isSome_of_bucket?_perform op hi with hold | hused
    · exact hsome i hold
    · have hmem := hwell.used_subset h (hconfig'.trans hconfig).symm hkeys' i hused
      rw [← Array.mem_toList_iff, h.mem_used_iff] at hmem
      obtain ⟨b, hb, -⟩ := isSome_owner?_iff.mp hmem
      exact hb ▸ rfl

/-- A table without contracts lets contracts claim all its slots, in the order given. -/
lemma WellFormed.run_claimEach (h : t.WellFormed) (hempty : t.active = [])
    {keys : List ContractKey} (hnodup : keys.Nodup) (hnull : .null ∉ keys)
    (hroom : keys.length ≤ t.config.capacity.toNat) :
    (t.run (Operation.claimEach keys)).1 =
        keys.map (fun key => .handed (t.newBucket.claim key) []) ∧
      (t.run (Operation.claimEach keys)).2.active =
        keys.map fun key => (key, t.newBucket.claim key) := by
  have hrun := (h.refines_run (Operation.claimEach keys)).2.2
  rw [hempty, Roster.run_claimEach t.newBucket (m := []) hnodup hnull (by simpa using hroom),
    Prod.mk.injEq] at hrun
  exact ⟨hrun.1.symm, hrun.2.symm⟩

/-- Some of the contracts use some of the slots that all of them do. -/
lemma WellFormed.used_subset_claimEach (h : t.WellFormed) (hempty : t.active = [])
    {some all : List ContractKey} (hsome : some.Nodup) (hall : all.Nodup) (hsub : some ⊆ all)
    (hnull : .null ∉ all) (hroom : all.length ≤ t.config.capacity.toNat) :
    ∀ i ∈ (t.run (Operation.claimEach some)).2.used,
      i ∈ (t.run (Operation.claimEach all)).2.used := by
  obtain ⟨hwell, hconfig, -⟩ := h.refines_run (Operation.claimEach some)
  obtain ⟨hwell', hconfig', -⟩ := h.refines_run (Operation.claimEach all)
  have hroom' := (List.subperm_of_subset hsome hsub).length_le.trans hroom
  refine hwell.used_subset hwell' (hconfig'.trans hconfig.symm) ?_
  rw [(h.run_claimEach hempty hsome (fun hmem => hnull (hsub hmem)) hroom').2,
    (h.run_claimEach hempty hall hnull hroom).2, List.map_map, List.map_map]
  exact List.map_subset _ hsub

/--
In a table without contracts, distinct contracts that there is room for take up the same slots in
whatever order they claim them, and some of them take up some of these. After a rinse, a table has
a bucket already in every slot that its contracts claim again, whichever come back and in whatever
order.
-/
theorem used_of_claims {t₀ : ContractTable} (h : ofConfig config = .ok t₀) (ops : List Operation) :
    let t := (t₀.run ops).2
    (t.activeCount = 0 →
      ∀ keys : List ContractKey, keys.Nodup → .null ∉ keys → keys.length ≤ config.capacity.toNat →
        let all := t.run (Operation.claimEach keys)
        all.1 = keys.map (fun key => .handed (t.newBucket.claim key) []) ∧
        (∀ keys' : List ContractKey, keys'.Perm keys →
          ∀ i, i ∈ (t.run (Operation.claimEach keys')).2.used ↔ i ∈ all.2.used) ∧
        ∀ keys' : List ContractKey, keys'.Nodup → keys' ⊆ keys →
          ∀ i ∈ (t.run (Operation.claimEach keys')).2.used, i ∈ all.2.used) ∧
    ∀ more, (∀ key changes, .claim key changes ∈ more → key ∈ t.active.map Prod.fst) →
      (t.run (.rinse :: more)).2.allocatedCount = t.allocatedCount := by
  intro t
  obtain ⟨hwell, hconfig, -⟩ := refines_run_of_ofConfig h ops
  change t.WellFormed at hwell
  refine ⟨?_, ?_⟩
  · intro hcount keys hnodup hnull hroom
    rw [← hconfig] at hroom
    have hempty : t.active = [] := by
      rw [← List.length_eq_zero_iff, hwell.length_active, hcount]
    refine ⟨(hwell.run_claimEach hempty hnodup hnull hroom).1, ?_, ?_⟩
    · intro keys' hperm i
      have hnodup' := hperm.nodup_iff.mpr hnodup
      constructor
      · exact hwell.used_subset_claimEach hempty hnodup' hnodup hperm.subset hnull hroom i
      · exact hwell.used_subset_claimEach hempty hnodup hnodup' hperm.symm.subset
          (fun hmem => hnull (hperm.subset hmem)) (hperm.length_eq ▸ hroom) i
    · intro keys' hnodup' hsub
      exact hwell.used_subset_claimEach hempty hnodup' hnodup hsub hnull hroom
  · intro more hmore
    refine le_antisymm (allocatedCount_le ?_) (allocatedCount_le_run hwell (.rinse :: more))
    refine hwell.isSome_of_bucket?_run hwell.rinse rfl ?_ ?_ hmore
    · exact List.nil_subset _
    · intro i hi
      rwa [hwell.bucket?_rinse, Option.isSome_map] at hi

/-- Two contracts with one home use the same slots, though not each the same one. -/
theorem used_of_claims_collision :
    ∃ t, ofConfig ⟨3, 1, .flat, 0⟩ = .ok t ∧
      (∀ i, i ∈ (t.run (Operation.claimEach [⟨3, 1, 2⟩, ⟨1, 2, 3⟩])).2.used ↔
        i ∈ (t.run (Operation.claimEach [⟨1, 2, 3⟩, ⟨3, 1, 2⟩])).2.used) ∧
      (∀ i ∈ (t.run (Operation.claimEach [⟨3, 1, 2⟩])).2.used,
        i ∈ (t.run (Operation.claimEach [⟨1, 2, 3⟩, ⟨3, 1, 2⟩])).2.used) ∧
      ((t.run (Operation.claimEach [⟨1, 2, 3⟩, ⟨3, 1, 2⟩])).2.run
        [.rinse, .claim ⟨3, 1, 2⟩ []]).2.allocatedCount = 2 := by
  obtain ⟨t, ht⟩ : ∃ t, ofConfig ⟨3, 1, .flat, 0⟩ = .ok t := ⟨_, rfl⟩
  obtain ⟨-, horder, hsub⟩ := (used_of_claims ht []).1 (by cases ht; rfl)
    [⟨1, 2, 3⟩, ⟨3, 1, 2⟩] (by decide) (by decide) (by decide)
  refine ⟨t, ht, horder _ (by decide), hsub _ (by decide) (by decide), ?_⟩
  refine ((used_of_claims ht _).2 _ ?_).trans (by cases ht; rfl)
  intro key changes hclaim
  cases List.mem_singleton.mp hclaim
  cases ht
  decide

end ContractTable

end Candlestick
