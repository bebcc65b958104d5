import Candlestick.Proofs.Table.Refinement

/-!
# What the buckets of a table hold

A bucket shows the ticks accepted since its last flush, in order of arrival, and has room for more
as long as these leave some (`Bucket.Holds`). The two layouts differ in which ticks share room and
in the order across categories only. Every bucket of a table is one that changes have led to from a
new one (`ContractTable.exists_changes`), so it has no more ticks than the settings say
(`ContractTable.holds_accepted`).
-/

namespace Candlestick

/-- The arrays of a bucket are those that take in the ticks of some category. -/
lemma Storage.mem_arrays_iff {s : Storage} {ticks : Array TickRecord} :
    ticks ∈ s.arrays ↔ ∃ c, s.array c = ticks := by
  cases s with
  | flat all =>
    have : Nonempty Category := ⟨.trade⟩
    simp [arrays, array, eq_comm]
  | perCategory all =>
    simp only [arrays, array, ByCategory.toList, List.mem_cons, List.not_mem_nil, or_false]
    constructor
    · rintro (rfl | rfl | rfl)
      exacts [⟨.bid, rfl⟩, ⟨.ask, rfl⟩, ⟨.trade, rfl⟩]
    · rintro ⟨c, rfl⟩
      cases c <;> simp [ByCategory.get]

/-- Ticks in storage order: as they came, or category by category. -/
def Layout.arrange (layout : Layout) (rs : List TickRecord) : List TickRecord :=
  match layout with
  | .flat => rs
  | .perCategory =>
    Category.bid.select rs ++ Category.ask.select rs ++ Category.trade.select rs

namespace Bucket

variable {b : Bucket} {layout : Layout} {n : Nat} {key : ContractKey} {rs : List TickRecord}

/-! ### What one bucket holds -/

/-- What a bucket shows of the ticks `rs` accepted since its last flush. -/
structure Holds (layout : Layout) (n : Nat) (key : ContractKey) (rs : List TickRecord)
    (b : Bucket) : Prop where
  key_eq : b.key = key
  capacity_eq : b.capacity = n
  layout_eq : b.layout = layout
  ticksOf_eq : ∀ c, b.ticksOf c = c.select rs
  ticks_eq : b.ticks = layout.arrange rs
  sizeOf_eq : ∀ c, b.sizeOf c = (b.ticksOf c).length
  size_eq : b.size = b.sizeOf .bid + b.sizeOf .ask + b.sizeOf .trade
  /-- There is room for a category until the ticks that share it take up all of it. -/
  isFullFor_iff : ∀ c, b.isFullFor c = false ↔ layout.share c rs < n
  /-- A tick is accepted just if there is room for it. -/
  accepts_iff : ∀ r, ((Change.add r).apply b).1 = none ↔ b.isFullFor r.category = false
  unchanged : ∀ r e, ((Change.add r).apply b).1 = some e → ((Change.add r).apply b).2 = b
  isFull_iff : b.isFull ↔ ∃ c, b.isFullFor c
  size_le : ∀ ticks ∈ b.storage.arrays, ticks.size ≤ n

lemma isFull_iff_exists (b : Bucket) : b.isFull ↔ ∃ c, b.isFullFor c := by
  simp only [isFull, isFullFor, List.any_eq_true, Storage.mem_arrays_iff]
  constructor
  · rintro ⟨-, ⟨c, rfl⟩, hfull⟩
    exact ⟨c, hfull⟩
  · rintro ⟨c, hfull⟩
    exact ⟨_, ⟨c, rfl⟩, hfull⟩

lemma apply_add_eq_none_iff (b : Bucket) (r : TickRecord) :
    ((Change.add r).apply b).1 = none ↔ b.isFullFor r.category = false := by
  rw [Change.apply, add_eq]
  split_ifs with hfull <;> simp [Change.ofAdded, hfull]

lemma apply_eq_self_of_error {change : Change} {e : Error} (h : (change.apply b).1 = some e) :
    (change.apply b).2 = b := by
  have happlied := Change.Applied.of_apply b change
  generalize change.apply b = r at happlied h
  cases happlied with
  | flushed | taken => cases h
  | refused => rfl

/-- A bucket that a contract has claimed holds what has been pushed, if there was room for it. -/
lemma Holds.of_pushAll (h : (((empty layout n).claim key).pushAll rs).Within) :
    Holds layout n key rs (((empty layout n).claim key).pushAll rs) := by
  have hlayout : (((empty layout n).claim key).pushAll rs).layout = layout :=
    (layout_pushAll _ rs).trans (layout_empty layout n)
  have hcapacity : (((empty layout n).claim key).pushAll rs).capacity = n := capacity_pushAll _ rs
  have hsorted := (isSorted_empty_claim layout n key).pushAll rs
  have hticksOf (c : Category) :
      (((empty layout n).claim key).pushAll rs).ticksOf c = c.select rs := by
    rw [ticksOf_pushAll, ticksOf_empty_claim, List.nil_append]
  have hsizeOf (c : Category) : (((empty layout n).claim key).pushAll rs).sizeOf c =
      ((((empty layout n).claim key).pushAll rs).ticksOf c).length := hsorted.sizeOf_eq c
  constructor
  · exact key_pushAll _ rs
  · exact hcapacity
  · exact hlayout
  · exact hticksOf
  · cases layout with
    | flat =>
      have hflat : ((empty .flat n).claim key).layout = .flat := layout_empty .flat n
      exact ticks_pushAll_of_flat hflat rs
    | perCategory =>
      rw [hsorted.ticks_eq_append hlayout, hticksOf, hticksOf, hticksOf, Layout.arrange]
  · exact hsizeOf
  · rw [size_pushAll, size_empty_claim, hsizeOf, hsizeOf, hsizeOf, hticksOf, hticksOf, hticksOf,
      Category.length_select, Nat.zero_add]
  · intro c
    rw [isFullFor, size_array_pushAll_claim, hcapacity, decide_eq_false_iff_not, Nat.not_le]
  · exact apply_add_eq_none_iff _
  · intro r e
    exact apply_eq_self_of_error
  · exact isFull_iff_exists _
  · intro ticks hticks
    obtain ⟨c, rfl⟩ := Storage.mem_arrays_iff.mp hticks
    exact (h c).trans_eq hcapacity

/-- A bucket has no more ticks than there is room for in its arrays. -/
lemma size_pushAll_claim_le_room (h : (((empty layout n).claim key).pushAll rs).Within) :
    (((empty layout n).claim key).pushAll rs).size ≤ layout.room n := by
  rw [size_pushAll, size_empty_claim, Nat.zero_add]
  refine Layout.length_le_room fun c => ?_
  have hc := h c
  rwa [size_array_pushAll_claim, capacity_pushAll] at hc

end Bucket

namespace Roster

variable {m : Roster} {new : Bucket}

/-! ### What the buckets of a table hold -/

/-- Every bucket is one that changes have led to from what its contract claimed. -/
def Changed (new : Bucket) (m : Roster) : Prop :=
  ∀ entry ∈ m, ∃ changes, entry.2 = (Bucket.Change.applyAll (new.claim entry.1) changes).2

lemma Changed.handOut (h : m.Changed new) {key : ContractKey} {b : Bucket}
    (hb : (key, b) ∈ m) (changes : List Bucket.Change) :
    (m.handOut key b changes).2.Changed new := by
  intro entry hentry
  obtain ⟨old, hold, rfl⟩ := List.mem_map.mp hentry
  split_ifs with hkey
  · obtain ⟨before, hbefore⟩ := h _ hb
    refine ⟨before ++ changes, ?_⟩
    rw [Bucket.Change.applyAll_append, ← hbefore]
  · exact h old hold

lemma mem_of_lookup {key : ContractKey} {b : Bucket} (h : m.lookup key = some b) :
    (key, b) ∈ m := by
  obtain ⟨before, after, rfl, -⟩ := List.lookup_eq_some_iff.mp h
  simp

lemma Changed.perform (h : m.Changed new) (capacity : Nat) (op : Operation) :
    (m.perform capacity new op).2.Changed new := by
  cases op with
  | claim key changes =>
    rw [Roster.perform, claim]
    by_cases hnull : key = .null
    · rw [if_pos hnull]
      exact h
    rw [if_neg hnull]
    cases hlookup : m.lookup key with
    | some b => exact h.handOut (mem_of_lookup hlookup) changes
    | none =>
      by_cases hroom : m.length < capacity
      · rw [if_pos hroom]
        refine Changed.handOut ?_ (List.mem_append_right m (List.mem_singleton.mpr rfl)) changes
        intro entry hentry
        rcases List.mem_append.mp hentry with hold | hnew
        · exact h entry hold
        · cases List.mem_singleton.mp hnew
          exact ⟨[], rfl⟩
      · rw [if_neg hroom]
        exact h
  | find key changes =>
    rw [Roster.perform]
    cases hlookup : m.lookup key with
    | none => exact h
    | some b => exact h.handOut (mem_of_lookup hlookup) changes
  | rinse =>
    intro entry hentry
    cases hentry
  | flush =>
    intro entry hentry
    obtain ⟨old, hold, rfl⟩ := List.mem_map.mp hentry
    obtain ⟨before, hbefore⟩ := h old hold
    refine ⟨before ++ [.flush], ?_⟩
    rw [Bucket.Change.applyAll_append, ← hbefore]
    rfl

lemma Changed.run (h : m.Changed new) (capacity : Nat) (ops : List Operation) :
    (m.run capacity new ops).2.Changed new := by
  induction ops generalizing m with
  | nil => exact h
  | cons op ops ih => exact ih (h.perform capacity op)

end Roster

namespace ContractTable

variable {t : ContractTable} {config : TableConfig} {i : Nat} {b : Bucket}

/-- Every bucket of a table is one that changes have led to from a new one. -/
lemma exists_changes (h : ofConfig config = .ok t) (ops : List Operation)
    (hb : (t.run ops).2.bucket? i = some b) :
    ∃ changes, b = (Bucket.Change.applyAll
      ((Bucket.empty config.layout config.bucketSize.toNat).claim b.key) changes).2 := by
  obtain ⟨hwell, hconfig, hrun⟩ := refines_run_of_ofConfig h ops
  by_cases hnull : b.key = .null
  · refine ⟨[], ?_⟩
    rw [hnull, hwell.released hb hnull, newBucket, hconfig]
    rfl
  · have hactive := hwell.mem_active_iff.mpr ⟨i, owned?_eq_some_iff.mpr ⟨hb, hnull⟩, rfl⟩
    have hchanged : Roster.Changed (.empty config.layout config.bucketSize.toNat)
        (t.run ops).2.active := by
      have hnil : Roster.Changed (.empty config.layout config.bucketSize.toNat) [] := by
        intro entry hentry
        cases hentry
      have hall := hnil.run config.capacity.toNat ops
      rwa [hrun] at hall
    exact hchanged _ hactive

/-- There are numbers for all ticks of a bucket unless one array has room for too many. -/
lemma toNat_ticksPerBucket (h : config.bucketSize.toNat ≤ (2 ^ 64 - 1) / 3) :
    config.ticksPerBucket.toNat = config.layout.room config.bucketSize.toNat := by
  rw [TableConfig.ticksPerBucket]
  cases config.layout with
  | flat => rfl
  | perCategory =>
    rw [UInt64.toNat_mul, Layout.room]
    change config.bucketSize.toNat * 3 % 2 ^ 64 = _
    omega

/--
Whatever changes a bucket has been through since its contract claimed it, it holds the ticks
accepted since the last flush. Whatever operations a table has carried out, each of its buckets is
such a bucket, and has no more ticks than the settings say, unless these cannot count them.
-/
theorem holds_accepted :
    (∀ layout n key changes,
      let new := (Bucket.empty layout n).claim key
      Bucket.Holds layout n key
        (Bucket.Change.accepted changes (Bucket.Change.applyAll new changes).1)
        (Bucket.Change.applyAll new changes).2) ∧
      ∀ config t, ofConfig config = .ok t → ∀ ops i b, (t.run ops).2.bucket? i = some b →
        (∃ changes, b = (Bucket.Change.applyAll
          ((Bucket.empty config.layout config.bucketSize.toNat).claim b.key) changes).2) ∧
        (config.bucketSize.toNat ≤ (2 ^ 64 - 1) / 3 → b.size ≤ config.ticksPerBucket.toNat) := by
  have hwithin (layout : Layout) (n : Nat) (key : ContractKey) (changes : List Bucket.Change) :=
    Bucket.Change.within_applyAll (Bucket.within_empty_claim layout n key) changes
  simp only [Bucket.Change.applyAll_eq_pushAll] at hwithin
  refine ⟨?_, ?_⟩
  · intro layout n key changes new
    rw [Bucket.Change.applyAll_eq_pushAll]
    exact .of_pushAll (hwithin layout n key changes)
  · intro config t h ops i b hb
    obtain ⟨changes, hchanges⟩ := exists_changes h ops hb
    refine ⟨⟨changes, hchanges⟩, fun hsize => ?_⟩
    rw [toNat_ticksPerBucket hsize, hchanges, Bucket.Change.applyAll_eq_pushAll]
    exact Bucket.size_pushAll_claim_le_room (hwithin _ _ _ changes)

/-- A bucket refuses a sandwich that it has no room for and goes on to take in a tick. -/
theorem holds_accepted_refusal :
    ∃ t b, ofConfig ⟨1, 2, .perCategory, 0⟩ = .ok t ∧
      (t.run [.claim ⟨1, 0, 0⟩
        [.add Bucket.minuteTrade, .addSandwich Bucket.minuteLegs, .add Bucket.minuteTrade]]).2.bucket?
          0 = some b ∧
      b.size = 2 ∧ b.size ≤ (TableConfig.ticksPerBucket ⟨1, 2, .perCategory, 0⟩).toNat := by
  obtain ⟨t, ht⟩ : ∃ t, ofConfig ⟨1, 2, .perCategory, 0⟩ = .ok t := ⟨_, rfl⟩
  obtain ⟨b, hb, hsize⟩ : ∃ b, (t.run [.claim ⟨1, 0, 0⟩ [.add Bucket.minuteTrade,
      .addSandwich Bucket.minuteLegs, .add Bucket.minuteTrade]]).2.bucket? 0 = some b ∧
      b.size = 2 := by
    cases ht
    exact ⟨_, rfl, rfl⟩
  exact ⟨t, b, ht, hb, hsize, (holds_accepted.2 _ t ht _ 0 b hb).2 (by decide)⟩

end ContractTable

end Candlestick
