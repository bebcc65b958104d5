import Candlestick.Proofs.Rollup.Offer
import Candlestick.Proofs.Table.Refinement
import Mathlib.Data.List.Induction
import Mathlib.Data.List.Nodup

/-!
# Feeds

A feed is a run of ticks in order of arrival, each with its contract. It determines the roster of
the contracts that had ticks: each comes where its first tick does, with its own ticks in their
order. A roster that has taken in the ticks of a feed is the roster of that feed
(`Feed.roster_append`), and its candles are those of the feed (`Feed.candles_roster`).
-/

namespace Candlestick

/-- Ticks in order of arrival, each with its contract. -/
abbrev Feed := List (ContractKey × TickRecord)

namespace Feed

variable {f g : Feed} {key k : ContractKey} {rs : List TickRecord}

/-- Ticks of one contract. -/
def ofTicks (key : ContractKey) (rs : List TickRecord) : Feed :=
  rs.map (key, ·)

/-- The contracts, in the order of their first ticks. -/
def keys (f : Feed) : List ContractKey :=
  (f.map Prod.fst).eraseDups

/-- The ticks of a contract. -/
def ticksOf (f : Feed) (key : ContractKey) : List TickRecord :=
  (f.filter (·.1 == key)).map Prod.snd

/-- The candles of each contract, in the order of their first ticks. -/
def candles (f : Feed) : Except Decimal.Overflow (List (ContractKey × ContractCandle)) :=
  f.keys.mapM fun key => (ContractCandle.ofRecords (f.ticksOf key)).map (key, ·)

/-- Each contract with a bucket that has taken in its ticks, one after the other. -/
def roster (new : Bucket) (f : Feed) : Roster :=
  f.keys.map fun key => (key, (new.claim key).pushAll (f.ticksOf key))

@[simp] lemma ticksOf_append (f g : Feed) (key : ContractKey) :
    ticksOf (f ++ g) key = ticksOf f key ++ ticksOf g key := by
  simp [ticksOf]

lemma mem_keys_iff : key ∈ f.keys ↔ ∃ r, (key, r) ∈ f := by
  simp [keys]

lemma keys_eq_nil_iff : f.keys = [] ↔ f = [] := by
  constructor
  · intro h
    rw [List.eq_nil_iff_forall_not_mem]
    rintro ⟨key, r⟩ hmem
    have hkey : key ∈ f.keys := mem_keys_iff.mpr ⟨r, hmem⟩
    rw [h] at hkey
    cases hkey
  · rintro rfl
    rfl

lemma mem_ticksOf_iff {r : TickRecord} : r ∈ f.ticksOf key ↔ (key, r) ∈ f := by
  simp [ticksOf]

lemma ticksOf_ne_nil (h : key ∈ f.keys) : f.ticksOf key ≠ [] := by
  obtain ⟨r, hr⟩ := mem_keys_iff.mp h
  exact List.ne_nil_of_mem (mem_ticksOf_iff.mpr hr)

lemma ticksOf_eq_nil (h : key ∉ f.keys) : f.ticksOf key = [] := by
  rw [ticksOf, List.map_eq_nil_iff, List.filter_eq_nil_iff]
  rintro ⟨k, r⟩ hmem hk
  cases eq_of_beq hk
  exact h (mem_keys_iff.mpr ⟨r, hmem⟩)

lemma ticksOf_ofTicks (key : ContractKey) (rs : List TickRecord) (k : ContractKey) :
    ticksOf (ofTicks key rs) k = if k = key then rs else [] := by
  rw [ticksOf, ofTicks, List.filter_map, List.map_map]
  split_ifs with hk
  · subst hk
    simp [Function.comp_def]
  · have hne : (key == k) = false := beq_eq_false_iff_ne.mpr (Ne.symm hk)
    simp [Function.comp_def, hne]

/-- More ticks of a contract leave the order of the contracts as it is, or add that one. -/
lemma keys_append (f : Feed) (key : ContractKey) (hrs : rs ≠ []) :
    keys (f ++ ofTicks key rs) = if key ∈ f.keys then f.keys else f.keys ++ [key] := by
  obtain ⟨r, rs, rfl⟩ := List.exists_cons_of_ne_nil hrs
  have hmap : (ofTicks key (r :: rs)).map Prod.fst = List.replicate (rs.length + 1) key := by
    simp [ofTicks, Function.comp_def, List.map_const', List.replicate_succ]
  have hmem : key ∈ f.keys ↔ key ∈ f.map Prod.fst := List.mem_eraseDups
  rw [keys, List.map_append, hmap, List.eraseDups_append, List.removeAll, List.filter_replicate]
  by_cases hkey : key ∈ f.keys
  · rw [if_pos hkey, if_neg (by simpa using hmem.mp hkey)]
    simp [keys]
  · rw [if_neg hkey, if_pos (by simpa using mt hmem.mpr hkey), List.replicate_succ,
      List.eraseDups_cons, List.filter_replicate]
    simp [keys]

lemma nodup_keys (f : Feed) : f.keys.Nodup := by
  induction f using List.reverseRecOn with
  | nil => exact List.nodup_nil
  | append_singleton f entry ih =>
    rw [show [entry] = ofTicks entry.1 [entry.2] from rfl, keys_append f _ (List.cons_ne_nil _ _)]
    split_ifs with hkey
    · exact ih
    · exact List.nodup_append_comm.mpr (List.nodup_cons.mpr ⟨hkey, ih⟩)

lemma lookup_roster (new : Bucket) (f : Feed) (key : ContractKey) :
    (f.roster new).lookup key =
      if key ∈ f.keys then some ((new.claim key).pushAll (f.ticksOf key)) else none := by
  rw [roster]
  generalize f.keys = ks
  induction ks with
  | nil => rfl
  | cons k ks ih =>
    rw [List.map_cons, List.lookup_cons]
    by_cases hk : key = k
    · simp [hk]
    · rw [beq_eq_false_iff_ne.mpr hk, ih]
      simp [hk]

/-- Taking in ticks of a contract turns the roster of a feed into that of the longer feed. -/
lemma roster_append (new : Bucket) (f : Feed) (key : ContractKey) (hrs : rs ≠ []) :
    (f ++ ofTicks key rs).roster new = (f.roster new).take new key rs := by
  have hof (k : ContractKey) : ticksOf (f ++ ofTicks key rs) k =
      f.ticksOf k ++ if k = key then rs else [] := by
    rw [ticksOf_append, ticksOf_ofTicks]
  have hother (k : ContractKey) (hk : k ≠ key) :
      ticksOf (f ++ ofTicks key rs) k = f.ticksOf k := by
    rw [hof, if_neg hk, List.append_nil]
  rw [Roster.take, lookup_roster, roster, keys_append f key hrs]
  by_cases hkey : key ∈ f.keys
  · rw [if_pos hkey, if_pos hkey]
    change _ = Roster.set (f.roster new) key _
    rw [roster, Roster.set, List.map_map]
    apply List.map_congr_left
    intro k _
    by_cases hk : k = key
    · subst hk
      simp [hof, Bucket.pushAll_append]
    · simp [hk, hother k hk]
  · rw [if_neg hkey, if_neg hkey, List.map_append]
    change _ = f.roster new ++ _
    rw [roster]
    congr 1
    · apply List.map_congr_left
      intro k hk
      have hne : k ≠ key := fun heq => hkey (heq ▸ hk)
      rw [hother k hne]
    · simp [hof, ticksOf_eq_nil hkey]

lemma roster_eq_nil_iff (new : Bucket) : f.roster new = [] ↔ f = [] := by
  rw [roster, List.map_eq_nil_iff, keys_eq_nil_iff]

/-- The candles of a feed are those of its contracts, each of them once. -/
lemma candles_eq_ok {cs : List (ContractKey × ContractCandle)} (h : f.candles = .ok cs) :
    cs.map Prod.fst = f.keys ∧
      ∀ entry ∈ cs, ContractCandle.ofRecords (f.ticksOf entry.1) = .ok entry.2 := by
  rw [candles] at h
  generalize f.keys = keys at h
  induction keys generalizing cs with
  | nil =>
    cases h
    exact ⟨rfl, fun entry hentry => by cases hentry⟩
  | cons key keys ih =>
    rw [List.mapM_cons] at h
    cases hkey : ContractCandle.ofRecords (f.ticksOf key) with
    | error cause =>
      rw [hkey] at h
      cases h
    | ok c =>
      cases hkeys :
          keys.mapM fun key => (ContractCandle.ofRecords (f.ticksOf key)).map (key, ·) with
      | error cause =>
        rw [hkey, hkeys] at h
        cases h
      | ok cs =>
        rw [hkey, hkeys] at h
        cases h
        obtain ⟨hmap, hcandles⟩ := ih hkeys
        exact ⟨congrArg (key :: ·) hmap, List.forall_mem_cons.mpr ⟨hkey, hcandles⟩⟩

/-- The candles of the buckets of a feed are those of its ticks, whatever the layout. -/
lemma candles_roster (layout : Layout) (n : Nat) (f : Feed) :
    (f.roster (.empty layout n)).candles = f.candles := by
  rw [Roster.candles, roster, List.mapM_map, candles]
  congr 1
  funext key
  rw [Function.comp_apply, Bucket.aggregate_pushAll_empty]

end Feed

/-- A contract that is listed once is found with its candles. -/
lemma Summary.get?_eq_some_iff {summary : Summary} {key : ContractKey} {c : ContractCandle}
    (hnodup : (summary.candles.map Prod.fst).Nodup) :
    summary.get? key = some c ↔ (key, c) ∈ summary.candles := by
  have hkey {entry : ContractKey × ContractCandle}
      (hfind : summary.candles.find? (·.1 == key) = some entry) : entry.1 = key :=
    eq_of_beq (by simpa using List.find?_some hfind)
  rw [get?, Option.map_eq_some_iff]
  constructor
  · rintro ⟨entry, hfind, rfl⟩
    rw [← hkey hfind]
    exact List.mem_of_find?_eq_some hfind
  · intro hmem
    have hsome : (summary.candles.find? (·.1 == key)).isSome := by
      rw [List.find?_isSome]
      exact ⟨_, hmem, beq_self_eq_true key⟩
    obtain ⟨entry, hfind⟩ := Option.isSome_iff_exists.mp hsome
    have heq := List.inj_on_of_nodup_map hnodup (List.mem_of_find?_eq_some hfind) hmem (hkey hfind)
    exact ⟨entry, hfind, congrArg Prod.snd heq⟩

end Candlestick
