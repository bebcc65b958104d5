import Candlestick.Proofs.Bucket.Change
import Candlestick.Proofs.Table.Active

/-!
# Tables refine rosters

A table of contracts answers every run of operations as a bounded roster does
(`ContractTable.run_eq_roster`). A roster knows nothing of slots, hashes and seeds, so none of
them shows in the answers of a table.
-/

namespace Candlestick

/-- An operation on a table; the bucket it hands out, if any, is changed before the next one. -/
inductive Operation
  /-- Asks for the bucket of a contract, which gets one if it has none. -/
  | claim (key : ContractKey) (changes : List Bucket.Change)
  /-- Asks for the bucket of a contract. -/
  | find (key : ContractKey) (changes : List Bucket.Change)
  | rinse
  | flush

/-- What an operation answers. -/
inductive Answer
  | done
  /-- The contract has no bucket. -/
  | absent
  | refused (e : Error)
  /-- The bucket as it was handed out, and the errors of the changes to it. -/
  | handed (b : Bucket) (errors : List (Option Error))
deriving DecidableEq

namespace Roster

/-- Looks for a contract, which is added with a bucket as good as new if there is room for it. -/
def claim (capacity : Nat) (new : Bucket) (m : Roster) (key : ContractKey) :
    Except Error (Bucket × Roster) :=
  if key = .null then .error .nullKey
  else
    match m.lookup key with
    | some b => .ok (b, m)
    | none =>
      if m.length < capacity then .ok (new.claim key, m ++ [(key, new.claim key)])
      else .error (.tableFull capacity)

/-- Hands out the bucket of a contract and changes it. -/
def handOut (m : Roster) (key : ContractKey) (b : Bucket) (changes : List Bucket.Change) :
    Answer × Roster :=
  (.handed b (Bucket.Change.applyAll b changes).1,
    m.set key (Bucket.Change.applyAll b changes).2)

/-- Carries out an operation on a roster with room for `capacity` contracts. -/
def perform (capacity : Nat) (new : Bucket) (m : Roster) : Operation → Answer × Roster
  | .claim key changes =>
    match m.claim capacity new key with
    | .error e => (.refused e, m)
    | .ok (b, m) => m.handOut key b changes
  | .find key changes =>
    match m.lookup key with
    | none => (.absent, m)
    | some b => m.handOut key b changes
  | .rinse => (.done, [])
  | .flush => (.done, m.flush)

/-- Carries out operations one after the other. -/
def run (capacity : Nat) (new : Bucket) (m : Roster) : List Operation → List Answer × Roster
  | [] => ([], m)
  | op :: ops =>
    let rest := run capacity new (perform capacity new m op).2 ops
    ((perform capacity new m op).1 :: rest.1, rest.2)

/-- The candles of all contracts. -/
def candles (m : Roster) : Except Decimal.Overflow (List (ContractKey × ContractCandle)) :=
  m.mapM fun entry => entry.2.aggregate.map (entry.1, ·)

end Roster

namespace ContractTable

variable {t t' : ContractTable}

/-- Hands out the bucket of an entry and changes it. -/
def handOut (t : ContractTable) (entry : Entry) (changes : List Bucket.Change) :
    Answer × ContractTable :=
  (.handed entry.bucket (Bucket.Change.applyAll entry.bucket changes).1,
    t.put entry.slot (Bucket.Change.applyAll entry.bucket changes).2)

/-- Carries out an operation. -/
def perform (t : ContractTable) : Operation → Answer × ContractTable
  | .claim key changes =>
    match ContractTable.claim key t with
    | .error e t => (.refused e, t)
    | .ok entry t => t.handOut entry changes
  | .find key changes =>
    match t.entry? key with
    | none => (.absent, t)
    | some entry => t.handOut entry changes
  | .rinse => (.done, t.rinse)
  | .flush => (.done, t.flush)

/-- Carries out operations one after the other. -/
def run (t : ContractTable) : List Operation → List Answer × ContractTable
  | [] => ([], t)
  | op :: ops =>
    let rest := (t.perform op).2.run ops
    ((t.perform op).1 :: rest.1, rest.2)

/-- The table that an operation on `t` leaves is well-formed, and it answers as a roster does. -/
structure Refines (t : ContractTable) (r : Answer × ContractTable) (m : Answer × Roster) :
    Prop where
  wellFormed : r.2.WellFormed
  config_eq : r.2.config = t.config
  eq : m = (r.1, r.2.active)

namespace WellFormed

lemma refines_handOut (h : t.WellFormed) (entry : Entry)
    (howned : t.owned? entry.slot = some entry.bucket) (changes : List Bucket.Change) :
    Refines t (t.handOut entry changes)
      (Roster.handOut t.active entry.bucket.key entry.bucket changes) := by
  have hkey := Bucket.Change.key_applyAll entry.bucket changes
  have hput : (t.put entry.slot (Bucket.Change.applyAll entry.bucket changes).2).WellFormed :=
    h.put howned hkey (Bucket.Change.layout_applyAll _ changes)
      (Bucket.Change.capacity_applyAll _ changes)
  refine ⟨hput, rfl, ?_⟩
  rw [handOut, Roster.handOut, h.active_put hput.toPlaced howned hkey]

lemma refines_perform (h : t.WellFormed) (op : Operation) :
    Refines t (t.perform op)
      (Roster.perform t.config.capacity.toNat t.newBucket t.active op) := by
  cases op with
  | claim key changes =>
    rw [perform, Roster.perform, Roster.claim, ← h.capacity_eq]
    have hgranted := Granted.of_claim h key
    generalize ContractTable.claim key t = r at hgranted
    cases hgranted with
    | null hkey =>
      rw [if_pos hkey]
      exact ⟨h, rfl, rfl⟩
    | known hkey howned hlookup =>
      rw [hlookup]
      subst hkey
      rw [if_neg (owned?_eq_some_iff.mp howned).2]
      exact h.refines_handOut ⟨_, _⟩ howned changes
    | @new i hkey hlookup hroom hwell howned hactive =>
      obtain ⟨hwell, hconfig, heq⟩ :=
        hwell.refines_handOut ⟨i, t.newBucket.claim key⟩ howned changes
      rw [if_neg hkey, hlookup, if_pos hroom, ← hactive]
      exact ⟨hwell, hconfig, heq⟩
    | full hkey hlookup hlength =>
      rw [if_neg hkey, hlookup, hlength, if_neg (Nat.lt_irrefl _)]
      exact ⟨h, rfl, rfl⟩
  | find key changes =>
    rw [perform, Roster.perform, ← h.find?_eq_lookup, find?]
    cases hentry : t.entry? key with
    | none => exact ⟨h, rfl, rfl⟩
    | some entry =>
      obtain ⟨howned, rfl⟩ := h.owned?_of_entry? hentry
      exact h.refines_handOut entry howned changes
  | rinse => exact ⟨h.rinse, rfl, rfl⟩
  | flush =>
    refine ⟨h.flush, rfl, ?_⟩
    rw [Roster.perform, ← h.active_flush h.flush.toPlaced]
    rfl

lemma refines_run (h : t.WellFormed) (ops : List Operation) :
    (t.run ops).2.WellFormed ∧ (t.run ops).2.config = t.config ∧
      Roster.run t.config.capacity.toNat t.newBucket t.active ops =
        ((t.run ops).1, (t.run ops).2.active) := by
  induction ops generalizing t with
  | nil => exact ⟨h, rfl, rfl⟩
  | cons op ops ih =>
    obtain ⟨hwell, hconfig, heq⟩ := h.refines_perform op
    obtain ⟨hrun, hconfigs, hrest⟩ := ih hwell
    rw [hconfig, newBucket_congr hconfig] at hrest
    refine ⟨hrun, hconfigs.trans hconfig, ?_⟩
    rw [Roster.run, heq, hrest]
    rfl

end WellFormed

lemma Placed.length_active_le (h : t.Placed) : t.active.length ≤ t.capacity := by
  rw [h.length_active, ← h.card_used, ← Finset.card_range t.capacity]
  exact Finset.card_le_card h.used_subset_range

/-- A new table answers as an empty roster. -/
lemma refines_run_of_ofConfig {config : TableConfig} (h : ofConfig config = .ok t)
    (ops : List Operation) :
    (t.run ops).2.WellFormed ∧ (t.run ops).2.config = config ∧
      Roster.run config.capacity.toNat (.empty config.layout config.bucketSize.toNat) [] ops =
        ((t.run ops).1, (t.run ops).2.active) := by
  have hwell := WellFormed.of_ofConfig h
  obtain ⟨-, rfl⟩ := ofConfig_eq_ok_iff.mp h
  exact hwell.refines_run ops

/--
A table with settings that can be used answers every run of operations as a roster with room for
as many contracts does, and shows the same contracts, buckets and candles afterwards. Another seed
changes none of this.
-/
theorem run_eq_roster {config : TableConfig} (h : config.validate = .ok ()) :
    ∃ t, ofConfig config = .ok t ∧ ∀ ops, ∃ m : Roster,
      Roster.run config.capacity.toNat (.empty config.layout config.bucketSize.toNat) [] ops =
        ((t.run ops).1, m) ∧
      m.length ≤ config.capacity.toNat ∧
      (t.run ops).2.active = m ∧
      (t.run ops).2.activeCount = m.length ∧
      (∀ key, (t.run ops).2.find? key = m.lookup key) ∧
      (t.run ops).2.candles = m.candles ∧
      ∀ seed, ∃ u, ofConfig { config with seed } = .ok u ∧
        (u.run ops).1 = (t.run ops).1 ∧ (u.run ops).2.active = m := by
  have hfresh := ofConfig_eq_ok_iff.mpr ⟨h, rfl⟩
  refine ⟨_, hfresh, ?_⟩
  intro ops
  obtain ⟨hwell, hconfig, hrun⟩ := refines_run_of_ofConfig hfresh ops
  refine ⟨_, hrun, ?_, rfl, hwell.length_active.symm, hwell.find?_eq_lookup, rfl, ?_⟩
  · have hle := hwell.length_active_le
    rwa [hwell.capacity_eq, hconfig] at hle
  · intro seed
    -- The roster of the other table is computed from the same settings, none of them the seed.
    have hseed : TableConfig.validate { config with seed } = .ok () := h
    have hfresh' := ofConfig_eq_ok_iff.mpr ⟨hseed, rfl⟩
    obtain ⟨-, -, hother⟩ := refines_run_of_ofConfig hfresh' ops
    obtain ⟨hanswers, hactive⟩ := Prod.mk.inj (hother.symm.trans hrun)
    exact ⟨_, hfresh', hanswers, hactive⟩

/-- A table with one slot refuses a second contract until it is rinsed. -/
theorem run_one_slot :
    TableConfig.validate ⟨1, 4, .flat, 0⟩ = .ok () ∧
      ∃ t, ofConfig ⟨1, 4, .flat, 0⟩ = .ok t ∧
        (t.run [.claim ⟨1, 0, 0⟩ [], .claim ⟨2, 0, 0⟩ [], .rinse, .claim ⟨2, 0, 0⟩ []]).1 =
          [.handed ⟨⟨1, 0, 0⟩, 4, .flat #[]⟩ [], .refused (.tableFull 1), .done,
            .handed ⟨⟨2, 0, 0⟩, 4, .flat #[]⟩ []] := by
  have hvalid : TableConfig.validate ⟨1, 4, .flat, 0⟩ = .ok () := rfl
  obtain ⟨t, ht, hrun⟩ := run_eq_roster hvalid
  obtain ⟨m, hm, -⟩ := hrun [.claim ⟨1, 0, 0⟩ [], .claim ⟨2, 0, 0⟩ [], .rinse, .claim ⟨2, 0, 0⟩ []]
  exact ⟨hvalid, t, ht, (congrArg Prod.fst hm).symm⟩

end ContractTable

end Candlestick
