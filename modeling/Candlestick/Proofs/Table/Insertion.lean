import Candlestick.Proofs.Bucket.Room
import Candlestick.Proofs.Table.Active

/-!
# Insertions one after the other

A contract keeps the slot that it has or claims (`ContractTable.Assigned`). What is inserted for it
in parts therefore ends up where it does at once (`ContractTable.Assigned.put`), and only its bucket
decides whether there is room for it (`ContractTable.Assigned.insert_eq`).
-/

namespace Candlestick

namespace ContractTable

variable {t t' : ContractTable} {key : ContractKey} {i : Nat} {b : Bucket} {rs : List TickRecord}

@[simp] lemma put_put (t : ContractTable) (i : Nat) (b c : Bucket) :
    (t.put i b).put i c = t.put i c := by
  simp [put]

/-- A contract that owns a slot claims that slot. -/
lemma Placed.claim_of_owned (h : t.Placed) (howned : t.owned? i = some b) :
    claim b.key t = .ok ⟨i, b⟩ t := by
  have hkey := ContractKey.isNull_eq_false_iff.mpr (owned?_eq_some_iff.mp howned).2
  rw [claim_eq, hkey, h.probe_of_owned howned]
  rfl

/-! ### The slot of a contract -/

/-- A contract has a slot in `t`, or claims one, and `t'` is the table then. -/
structure Assigned (t : ContractTable) (key : ContractKey) (i : Nat) (b : Bucket)
    (t' : ContractTable) : Prop where
  claim_eq : claim key t = .ok ⟨i, b⟩ t'
  wellFormed : t'.WellFormed
  owned : t'.owned? i = some b
  key_eq : b.key = key
  layout_eq : b.layout = t.config.layout
  capacity_eq : b.capacity = t.config.bucketSize.toNat
  within : b.Within

lemma Assigned.of_owned (h : t.WellFormed) (howned : t.owned? i = some b) (hwithin : b.Within) :
    t.Assigned b.key i b t where
  claim_eq := h.claim_of_owned howned
  wellFormed := h
  owned := howned
  key_eq := rfl
  layout_eq := (h.shape howned).1
  capacity_eq := (h.shape howned).2
  within := hwithin

/-- A contract has a slot or can claim one unless all slots have other owners. -/
lemma exists_assigned (h : t.WellFormed) (hwithin : ∀ entry ∈ t.active, entry.2.Within)
    (hkey : key ≠ .null) :
    claim key t = .error (.tableFull t.capacity) t ∨ ∃ i b t', t.Assigned key i b t' := by
  have hgranted := Granted.of_claim h key
  generalize hclaim : claim key t = r at hgranted
  cases hgranted with
  | null hnull => exact absurd hnull hkey
  | known hkey howned _ =>
    subst hkey
    have hactive := h.mem_active_iff.mpr ⟨_, howned, rfl⟩
    exact .inr ⟨_, _, _, .of_owned h howned (hwithin _ hactive)⟩
  | new _ _ _ hwell howned _ =>
    have hlayout := Bucket.layout_empty t.config.layout t.config.bucketSize.toNat
    have hwithin := Bucket.within_empty_claim t.config.layout t.config.bucketSize.toNat key
    exact .inr ⟨_, _, _, hclaim, hwell, howned, rfl, hlayout, rfl, hwithin⟩
  | full => exact .inl rfl

namespace Assigned

/-- The bucket of a contract decides on what is inserted for it. -/
lemma insert_eq (h : t.Assigned key i b t') (add : Bucket.Call Unit) :
    insert key add t =
      match add b with
      | .ok () c => .ok () (t'.put i c)
      | .error e c => .error e (t'.put i c) := by
  rw [insert, h.claim_eq]
  dsimp only
  cases add b <;> rfl

/-- A contract keeps its slot, and finds there what it has put there. -/
lemma put (h : t.Assigned key i b t') (hroom : b.HasRoom rs) :
    (t'.put i (b.pushAll rs)).Assigned key i (b.pushAll rs) (t'.put i (b.pushAll rs)) := by
  have hwell := h.wellFormed.put h.owned (Bucket.key_pushAll b rs) (Bucket.layout_pushAll b rs)
    (Bucket.capacity_pushAll b rs)
  have hkey : (b.pushAll rs).key = key := (Bucket.key_pushAll b rs).trans h.key_eq
  obtain ⟨hbucket, hnull⟩ := owned?_eq_some_iff.mp h.owned
  have howned : (t'.put i (b.pushAll rs)).owned? i = some (b.pushAll rs) := by
    rw [owned?_put (lt_capacity_of_bucket? hbucket) ((Bucket.key_pushAll b rs).trans_ne hnull),
      if_pos rfl]
  exact hkey ▸ .of_owned hwell howned hroom.within_pushAll

end Assigned

/-- What adds the same to buckets that are within their room inserts the same. -/
lemma insert_congr (h : t.WellFormed) (hwithin : ∀ entry ∈ t.active, entry.2.Within)
    (hkey : key ≠ .null) {add add' : Bucket.Call Unit}
    (hadd : ∀ b, b.Within → add b = add' b) : insert key add t = insert key add' t := by
  rcases exists_assigned h hwithin hkey with hfull | ⟨i, b, t', hassigned⟩
  · rw [insert, insert, hfull]
  · rw [hassigned.insert_eq, hassigned.insert_eq, hadd b hassigned.within]

end ContractTable

end Candlestick
