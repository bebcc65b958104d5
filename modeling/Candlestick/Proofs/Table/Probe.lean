import Candlestick.Proofs.Table.Slot

/-!
# Where a search ends

A search passes the slots that other contracts own. It ends at the first slot that the key owns
or that nobody owns, and finds nothing if it has gone all the way round (`Probed.of_probe`).
-/

namespace Candlestick

namespace ContractTable

variable {t : ContractTable} {key : ContractKey}

/-- The first `d` slots on the way round from the key's home belong to other contracts. -/
def Passes (t : ContractTable) (key : ContractKey) (d : Nat) : Prop :=
  ∀ e < d, ∃ k, t.owner? (t.slotAt key e) = some k ∧ k ≠ key

/-- What a search for a key can come to. -/
inductive Probed (t : ContractTable) (key : ContractKey) : Option Probe → Prop
  /-- The search ends at a slot of the key. -/
  | occupied {i d : Nat} {b : Bucket} (hslot : t.slotAt key d = i) (hd : d < t.capacity)
      (hpass : t.Passes key d) (howned : t.owned? i = some b) (hkey : b.key = key) :
      Probed t key (some (.occupied i b))
  /-- The search ends at a slot that nobody owns. -/
  | free {i d : Nat} (hslot : t.slotAt key d = i) (hd : d < t.capacity)
      (hpass : t.Passes key d) (hfree : t.owned? i = none) : Probed t key (some (.free i))
  /-- All slots belong to other contracts. -/
  | none (hpass : t.Passes key t.capacity) : Probed t key none

namespace Probed

/-- A search that comes to a slot ends there or passes it. -/
lemma visit_cases {d : Nat} (hd : d < t.capacity) (hpass : t.Passes key d) :
    (∃ p, t.visit key d = some p ∧ Probed t key (some p)) ∨
      t.visit key d = .none ∧ t.Passes key (d + 1) := by
  rw [visit]
  cases howned : t.owned? (t.slotAt key d) with
  | none => exact .inl ⟨_, rfl, .free rfl hd hpass howned⟩
  | some b =>
    by_cases hkey : b.key = key
    · exact .inl ⟨_, if_pos hkey, .occupied rfl hd hpass howned hkey⟩
    · refine .inr ⟨if_neg hkey, ?_⟩
      intro e he
      rcases Nat.lt_succ_iff_lt_or_eq.mp he with hlt | rfl
      · exact hpass e hlt
      · exact ⟨b.key, owner?_eq_some howned, hkey⟩

/-- The last steps of a search, once the steps before them have passed. -/
lemma of_probeLast {left : Nat} (hleft : left ≤ t.capacity)
    (hpass : t.Passes key (t.capacity - left)) : Probed t key (t.probeLast key left) := by
  induction left with
  | zero => exact .none hpass
  | succ left ih =>
    rw [probeLast]
    rcases visit_cases (by omega) hpass with ⟨p, hp, hprobed⟩ | ⟨hnone, hpass⟩
    · rw [hp]
      exact hprobed
    · rw [hnone]
      rw [show t.capacity - (left + 1) + 1 = t.capacity - left by omega] at hpass
      exact ih (by omega) hpass

/-- What the search for a key that names a contract comes to. -/
lemma of_probe (hkey : key ≠ .null) : Probed t key (t.probe key) := by
  rw [probe, if_neg (by simpa [ContractKey.isNull_iff] using hkey)]
  refine of_probeLast (Nat.le_refl _) ?_
  intro e he
  omega

end Probed

end ContractTable

end Candlestick
