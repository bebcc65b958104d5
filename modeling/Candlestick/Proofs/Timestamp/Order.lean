import Candlestick.Timestamp.Basic
import Mathlib.Order.Defs.LinearOrder
import Mathlib.Tactic.Common

/-!
# The order of timestamps

Timestamps are ordered by their seconds and, within a second, by their nanoseconds. The order is
linear, and `Timestamp.min` and `Timestamp.max` are its minimum and maximum.
-/

namespace Candlestick

namespace Timestamp

lemma lt_iff {t u : Timestamp} :
    t < u ↔ t.seconds < u.seconds ∨ t.seconds = u.seconds ∧ t.nanos < u.nanos := Iff.rfl

lemma le_iff {t u : Timestamp} :
    t ≤ u ↔ t.seconds < u.seconds ∨ t.seconds = u.seconds ∧ t.nanos ≤ u.nanos := Iff.rfl

lemma ext_parts {t u : Timestamp} (hs : t.seconds = u.seconds) (hn : t.nanos = u.nanos) :
    t = u := by
  cases t
  cases u
  simp_all

instance : LinearOrder Timestamp where
  le_refl t := le_iff.mpr (.inr ⟨rfl, Nat.le_refl _⟩)
  le_trans t u v htu huv := by
    rw [le_iff] at *
    omega
  lt_iff_le_not_ge t u := by
    rw [lt_iff, le_iff, le_iff]
    omega
  le_antisymm t u htu hut := by
    rw [le_iff] at *
    exact ext_parts (by omega) (by omega)
  le_total t u := by
    rw [le_iff, le_iff]
    omega
  toDecidableLE := inferInstance
  min := Timestamp.min
  max := Timestamp.max
  min_def t u := by
    unfold Timestamp.min
    split_ifs with hlt hle hle
    · rw [lt_iff] at hlt
      rw [le_iff] at hle
      omega
    · rfl
    · rfl
    · rw [lt_iff] at hlt
      rw [le_iff] at hle
      omega
  max_def t u := by
    unfold Timestamp.max
    split_ifs with hlt hle hle
    · rfl
    · rw [lt_iff] at hlt
      rw [le_iff] at hle
      omega
    · rw [lt_iff] at hlt
      rw [le_iff] at hle
      exact ext_parts (by omega) (by omega)
    · rfl

end Timestamp

end Candlestick
