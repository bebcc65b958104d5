import Candlestick.KeyHasher
import Mathlib.Data.FinEnum
import Mathlib.Data.Fintype.Card
import Mathlib.Tactic.Common

/-!
# What a hash tells of a key

A hash sees the exclusive or of the words of a key and nothing else of it. Every step after that
can be undone: the factors are odd, a rotation keeps all bits, and no two words fold down to the
same one. So two keys collide if and only if their words have the same exclusive or, whatever the
seed, and every word is the hash of a key (`KeyHasher.hash_tells_fold`).
-/

namespace Candlestick.KeyHasher

variable {w v : UInt32}

/-! ### Steps that can be undone -/

/-- A factor with an inverse can be undone. -/
lemma mul_inj {factor : UInt32} (inverse : UInt32) (h : factor * inverse = 1) :
    w * factor = v * factor ↔ w = v := by
  constructor
  · intro heq
    calc
      w = w * factor * inverse := by rw [UInt32.mul_assoc, h, UInt32.mul_one]
      _ = v * factor * inverse := by rw [heq]
      _ = v := by rw [UInt32.mul_assoc, h, UInt32.mul_one]
  · rintro rfl
    rfl

lemma toBitVec_rotate {count : UInt32} (hpos : 0 < count.toNat) (hlt : count.toNat < 32) :
    (rotate w count).toBitVec = w.toBitVec.rotateLeft count.toNat := by
  have hrest : (32 - count).toNat = 32 - count.toNat := by
    rw [UInt32.toNat_sub_of_le]
    · rfl
    · exact UInt32.le_iff_toNat_le.mpr hlt.le
  have hshift (c : UInt32) (hc : c.toNat < 32) : (c.toBitVec % 32).toNat = c.toNat := by
    rw [BitVec.toNat_umod]
    exact Nat.mod_eq_of_lt hc
  rw [rotate, UInt32.toBitVec_or, UInt32.toBitVec_shiftLeft, UInt32.toBitVec_shiftRight,
    BitVec.shiftLeft_eq', BitVec.ushiftRight_eq', hshift _ hlt, hshift _ (by omega), hrest,
    BitVec.rotateLeft_def, Nat.mod_eq_of_lt hlt]

/-- Turning the bits back gives the word again. -/
lemma rotateRight_rotateLeft {n r : Nat} (hr : r < n) (x : BitVec n) :
    (x.rotateLeft r).rotateRight r = x := by
  apply BitVec.eq_of_getLsbD_eq
  intro i hi
  rw [BitVec.getLsbD_rotateRight_of_lt hr]
  by_cases hlow : i < n - r
  · rw [decide_eq_true hlow, cond_true, BitVec.getLsbD_rotateLeft_of_le hr,
      decide_eq_false (by omega), cond_false, decide_eq_true (by omega), Bool.true_and,
      Nat.add_sub_cancel_left]
  · rw [decide_eq_false hlow, cond_false, BitVec.getLsbD_rotateLeft_of_le hr, decide_eq_true hi,
      Bool.true_and, decide_eq_true (by omega), cond_true, Nat.add_sub_cancel' (by omega)]

lemma rotate_inj {count : UInt32} (hpos : 0 < count.toNat) (hlt : count.toNat < 32) :
    rotate w count = rotate v count ↔ w = v := by
  constructor
  · intro h
    have hbits := congrArg UInt32.toBitVec h
    rw [toBitVec_rotate hpos hlt, toBitVec_rotate hpos hlt] at hbits
    rw [← UInt32.toBitVec_inj, ← rotateRight_rotateLeft hlt w.toBitVec, hbits,
      rotateRight_rotateLeft hlt]
  · rintro rfl
    rfl

/-- Only the zero word is a shift of its own. -/
lemma eq_zero_of_shiftRight {count : UInt32} (hpos : 0 < count.toNat) (hlt : count.toNat < 32)
    (h : w >>> count = w) : w = 0 := by
  have hnat := congrArg UInt32.toNat h
  rw [UInt32.toNat_shiftRight, Nat.mod_eq_of_lt hlt, Nat.shiftRight_eq_div_pow] at hnat
  have hzero : w.toNat = 0 := by
    by_contra hne
    exact (Nat.div_lt_self (Nat.pos_of_ne_zero hne) (Nat.one_lt_two_pow hpos.ne')).ne hnat
  exact UInt32.toNat_inj.mp hzero

lemma foldDown_inj {count : UInt32} (hpos : 0 < count.toNat) (hlt : count.toNat < 32) :
    foldDown w count = foldDown v count ↔ w = v := by
  constructor
  · intro h
    -- The words differ in a word that is its own shift, since folding down is linear.
    have hshift : (w ^^^ v) >>> count = w ^^^ v := by
      rw [UInt32.shiftRight_xor, ← UInt32.xor_eq_zero_iff]
      calc
        w >>> count ^^^ v >>> count ^^^ (w ^^^ v)
          = foldDown w count ^^^ foldDown v count := by rw [foldDown, foldDown]; ac_rfl
        _ = 0 := UInt32.xor_eq_zero_iff.mpr h
    exact UInt32.xor_eq_zero_iff.mp (eq_zero_of_shiftRight hpos hlt hshift)
  · rintro rfl
    rfl

/-! ### The steps of the hash -/

lemma scramble_inj : scramble w = scramble v ↔ w = v := by
  rw [scramble, scramble, mul_inj 0x56ed309b (by decide),
    rotate_inj (by decide) (by decide), mul_inj 0xdee13bb1 (by decide)]

lemma absorb_eq_iff {s t : UInt32} : absorb s w = absorb t v ↔ s ^^^ w = t ^^^ v := by
  rw [absorb, absorb, UInt32.add_left_inj, mul_inj 0xcccccccd (by decide),
    rotate_inj (by decide) (by decide)]

lemma avalanche_inj : avalanche w = avalanche v ↔ w = v := by
  rw [avalanche, avalanche, foldDown_inj (by decide) (by decide),
    mul_inj 0x7ed1b41d (by decide), foldDown_inj (by decide) (by decide),
    mul_inj 0xa5cb9243 (by decide), foldDown_inj (by decide) (by decide)]

/-! ### The hash -/

/-- The seed and the key meet in an exclusive or, and no later step loses anything of it. -/
lemma hash_eq_hash_iff {h h' : KeyHasher} {k k' : ContractKey} :
    h.hash k = h'.hash k' ↔ h.seed ^^^ scramble (fold k) = h'.seed ^^^ scramble (fold k') := by
  rw [hash, hash, avalanche_inj, UInt32.xor_left_inj, absorb_eq_iff]

lemma hash_eq_iff_fold {h : KeyHasher} {k k' : ContractKey} :
    h.hash k = h.hash k' ↔ fold k = fold k' := by
  rw [hash_eq_hash_iff, UInt32.xor_right_inj, scramble_inj]

/-- Every word is the hash of some key that names a contract. -/
lemma exists_hash_eq (h : KeyHasher) (w : UInt32) : ∃ k, k ≠ .null ∧ h.hash k = w := by
  -- The second word is one, so that the key is not null, and the first one takes it back.
  have hinj : Function.Injective fun v => h.hash ⟨v ^^^ 1, 1, 0⟩ := by
    intro v v' heq
    have hfold := hash_eq_iff_fold.mp heq
    simpa [fold] using hfold
  obtain ⟨v, hv⟩ := Finite.injective_iff_surjective.mp hinj w
  refine ⟨_, ?_, hv⟩
  simp [ContractKey.null]

/--
Two keys collide if and only if their words have the same exclusive or, and so they do under every
seed if they do under one. No two seeds hash a key alike, and every word is the hash of some key
that names a contract.
-/
theorem hash_tells_fold (h h' : KeyHasher) (k k' : ContractKey) (w : UInt32) :
    (h.hash k = h.hash k' ↔ k.w0 ^^^ k.w1 ^^^ k.w2 = k'.w0 ^^^ k'.w1 ^^^ k'.w2) ∧
      (h.hash k = h'.hash k ↔ h.seed = h'.seed) ∧
      (∃ key, key ≠ .null ∧ h.hash key = w) ∧
      (h.hash k = h.hash k' ↔ h'.hash k = h'.hash k') := by
  refine ⟨hash_eq_iff_fold, ?_, exists_hash_eq h w, ?_⟩
  · rw [hash_eq_hash_iff, UInt32.xor_left_inj]
  · rw [hash_eq_iff_fold, hash_eq_iff_fold]

end Candlestick.KeyHasher
