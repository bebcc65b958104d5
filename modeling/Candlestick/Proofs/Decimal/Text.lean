import Candlestick.Decimal.Text
import Candlestick.Proofs.Digits

/-!
# Reading decimals back

`Decimal.ofText?` gives back the decimal that `Decimal.text` writes, with all its places, unless it
is a zero with a minus sign (`Decimal.ofText?_text`).
-/

namespace Candlestick

namespace Decimal

variable {ds : List Char} {m scale : Nat} {x : Decimal}

/-- Zero with a minus sign; it is read as zero without one. -/
def IsNegativeZero (x : Decimal) : Prop :=
  x.negative ∧ x.magnitude = 0

/-- A word of digits is appended to the mantissa read so far, if there is room for it. -/
lemma readDigits?_append (m scale : Nat) (point started : Bool) (hds : Digits.IsWord ds)
    (hroom : m * 10 ^ ds.length + Digits.value ds < 2 ^ 96)
    (hscale : point → scale + ds.length ≤ 28) (rest : List Char) :
    readDigits? m scale point started (ds ++ rest) =
      readDigits? (m * 10 ^ ds.length + Digits.value ds)
        (if point then scale + ds.length else scale) point (started || !ds.isEmpty) rest := by
  induction ds generalizing m scale started with
  | nil => simp [Digits.value]
  | cons c ds ih =>
    obtain ⟨hdigit, hds⟩ := List.forall_mem_cons.mp hds
    have hvalue : m * 10 ^ (c :: ds).length + Digits.value (c :: ds) =
        (10 * m + Digits.digit c) * 10 ^ ds.length + Digits.value ds := by
      rw [Digits.value_cons, List.length_cons]
      ring
    rw [hvalue] at hroom
    have hnext : 10 * m + Digits.digit c < 2 ^ 96 :=
      (Nat.le_mul_of_pos_right _ (Nat.pow_pos (by decide))).trans_lt
        ((Nat.le_add_right _ _).trans_lt hroom)
    rw [hvalue, List.cons_append, readDigits?, if_pos hdigit]
    cases point with
    | false => simp [hnext, ih _ _ _ hds hroom]
    | true =>
      have hplaces := hscale rfl
      rw [List.length_cons] at hplaces
      have hscale' : scale < 28 := by omega
      have hlength : scale + 1 + ds.length = scale + (ds.length + 1) := by omega
      have hrest := ih _ (scale + 1) true hds hroom fun _ => by omega
      simp [hnext, hscale', hrest, hlength]

/-- The point and the places of a decimal. -/
def placesChars (m scale : Nat) : List Char :=
  if scale = 0 then [] else '.' :: Digits.fixed 10 scale m

/-- A number without sign is read back. -/
lemma readUnsigned?_chars (hm : m < 2 ^ 96) (hscale : scale ≤ 28) :
    readUnsigned? (Digits.decimal (m / 10 ^ scale) ++ placesChars m scale) =
      ofParts? false m scale := by
  have hwhole : m / 10 ^ scale < 2 ^ 96 := (Nat.div_le_self _ _).trans_lt hm
  have hread := readDigits?_append 0 0 false false
    (Digits.isWord_decimal (m / 10 ^ scale)) (by simpa using hwhole) (by simp)
    (placesChars m scale)
  rw [Nat.zero_mul, Nat.zero_add, Digits.value_decimal] at hread
  have hstarted : (false || !(Digits.decimal (m / 10 ^ scale)).isEmpty) = true := by
    simpa using Digits.decimal_ne_nil (m / 10 ^ scale)
  rw [readUnsigned?, hread, hstarted, if_neg Bool.false_ne_true, placesChars]
  split_ifs with hzero
  · subst hzero
    simp [readDigits?]
  · have hsplit : m / 10 ^ scale * 10 ^ (Digits.fixed 10 scale m).length +
        Digits.value (Digits.fixed 10 scale m) = m := by
      rw [Digits.length_fixed, Digits.value_fixed]
      exact Nat.div_add_mod' m (10 ^ scale)
    have hplaces := readDigits?_append (m / 10 ^ scale) 0 true true (Digits.isWord_fixed scale m)
      (by rwa [hsplit]) (by simpa using hscale) []
    rw [hsplit, List.append_nil, Digits.length_fixed] at hplaces
    rw [readDigits?, if_neg (by decide), if_pos (by decide), hplaces]
    simp [readDigits?]

/-- A text that starts with a digit has no sign. -/
lemma readPlain?_of_isDigit {c : Char} (h : c.isDigit) (cs : List Char) :
    readPlain? (c :: cs) = readUnsigned? (c :: cs) := by
  unfold readPlain?
  split
  · next heq =>
    cases heq
    exact absurd h (by decide)
  · next heq =>
    cases heq
    exact absurd h (by decide)
  · rfl

lemma readPlain?_decimal (n : Nat) (cs : List Char) :
    readPlain? (Digits.decimal n ++ cs) = readUnsigned? (Digits.decimal n ++ cs) := by
  obtain ⟨c, ds, hdecimal, hdigit⟩ := Digits.exists_decimal_eq_cons n
  rw [hdecimal]
  exact readPlain?_of_isDigit hdigit _

/-- A decimal is read back from its text, unless it is a zero with a minus sign. -/
theorem ofText?_text (h : ¬ x.IsNegativeZero) : ofText? x.text = some x := by
  have habs : ofParts? false x.magnitude x.scale = some x.abs :=
    ofParts?_eq_some_iff.mpr ⟨rfl, rfl, rfl⟩
  have hread := (readUnsigned?_chars x.magnitude_lt x.scale_le).trans habs
  suffices hplain : readPlain? x.chars = some x by
    rw [ofText?, text, String.toList_ofList, ofChars?, hplain, Option.some_or]
  have hchars : x.chars = (if x.negative then ['-'] else []) ++
      (Digits.decimal (x.magnitude / 10 ^ x.scale) ++ placesChars x.magnitude x.scale) :=
    List.append_assoc _ _ _
  rw [hchars]
  cases hnegative : x.negative with
  | false =>
    have hx : x.abs = x := by
      rw [abs, ← hnegative]
    rw [if_neg Bool.false_ne_true, List.nil_append, readPlain?_decimal, hread, hx]
  | true =>
    have hx : x.abs.neg = x := by
      have hmagnitude : ¬ x.abs.magnitude = 0 := fun hzero => h ⟨hnegative, hzero⟩
      rw [neg, if_neg hmagnitude, abs, Bool.not_false, ← hnegative]
    rw [if_pos rfl, List.singleton_append, readPlain?, hread, Option.map_some, hx]

end Decimal

end Candlestick
