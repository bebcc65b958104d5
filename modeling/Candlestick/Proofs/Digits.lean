import Candlestick.Digits
import Mathlib.Tactic.Ring
import Mathlib.Tactic.Common

/-!
# Reading digit words back

What `Digits.decimal` and `Digits.fixed` write are words of digits, and `Digits.value` gives the
number back. A word of digits is read off the front of a text as far as it goes.
-/

namespace Candlestick.Digits

variable {ds es rest : List Char} {n : Nat}

/-- All characters of a word are digits. -/
def IsWord (ds : List Char) : Prop :=
  ∀ c ∈ ds, c.isDigit

/-- A text does not go on with a digit. -/
def Ends (rest : List Char) : Prop :=
  ∀ c ∈ rest.head?, ¬ c.isDigit

lemma digit_digitChar (h : n < 10) : digit n.digitChar = n := by
  rw [digit, Nat.toNat_digitChar_of_lt_ten h]
  exact Nat.add_sub_cancel_left 48 n

lemma IsWord.append (hds : IsWord ds) (hes : IsWord es) : IsWord (ds ++ es) :=
  List.forall_mem_append.mpr ⟨hds, hes⟩

/-- A word starts with a digit, unless it is empty. -/
lemma IsWord.exists_cons (hds : IsWord ds) (hne : ds ≠ []) :
    ∃ c cs, ds = c :: cs ∧ c.isDigit := by
  cases ds with
  | nil => exact absurd rfl hne
  | cons c ds => exact ⟨c, ds, rfl, hds c List.mem_cons_self⟩

lemma isWord_digitChar (h : n < 10) : IsWord [n.digitChar] := by
  intro c hc
  rw [List.mem_singleton.mp hc, Nat.isDigit_digitChar]
  exact decide_eq_true h

lemma foldl_eq_value (v : Nat) (ds : List Char) :
    ds.foldl (fun v c => 10 * v + digit c) v = v * 10 ^ ds.length + value ds := by
  induction ds generalizing v with
  | nil => simp [value]
  | cons c ds ih =>
    rw [value, List.foldl_cons, List.foldl_cons, ih, ih (10 * 0 + digit c), List.length_cons]
    ring

lemma value_append (ds es : List Char) :
    value (ds ++ es) = value ds * 10 ^ es.length + value es := by
  rw [value, List.foldl_append, foldl_eq_value, ← value]

lemma value_cons (c : Char) (ds : List Char) :
    value (c :: ds) = digit c * 10 ^ ds.length + value ds := by
  rw [value, List.foldl_cons, foldl_eq_value, Nat.mul_zero, Nat.zero_add]

lemma value_digitChar (h : n < 10) : value [n.digitChar] = n := by
  rw [value, List.foldl_cons, List.foldl_nil, digit_digitChar h, Nat.mul_zero, Nat.zero_add]

/-! ### Decimal words -/

lemma isWord_decimal (n : Nat) : IsWord (decimal n) := by
  fun_induction decimal n with
  | case1 n h => exact isWord_digitChar h
  | case2 n h ih => exact ih.append (isWord_digitChar (Nat.mod_lt n (by decide)))

@[simp] lemma value_decimal (n : Nat) : value (decimal n) = n := by
  fun_induction decimal n with
  | case1 n h => exact value_digitChar h
  | case2 n h ih =>
    rw [value_append, ih, value_digitChar (Nat.mod_lt n (by decide))]
    exact Nat.div_add_mod' n 10

lemma decimal_ne_nil (n : Nat) : decimal n ≠ [] := by
  fun_induction decimal n <;> simp

/-- The decimal word of a positive number does not start with zero. -/
lemma head?_decimal_ne (h : 0 < n) : (decimal n).head? ≠ some '0' := by
  fun_induction decimal n with
  | case1 n hlt =>
    rw [List.head?_cons, ne_eq, Option.some_inj]
    intro hzero
    have hdigit := digit_digitChar hlt
    rw [hzero, show digit '0' = 0 by decide] at hdigit
    exact h.ne hdigit
  | case2 n hle ih =>
    cases hdecimal : decimal (n / 10) with
    | nil => exact absurd hdecimal (decimal_ne_nil _)
    | cons c ds =>
      rw [hdecimal] at ih
      exact ih (by omega)

lemma exists_decimal_eq_cons (n : Nat) : ∃ c ds, decimal n = c :: ds ∧ c.isDigit :=
  (isWord_decimal n).exists_cons (decimal_ne_nil n)

/-! ### Words of a set length -/

lemma isWord_fixed (width n : Nat) : IsWord (fixed 10 width n) := by
  induction width generalizing n with
  | zero => exact fun _ hc => by cases hc
  | succ width ih => exact (ih _).append (isWord_digitChar (Nat.mod_lt n (by decide)))

lemma fixed_ne_nil {width : Nat} (hwidth : 0 < width) (n : Nat) : fixed 10 width n ≠ [] := by
  rw [← List.length_pos_iff, length_fixed]
  exact hwidth

@[simp] lemma value_fixed (width n : Nat) : value (fixed 10 width n) = n % 10 ^ width := by
  induction width generalizing n with
  | zero => simp [fixed, value, Nat.mod_one]
  | succ width ih =>
    rw [fixed, value_append, ih, value_digitChar (Nat.mod_lt n (by decide)), List.length_singleton]
    rw [Nat.pow_succ' (n := width), Nat.mod_mul]
    ring

lemma eq_of_digitChar_eq {m : Nat} (hn : n < 16) (hm : m < 16) (h : n.digitChar = m.digitChar) :
    n = m := by
  have hall : ∀ n < 16, ∀ m < 16, n.digitChar = m.digitChar → n = m := by decide
  exact hall n hn m hm h

/-- A word tells of a number all that it has room for. -/
lemma mod_eq_of_fixed_eq {base width m : Nat} (hpos : 0 < base) (hle : base ≤ 16)
    (h : fixed base width n = fixed base width m) : n % base ^ width = m % base ^ width := by
  induction width generalizing n m with
  | zero => rw [Nat.pow_zero, Nat.mod_one, Nat.mod_one]
  | succ width ih =>
    have hdigit (n : Nat) : n % base < 16 := (Nat.mod_lt n hpos).trans_le hle
    obtain ⟨hupper, hlast⟩ := List.append_inj' h rfl
    have hmod := eq_of_digitChar_eq (hdigit n) (hdigit m) (List.singleton_inj.mp hlast)
    rw [Nat.pow_succ' (n := width), Nat.mod_mul, Nat.mod_mul, hmod, ih hupper]

/-! ### Padded words -/

lemma IsWord.leftpad (hds : IsWord ds) (width : Nat) : IsWord (ds.leftpad width '0') := by
  refine IsWord.append (fun c hc => ?_) hds
  rw [(List.mem_replicate.mp hc).2]
  rfl

@[simp] lemma value_leftpad (width : Nat) (ds : List Char) :
    value (ds.leftpad width '0') = value ds := by
  have hzeros (count : Nat) : value (List.replicate count '0') = 0 := by
    induction count with
    | zero => rfl
    | succ count ih =>
      rw [List.replicate_succ, value_cons, ih]
      exact Nat.zero_mul _
  rw [List.leftpad, value_append, hzeros, Nat.zero_mul, Nat.zero_add]

lemma leftpad_decimal_ne_nil (width n : Nat) : (decimal n).leftpad width '0' ≠ [] :=
  List.append_ne_nil_of_right_ne_nil _ (decimal_ne_nil n)

/-! ### Words at the front of a text -/

lemma span_append (hds : IsWord ds) (hrest : Ends rest) : span (ds ++ rest) = (ds, rest) := by
  rw [span, List.takeWhile_append_of_pos hds, List.dropWhile_append_of_pos hds]
  cases rest with
  | nil => simp
  | cons c rest =>
    have hc : ¬ c.isDigit := hrest c rfl
    rw [List.takeWhile_cons_of_neg hc, List.dropWhile_cons_of_neg hc, List.append_nil]

lemma word?_append (hne : ds ≠ []) (hds : IsWord ds) (hrest : Ends rest) :
    word? (ds ++ rest) = some (ds, rest) := by
  rw [word?, span_append hds hrest, if_neg hne]

end Candlestick.Digits
