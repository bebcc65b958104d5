import Candlestick.Json.Token
import Candlestick.Proofs.Digits

/-!
# Scanning what is written

`Token.scan?` gives back the tokens that `Token.chars` writes. A string is read back whatever
characters it has, and a natural number if a comma or a closing bracket or brace follows it.
-/

namespace Candlestick.Json.Token

variable {cs rest : List Char} {t : Token}

/-! ### Strings -/

lemma hexDigit?_digitChar : ∀ n < 16, hexDigit? n.digitChar = some n := by
  decide

lemma scanHex?_fixed {n : Nat} (h : n < 16 ^ 4) (rest : List Char) :
    scanHex? (Digits.fixed 16 4 n ++ rest) = some (n, rest) := by
  have hdigit (m : Nat) : hexDigit? (m % 16).digitChar = some (m % 16) :=
    hexDigit?_digitChar _ (Nat.mod_lt m (by decide))
  simp only [Digits.fixed, List.nil_append, List.cons_append, scanHex?, hdigit, Option.pure_def,
    Option.bind_eq_bind, Option.bind_some, Option.some.injEq, Prod.mk.injEq, and_true]
  omega

/-- A control character is read back from its number. -/
lemma scanUnicode?_fixed {c : Char} (h : c.toNat < 0x20) (rest : List Char) :
    scanUnicode? (Digits.fixed 16 4 c.toNat ++ rest) = some (some c, rest) := by
  rw [scanUnicode?, scanHex?_fixed (by omega)]
  simp only [Option.bind_eq_bind, Option.bind_some]
  rw [if_neg (by omega), if_neg (by omega), Char.ofNat_toNat]
  rfl

lemma scanString?_of_scanEscape? {c : Option Char} (h : scanEscape? cs = some (c, rest)) :
    scanString? ('\\' :: cs) = (scanString? rest).map fun (s, rest) => (c :: s, rest) := by
  rw [scanString?]
  split
  · next hescape =>
    cases h.symm.trans hescape
    rfl
  · next hescape => cases h.symm.trans hescape

lemma scanString?_escape (c : Char) (cs : List Char) :
    scanString? (escape c ++ cs) = (scanString? cs).map fun (s, rest) => (some c :: s, rest) := by
  unfold escape
  split
  case h_6 hquote hbackslash _ _ _ =>
    split_ifs with hb hf hu
    · rw [show c = .ofNat 0x08 by rw [← hb, Char.ofNat_toNat]]
      exact scanString?_of_scanEscape? rfl
    · rw [show c = .ofNat 0x0c by rw [← hf, Char.ofNat_toNat]]
      exact scanString?_of_scanEscape? rfl
    · exact scanString?_of_scanEscape? (scanUnicode?_fixed hu cs)
    · rw [List.singleton_append, scanString?, if_neg hu]
      · exact hquote
      · exact hbackslash
  all_goals exact scanString?_of_scanEscape? rfl

lemma scanString?_flatMap (s rest : List Char) :
    scanString? (s.flatMap escape ++ '"' :: rest) = some (s.map some, rest) := by
  induction s with
  | nil =>
    rw [List.flatMap_nil, List.nil_append, scanString?]
    rfl
  | cons c s ih =>
    rw [List.flatMap_cons, List.append_assoc, scanString?_escape, ih]
    rfl

lemma textOf?_map_some (s : String) : textOf? (s.toList.map some) = some s := by
  have hmap : (s.toList.map some).mapM id = some s.toList := by
    induction s.toList with
    | nil => rfl
    | cons c cs ih =>
      rw [List.map_cons, List.mapM_cons, ih]
      rfl
  rw [textOf?, hmap, Option.map_some, String.ofList_toList]

/-! ### Numbers -/

/-- A text goes on with a comma or a closing bracket or brace, if it goes on. -/
def IsDelimited (rest : List Char) : Prop :=
  ∀ c ∈ rest.head?, c = ',' ∨ c = ']' ∨ c = '\x7d'

lemma IsDelimited.ends (h : IsDelimited rest) : Digits.Ends rest := by
  intro c hc
  rcases h c hc with rfl | rfl | rfl <;> decide

lemma scanWhole?_decimal (n : Nat) (hrest : IsDelimited rest) :
    scanWhole? (Digits.decimal n ++ rest) = some (Digits.decimal n, rest) := by
  have hword := Digits.word?_append (Digits.decimal_ne_nil n) (Digits.isWord_decimal n) hrest.ends
  rw [scanWhole?, hword]
  refine Option.filter_eq_some_iff.mpr ⟨rfl, ?_⟩
  rcases n.eq_zero_or_pos with rfl | hpos
  · rw [Digits.decimal_of_lt (by decide)]
    rfl
  · simp [Digits.head?_decimal_ne hpos]

lemma scanFraction?_of_isDelimited (h : IsDelimited rest) :
    scanFraction? rest = some ([], rest) := by
  unfold scanFraction?
  split
  · next cs => simpa using h '.' rfl
  · rfl

lemma scanExponent?_of_isDelimited (h : IsDelimited rest) :
    scanExponent? rest = some ([], rest) := by
  unfold scanExponent?
  split
  · rfl
  · next c cs =>
    rw [if_neg]
    rintro (rfl | rfl)
    · simpa using h 'e' rfl
    · simpa using h 'E' rfl

lemma scanUnsigned?_decimal (n : Nat) (hrest : IsDelimited rest) :
    scanUnsigned? (Digits.decimal n ++ rest) = some (natural n, rest) := by
  simp only [scanUnsigned?, scanWhole?_decimal n hrest, scanFraction?_of_isDelimited hrest,
    scanExponent?_of_isDelimited hrest, Option.bind_eq_bind, Option.bind_some, List.append_nil,
    if_pos, Digits.value_decimal, Option.pure_def]

/-- A text that starts with a digit starts with a number. -/
lemma next?_of_isDigit {c : Char} (h : c.isDigit) (cs : List Char) :
    next? (c :: cs) = scanUnsigned? (c :: cs) := by
  unfold next?
  split
  case h_12 => rfl
  all_goals exact absurd h (by simp_all)

/-! ### Tokens -/

/-- A token that is read back if a text goes on after it in the given way. -/
def FollowedBy (rest : List Char) : Token → Prop
  | natural _ => IsDelimited rest
  | number _ | string none => False
  | _ => True

lemma next?_decimal (n : Nat) (hrest : IsDelimited rest) :
    next? (Digits.decimal n ++ rest) = some (natural n, rest) := by
  rw [← scanUnsigned?_decimal n hrest]
  obtain ⟨c, ds, hdecimal, hdigit⟩ := Digits.exists_decimal_eq_cons n
  rw [hdecimal]
  exact next?_of_isDigit hdigit _

lemma next?_string (s : String) (rest : List Char) :
    next? ((string s).chars ++ rest) = some (string s, rest) := by
  have hchars :
      (string s).chars ++ rest = '"' :: (s.toList.flatMap escape ++ '"' :: rest) := by
    simp [chars]
  rw [hchars, next?, scanString?_flatMap, Option.map_some]
  exact congrArg (fun s => some (string s, rest)) (textOf?_map_some s)

/-- A token is read back from the front of a text. -/
lemma next?_chars (h : t.FollowedBy rest) : next? (t.chars ++ rest) = some (t, rest) := by
  cases t with
  | natural n => exact next?_decimal n h
  | number text => exact h.elim
  | string s =>
    cases s with
    | none => exact h.elim
    | some s => exact next?_string s rest
  | bool b => cases b <;> rfl
  | openBrace | closeBrace | openBracket | closeBracket | colon | comma | null => rfl

/-- No token starts with a blank. -/
lemma exists_chars_eq_cons (h : t.FollowedBy rest) : ∃ c cs, t.chars = c :: cs ∧ ¬ isSpace c := by
  cases t with
  | natural n =>
    obtain ⟨c, ds, hdecimal, hdigit⟩ := Digits.exists_decimal_eq_cons n
    refine ⟨c, ds, hdecimal, fun hspace => ?_⟩
    simp only [isSpace, Bool.or_eq_true, beq_iff_eq] at hspace
    rcases hspace with ((rfl | rfl) | rfl) | rfl <;> exact absurd hdigit (by decide)
  | number text => exact h.elim
  | string s =>
    cases s with
    | none => exact h.elim
    | some s => exact ⟨_, _, rfl, by decide⟩
  | bool b => cases b <;> exact ⟨_, _, rfl, by decide⟩
  | openBrace | closeBrace | openBracket | closeBracket | colon | comma | null =>
    exact ⟨_, _, rfl, by decide⟩

/-- Scanning goes on after a token. -/
lemma scan?_chars (h : t.FollowedBy rest) :
    scan? (t.chars ++ rest) = (scan? rest).map (t :: ·) := by
  obtain ⟨c, cs, hchars, hspace⟩ := exists_chars_eq_cons h
  have hnext := next?_chars h
  rw [hchars, List.cons_append] at hnext ⊢
  rw [scan?, if_neg hspace]
  split
  · next heq =>
    cases hnext.symm.trans heq
    rfl
  · next heq => cases hnext.symm.trans heq

end Candlestick.Json.Token
