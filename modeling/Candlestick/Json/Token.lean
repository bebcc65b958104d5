import Candlestick.Digits

/-!
# JSON tokens

The words that JSON texts are made of. `Token.chars` writes a token and `Token.scan?` takes a text
apart into its tokens; blanks between tokens are skipped.

A character beyond the first 65536 is escaped as two halves. A string in which one of them stands
alone is read to its end, but it has no text.
-/

namespace Candlestick.Json

/-- A word of a JSON text. -/
inductive Token
  | openBrace
  | closeBrace
  | openBracket
  | closeBracket
  | colon
  | comma
  | null
  | bool (b : Bool)
  | natural (n : Nat)
  | number (text : List Char)
  /-- A string, with its text if it has one. -/
  | string (s : Option String)
deriving DecidableEq

namespace Token

/-! ### Writing -/

/-- A character as it is written in a string. -/
def escape (c : Char) : List Char :=
  match c with
  | '"' => ['\\', '"']
  | '\\' => ['\\', '\\']
  | '\n' => ['\\', 'n']
  | '\r' => ['\\', 'r']
  | '\t' => ['\\', 't']
  | _ =>
    if c.toNat = 0x08 then ['\\', 'b']
    else if c.toNat = 0x0c then ['\\', 'f']
    else if c.toNat < 0x20 then '\\' :: 'u' :: Digits.fixed 16 4 c.toNat
    else [c]

def chars : Token → List Char
  | openBrace => ['\x7b']
  | closeBrace => ['\x7d']
  | openBracket => ['[']
  | closeBracket => [']']
  | colon => [':']
  | comma => [',']
  | null => ['n', 'u', 'l', 'l']
  | bool true => ['t', 'r', 'u', 'e']
  | bool false => ['f', 'a', 'l', 's', 'e']
  | natural n => Digits.decimal n
  | number text => text
  | string (some s) => '"' :: s.toList.flatMap escape ++ ['"']
  | string none => ['"', '\\', 'u', 'd', '8', '0', '0', '"']

/-! ### Strings -/

/-- The number that a hexadecimal digit stands for. -/
def hexDigit? (c : Char) : Option Nat :=
  if c.isDigit then some (c.toNat - '0'.toNat)
  else if 'a' ≤ c ∧ c ≤ 'f' then some (c.toNat - 'a'.toNat + 10)
  else if 'A' ≤ c ∧ c ≤ 'F' then some (c.toNat - 'A'.toNat + 10)
  else none

/-- Reads a number of four hexadecimal digits. -/
def scanHex? : List Char → Option (Nat × List Char)
  | a :: b :: c :: d :: cs => do
    return (16 ^ 3 * (← hexDigit? a) + 16 ^ 2 * (← hexDigit? b) + 16 * (← hexDigit? c) +
      (← hexDigit? d), cs)
  | _ => none

/-- Reads the second half of a character that is escaped in two halves. -/
def scanLowHalf? : List Char → Option (Nat × List Char)
  | '\\' :: 'u' :: cs => do
    let (low, cs) ← scanHex? cs
    if 0xdc00 ≤ low ∧ low < 0xe000 then some (low, cs) else none
  | _ => none

/-- Reads a character that is escaped by its number, or half a character that stands alone. -/
def scanUnicode? (cs : List Char) : Option (Option Char × List Char) := do
  let (n, cs) ← scanHex? cs
  if 0xd800 ≤ n ∧ n < 0xdc00 then
    match scanLowHalf? cs with
    | some (low, rest) =>
      return (some (.ofNat (0x10000 + (n - 0xd800) * 0x400 + (low - 0xdc00))), rest)
    | none => return (none, cs)
  else if 0xdc00 ≤ n ∧ n < 0xe000 then return (none, cs)
  else return (some (.ofNat n), cs)

/-- Reads what follows a backslash: a character, or half of one that stands alone. -/
def scanEscape? : List Char → Option (Option Char × List Char)
  | '"' :: cs => some ('"', cs)
  | '\\' :: cs => some ('\\', cs)
  | '/' :: cs => some ('/', cs)
  | 'b' :: cs => some (some (.ofNat 0x08), cs)
  | 'f' :: cs => some (some (.ofNat 0x0c), cs)
  | 'n' :: cs => some ('\n', cs)
  | 'r' :: cs => some ('\r', cs)
  | 't' :: cs => some ('\t', cs)
  | 'u' :: cs => scanUnicode? cs
  | _ => none

theorem scanHex?_length {cs rest : List Char} {n : Nat} (h : scanHex? cs = some (n, rest)) :
    rest.length < cs.length := by
  unfold scanHex? at h
  split at h
  · simp only [Option.bind_eq_bind, Option.bind_eq_some_iff, Option.pure_def,
      Option.some.injEq, Prod.mk.injEq] at h
    obtain ⟨_, _, _, _, _, _, _, _, _, rfl⟩ := h
    simp only [List.length_cons]
    omega
  · cases h

theorem scanLowHalf?_length {cs rest : List Char} {n : Nat}
    (h : scanLowHalf? cs = some (n, rest)) : rest.length < cs.length := by
  unfold scanLowHalf? at h
  split at h
  · simp only [Option.bind_eq_bind, Option.bind_eq_some_iff] at h
    obtain ⟨⟨low, cs'⟩, hl, h⟩ := h
    have := scanHex?_length hl
    split at h
    · cases h
      simp only [List.length_cons]
      omega
    · cases h
  · cases h

theorem scanUnicode?_length {cs rest : List Char} {c : Option Char}
    (h : scanUnicode? cs = some (c, rest)) : rest.length < cs.length := by
  unfold scanUnicode? at h
  simp only [Option.bind_eq_bind, Option.bind_eq_some_iff] at h
  obtain ⟨⟨n, cs'⟩, hn, h⟩ := h
  have := scanHex?_length hn
  dsimp only at h
  split at h
  · split at h
    · next hl =>
      cases h
      exact Nat.lt_trans (scanLowHalf?_length hl) this
    · cases h
      exact this
  · split at h <;> (cases h; exact this)

theorem scanEscape?_length {cs rest : List Char} {c : Option Char}
    (h : scanEscape? cs = some (c, rest)) : rest.length < cs.length := by
  unfold scanEscape? at h
  split at h
  case h_9 =>
    have := scanUnicode?_length h
    simp only [List.length_cons]
    omega
  case h_10 => cases h
  all_goals
    cases h
    simp

/-- Reads the characters of a string up to its closing quote. A half that stands alone is none. -/
def scanString? (cs : List Char) : Option (List (Option Char) × List Char) :=
  match cs with
  | [] => none
  | '"' :: cs => some ([], cs)
  | '\\' :: cs =>
    match _h : scanEscape? cs with
    | some (c, rest) => (scanString? rest).map fun (s, rest) => (c :: s, rest)
    | none => none
  | c :: cs =>
    if c.toNat < 0x20 then none else (scanString? cs).map fun (s, rest) => (c :: s, rest)
termination_by cs.length
decreasing_by
  · have := scanEscape?_length _h
    simp only [List.length_cons]
    omega
  · simp

/-- The text of a string in which no half of a character stands alone. -/
def textOf? (s : List (Option Char)) : Option String :=
  (s.mapM id).map .ofList

/-! ### Numbers -/

/-- Reads the whole part of a number, which has no leading zero. -/
def scanWhole? (cs : List Char) : Option (List Char × List Char) :=
  (Digits.word? cs).filter fun (ds, _) => ds.length == 1 || ds.head? != some '0'

/-- Reads the fraction of a number, if there is one. -/
def scanFraction? : List Char → Option (List Char × List Char)
  | '.' :: cs => (Digits.word? cs).map fun (ds, rest) => ('.' :: ds, rest)
  | cs => some ([], cs)

/-- Takes the sign of an exponent off a text, if there is one. -/
def splitSign : List Char → List Char × List Char
  | '+' :: cs => (['+'], cs)
  | '-' :: cs => (['-'], cs)
  | cs => ([], cs)

/-- Reads the exponent of a number, if there is one. -/
def scanExponent? : List Char → Option (List Char × List Char)
  | [] => some ([], [])
  | c :: cs =>
    if c = 'e' ∨ c = 'E' then
      (Digits.word? (splitSign cs).2).map fun (ds, rest) => (c :: (splitSign cs).1 ++ ds, rest)
    else some ([], c :: cs)

/-- Reads a number without sign. -/
def scanUnsigned? (cs : List Char) : Option (Token × List Char) := do
  let (whole, cs) ← scanWhole? cs
  let (fraction, cs) ← scanFraction? cs
  let (exponent, cs) ← scanExponent? cs
  if fraction ++ exponent = [] then return (natural (Digits.value whole), cs)
  else return (number (whole ++ fraction ++ exponent), cs)

/-- A number with a minus sign before it. -/
def negate : Token → Token
  | natural n => number ('-' :: Digits.decimal n)
  | number text => number ('-' :: text)
  | t => t

/-! ### Texts -/

/-- Whether a character may stand between tokens. -/
def isSpace (c : Char) : Bool :=
  c == ' ' || c == '\t' || c == '\n' || c == '\r'

/-- Reads the token at the front of a text. -/
def next? : List Char → Option (Token × List Char)
  | '\x7b' :: cs => some (openBrace, cs)
  | '\x7d' :: cs => some (closeBrace, cs)
  | '[' :: cs => some (openBracket, cs)
  | ']' :: cs => some (closeBracket, cs)
  | ':' :: cs => some (colon, cs)
  | ',' :: cs => some (comma, cs)
  | 'n' :: 'u' :: 'l' :: 'l' :: cs => some (null, cs)
  | 't' :: 'r' :: 'u' :: 'e' :: cs => some (bool true, cs)
  | 'f' :: 'a' :: 'l' :: 's' :: 'e' :: cs => some (bool false, cs)
  | '"' :: cs => (scanString? cs).map fun (s, rest) => (string (textOf? s), rest)
  | '-' :: cs => (scanUnsigned? cs).map fun (t, rest) => (t.negate, rest)
  | cs => scanUnsigned? cs

theorem scanString?_length {cs rest : List Char} {s : List (Option Char)}
    (h : scanString? cs = some (s, rest)) : rest.length < cs.length := by
  fun_induction scanString? cs generalizing s rest with
  | case1 => cases h
  | case2 => cases h; simp
  | case3 cs c rest' hc ih =>
    simp only [Option.map_eq_some_iff] at h
    obtain ⟨⟨s', r⟩, hs, h⟩ := h
    cases h
    have := ih hs
    have := scanEscape?_length hc
    simp only [List.length_cons]
    omega
  | case4 => cases h
  | case5 => cases h
  | case6 c cs _ _ _ ih =>
    simp only [Option.map_eq_some_iff] at h
    obtain ⟨⟨s', r⟩, hs, h⟩ := h
    cases h
    have := ih hs
    simp only [List.length_cons]
    omega

theorem scanWhole?_length {cs ds rest : List Char} (h : scanWhole? cs = some (ds, rest)) :
    rest.length < cs.length :=
  Digits.length_of_word?_eq_some (Option.filter_eq_some_iff.1 h).1

theorem scanFraction?_length {cs ds rest : List Char} (h : scanFraction? cs = some (ds, rest)) :
    rest.length ≤ cs.length := by
  unfold scanFraction? at h
  split at h
  · simp only [Option.map_eq_some_iff] at h
    obtain ⟨⟨ds', r⟩, hw, h⟩ := h
    cases h
    have := Digits.length_of_word?_eq_some hw
    simp only [List.length_cons]
    omega
  · cases h
    exact Nat.le_refl _

theorem length_splitSign_le (cs : List Char) : (splitSign cs).2.length ≤ cs.length := by
  unfold splitSign
  split <;> simp

theorem scanExponent?_length {cs ds rest : List Char} (h : scanExponent? cs = some (ds, rest)) :
    rest.length ≤ cs.length := by
  unfold scanExponent? at h
  split at h
  · cases h
    exact Nat.le_refl _
  · next c cs =>
    split at h
    · simp only [Option.map_eq_some_iff] at h
      obtain ⟨⟨ds', r⟩, hw, h⟩ := h
      cases h
      have := Digits.length_of_word?_eq_some hw
      have := length_splitSign_le cs
      simp only [List.length_cons]
      omega
    · cases h
      exact Nat.le_refl _

theorem scanUnsigned?_length {cs rest : List Char} {t : Token}
    (h : scanUnsigned? cs = some (t, rest)) : rest.length < cs.length := by
  unfold scanUnsigned? at h
  simp only [Option.bind_eq_bind, Option.bind_eq_some_iff] at h
  obtain ⟨⟨w, cs₁⟩, hw, ⟨f, cs₂⟩, hf, ⟨e, cs₃⟩, he, h⟩ := h
  have hw := scanWhole?_length hw
  have hf := scanFraction?_length hf
  have he := scanExponent?_length he
  dsimp only at h hf he
  split at h <;> (cases h; omega)

theorem next?_length {cs rest : List Char} {t : Token} (h : next? cs = some (t, rest)) :
    rest.length < cs.length := by
  unfold next? at h
  split at h
  case h_10 =>
    simp only [Option.map_eq_some_iff] at h
    obtain ⟨⟨s, r⟩, hs, h⟩ := h
    cases h
    have := scanString?_length hs
    simp only [List.length_cons]
    omega
  case h_11 =>
    simp only [Option.map_eq_some_iff] at h
    obtain ⟨⟨s, r⟩, hs, h⟩ := h
    cases h
    have := scanUnsigned?_length hs
    simp only [List.length_cons]
    omega
  case h_12 => exact scanUnsigned?_length h
  all_goals
    cases h
    simp only [List.length_cons]
    omega

def scan? (cs : List Char) : Option (List Token) :=
  match cs with
  | [] => some []
  | c :: cs =>
    if isSpace c then scan? cs
    else
      match _h : next? (c :: cs) with
      | some (t, rest) => (scan? rest).map (t :: ·)
      | none => none
termination_by cs.length
decreasing_by
  · simp
  · exact next?_length _h

end Token

end Candlestick.Json
