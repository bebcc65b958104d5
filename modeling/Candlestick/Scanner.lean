import Candlestick.Digits

/-!
# Scanners

A scanner takes what it reads off the front of a text, or fails. Blanks are the characters that a
text is free to have around its words: those with the Unicode property `White_Space`.
-/

namespace Candlestick

/-- Whether a character is white space. -/
def isBlank (c : Char) : Bool :=
  let n := c.toNat
  (0x09 ≤ n && n ≤ 0x0d) || n == 0x20 || n == 0x85 || n == 0xa0 || n == 0x1680 ||
    (0x2000 ≤ n && n ≤ 0x200a) || n == 0x2028 || n == 0x2029 || n == 0x202f || n == 0x205f ||
    n == 0x3000

/-- A text without the blanks at its front. -/
def skipBlanks (cs : List Char) : List Char :=
  cs.dropWhile isBlank

theorem isBlank_of_isWhitespace {c : Char} (h : c.isWhitespace) : isBlank c := by
  simp only [Char.isWhitespace, Bool.or_eq_true, decide_eq_true_eq] at h
  rcases h with ((h | h) | h) | h <;> subst h <;> decide

/-- Reads a value off the front of a text. -/
abbrev Scanner := StateT (List Char) Option

namespace Scanner

def char (c : Char) : Scanner Unit
  | d :: cs => if d = c then some ((), cs) else none
  | [] => none

/-- Reads a character that satisfies `p`. -/
def oneOf (p : Char → Bool) : Scanner Char
  | d :: cs => if p d then some (d, cs) else none
  | [] => none

/-- Skips the characters at the front that satisfy `p`. -/
def skip (p : Char → Bool) : Scanner Unit :=
  fun cs => some ((), cs.dropWhile p)

def blanks : Scanner Unit :=
  fun cs => some ((), skipBlanks cs)

/-- Reads at least one and at most `width` digits, as many as there are. -/
def number (width : Nat) : Scanner Nat :=
  fun cs =>
    let ds := (cs.take width).takeWhile Char.isDigit
    if ds = [] then none else some (Digits.value ds, cs.drop ds.length)

/-- Reads all digits at the front, at least one. -/
def word : Scanner (List Char) :=
  Digits.word?

/-- Runs a scanner on a text and asks that only blanks are left. -/
def run? {α : Type} (scanner : Scanner α) (cs : List Char) : Option α :=
  (scanner cs).bind fun (a, rest) => if skipBlanks rest = [] then some a else none

end Scanner

end Candlestick
