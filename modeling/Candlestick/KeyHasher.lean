import Candlestick.ContractKey

/-!
# Hashing contract keys

The words of a key are folded into one by exclusive or. That word is scrambled, absorbed into the
seed, and the bits of the result are spread over the whole word.
-/

namespace Candlestick

/-- A hash function on keys, one for each seed. -/
structure KeyHasher where
  seed : UInt32
deriving DecidableEq, Repr

namespace KeyHasher

/-- The seed used where none is chosen. -/
def defaultSeed : UInt32 := 0x9747b28c

/-- The word rotated to the left. -/
def rotate (w : UInt32) (count : UInt32) : UInt32 :=
  w <<< count ||| w >>> (32 - count)

/-- All that the hash sees of a key. -/
def fold (k : ContractKey) : UInt32 :=
  k.w0 ^^^ k.w1 ^^^ k.w2

/-- Scrambles a word before it meets the seed. -/
def scramble (w : UInt32) : UInt32 :=
  rotate (w * 0xcc9e2d51) 15 * 0x1b873593

/-- Takes a scrambled word into the state. -/
def absorb (state w : UInt32) : UInt32 :=
  rotate (state ^^^ w) 13 * 5 + 0xe6546b64

/-- Folds the upper bits of a word into its lower ones. -/
def foldDown (w : UInt32) (count : UInt32) : UInt32 :=
  w ^^^ w >>> count

/-- Spreads every bit of the state over the whole word. -/
def avalanche (w : UInt32) : UInt32 :=
  foldDown (foldDown (foldDown w 16 * 0x85ebca6b) 13 * 0xc2b2ae35) 16

def byteCount : UInt32 := 12

def hash (h : KeyHasher) (k : ContractKey) : UInt32 :=
  avalanche (absorb h.seed (scramble (fold k)) ^^^ byteCount)

end KeyHasher

end Candlestick
