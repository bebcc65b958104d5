import Candlestick.Digits

/-!
# Contract keys

A contract is named by a key of three 32-bit words. Its twelve bytes, lowest byte of the first
word first, may hold the contract's symbol; the key whose words are all zero names no contract.
-/

namespace Candlestick

/-- The name of a contract. -/
structure ContractKey where
  w0 : UInt32
  w1 : UInt32
  w2 : UInt32
deriving DecidableEq, Repr

namespace ContractKey

/-- The key that names no contract. -/
def null : ContractKey := ⟨0, 0, 0⟩

/-- Whether the key is the one that names no contract. -/
def isNull (k : ContractKey) : Bool :=
  k == null

/-! ### Bytes -/

/-- The word with the given bytes, lowest first. -/
def wordOfBytes (b₀ b₁ b₂ b₃ : UInt8) : UInt32 :=
  .ofNat (b₀.toNat + 2 ^ 8 * b₁.toNat + 2 ^ 16 * b₂.toNat + 2 ^ 24 * b₃.toNat)

/-- Byte `i` of a word, counted from the lowest. -/
def byteOfWord (w : UInt32) (i : Nat) : UInt8 :=
  .ofNat (w.toNat / 2 ^ (8 * i))

/-- The twelve bytes of the key. -/
def toBytes (k : ContractKey) : Vector UInt8 12 :=
  #v[byteOfWord k.w0 0, byteOfWord k.w0 1, byteOfWord k.w0 2, byteOfWord k.w0 3,
     byteOfWord k.w1 0, byteOfWord k.w1 1, byteOfWord k.w1 2, byteOfWord k.w1 3,
     byteOfWord k.w2 0, byteOfWord k.w2 1, byteOfWord k.w2 2, byteOfWord k.w2 3]

def ofBytes (b : Vector UInt8 12) : ContractKey where
  w0 := wordOfBytes b[0] b[1] b[2] b[3]
  w1 := wordOfBytes b[4] b[5] b[6] b[7]
  w2 := wordOfBytes b[8] b[9] b[10] b[11]

/-! ### Symbols -/

def symbolBytes (symbol : String) : List UInt8 :=
  symbol.toByteArray.data.toList

/-- The key that holds a symbol of one to twelve bytes, padded with zero bytes. -/
def ofSymbol? (symbol : String) : Option ContractKey :=
  let bytes := symbolBytes symbol
  if 1 ≤ bytes.length ∧ bytes.length ≤ 12 then
    some (ofBytes (.ofFn fun i => bytes.getD i 0))
  else none

/-- The bytes of the key up to the last one that is not zero. -/
def usedBytes (k : ContractKey) : List UInt8 :=
  (k.toBytes.toList.reverse.dropWhile (· == 0)).reverse

/-- The bytes that a symbol can show: the printing ASCII characters other than the blank. -/
def isPrinting (b : UInt8) : Bool :=
  0x21 ≤ b && b ≤ 0x7e

/-- Whether the key reads as a symbol. -/
def isSymbol (k : ContractKey) : Bool :=
  !k.usedBytes.isEmpty && k.usedBytes.all isPrinting

def hexWord (w : UInt32) : List Char :=
  Digits.fixed 16 8 w.toNat

/-- The text of a key: its symbol if it reads as one, else its words in hexadecimal. -/
def text (k : ContractKey) : String :=
  if k.isSymbol then .ofList (k.usedBytes.map fun b => .ofNat b.toNat)
  else .ofList (hexWord k.w0 ++ ':' :: hexWord k.w1 ++ ':' :: hexWord k.w2)

instance : ToString ContractKey := ⟨text⟩

end ContractKey

end Candlestick
