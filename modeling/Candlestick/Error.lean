import Candlestick.Category
import Candlestick.ContractKey
import Candlestick.Decimal.Arithmetic
import Candlestick.Timestamp.Text

/-!
# Errors

What can keep a tick from being taken in, and the texts that report it.
-/

namespace Candlestick

/-- Why a tick, or a group of ticks, is not taken in. -/
inductive Error
  /-- Every slot of the table belongs to another contract. -/
  | tableFull (capacity : Nat)
  /-- The bucket of a contract has no room, for one category where these have room of their own. -/
  | bucketFull (key : ContractKey) (category : Option Category)
  /-- A raw record has a number that stands for no category. -/
  | invalidCategory (tag : UInt8)
  /-- The key names no contract. -/
  | nullKey
  /-- A sandwich has no ticks or too many. -/
  | sandwichSize (count : Nat)
  /-- The moment has no period. -/
  | unalignable (timestamp : Timestamp)
  /-- A number has no room in a decimal. -/
  | overflow (cause : Decimal.Overflow)
deriving DecidableEq

namespace Error

/-- Whether the error is that a tick does not fit. -/
def isCapacity : Error → Bool
  | tableFull _ | bucketFull _ _ => true
  | _ => false

def message : Error → String
  | tableFull capacity =>
    "Slot table full: all " ++ toString capacity ++ " slots claimed by other contracts"
  | bucketFull key none => "Bucket for " ++ key.text ++ " is full"
  | bucketFull key (some category) =>
    "Bucket for " ++ key.text ++ " is full for " ++ category.name ++ " ticks"
  | invalidCategory tag => "Invalid tick category tag: " ++ toString tag.toNat
  | nullKey => "The null contract key cannot be claimed"
  | sandwichSize count => "Invalid sandwich size " ++ toString count ++ ", expected 1 to 3 ticks"
  | unalignable timestamp =>
    "Timestamp error: " ++ timestamp.messageText ++ ": timestamp exceeds num_nanoseconds limit"
  | overflow cause => cause.message

end Error

end Candlestick
