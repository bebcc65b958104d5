import Candlestick.Scanner
import Candlestick.Timestamp.Basic

/-!
# Timestamps as text

Timestamps are written in the profile of ISO 8601 that RFC 3339 lays down, in universal time:
the fraction of a second has the fewest digits that are exact out of none, three, six and nine,
a leap second has the number after that of the second it follows, which is 60 at the end of a
minute, and a year that does not have four digits has a sign. `Timestamp.ofText?` reads what is
written and more: any offset from universal time, blanks between the parts, and numbers without
leading zeros.
-/

namespace Candlestick

namespace Timestamp

/-! ### Writing -/

def yearChars (year : Int) : List Char :=
  if 0 ≤ year ∧ year ≤ 9999 then Digits.fixed 10 4 year.toNat
  else (if year < 0 then '-' else '+') :: (Digits.decimal year.natAbs).leftpad 4 '0'

def dateChars (d : Date) : List Char :=
  yearChars d.year ++ '-' :: Digits.fixed 10 2 d.month ++ '-' :: Digits.fixed 10 2 d.day

def fractionChars (nanos : Nat) : List Char :=
  if nanos = 0 then []
  else if nanos % 10 ^ 6 = 0 then '.' :: Digits.fixed 10 3 (nanos / 10 ^ 6)
  else if nanos % 10 ^ 3 = 0 then '.' :: Digits.fixed 10 6 (nanos / 10 ^ 3)
  else '.' :: Digits.fixed 10 9 nanos

def date (t : Timestamp) : Date :=
  .ofDays (t.seconds / 86400)

/-- The seconds since the start of the day. -/
def secondOfDay (t : Timestamp) : Nat :=
  (t.seconds % 86400).toNat

/-- The characters of the time of day. -/
def timeChars (t : Timestamp) : List Char :=
  let second := t.secondOfDay % 60 + if t.isLeap then 1 else 0
  let nanos := if t.isLeap then t.nanos - 10 ^ 9 else t.nanos
  Digits.fixed 10 2 (t.secondOfDay / 3600) ++ ':' :: Digits.fixed 10 2 (t.secondOfDay / 60 % 60) ++
    ':' :: Digits.fixed 10 2 second ++ fractionChars nanos

def chars (t : Timestamp) : List Char :=
  dateChars t.date ++ 'T' :: t.timeChars ++ ['Z']

def text (t : Timestamp) : String :=
  .ofList t.chars

/-- The text of a timestamp in messages. -/
def messageText (t : Timestamp) : String :=
  .ofList (dateChars t.date ++ ' ' :: t.timeChars ++ [' ', 'U', 'T', 'C'])

instance : ToString Timestamp := ⟨text⟩

/-! ### Reading -/

/-- A time of day; `nanos` runs on through a leap second. -/
structure Clock where
  hour : Nat
  minute : Nat
  second : Nat
  nanos : Nat

open Scanner

/-- Reads a year, which needs a sign to have more than four digits. -/
def scanYear : Scanner Int := do
  match ← get with
  | '-' :: cs => set cs; return -(Digits.value (← word))
  | '+' :: cs => set cs; return Digits.value (← word)
  | _ => return ← number 4

/-- Reads a date of the calendar. -/
def scanDate : Scanner Date := do
  blanks
  let year ← scanYear
  blanks; char '-'; blanks
  let month ← number 2
  blanks; char '-'; blanks
  let day ← number 2
  let date : Date := { year, month, day }
  if IsYear year ∧ date.IsValid then return date else failure

/-- Reads the fraction of a second, if there is one; digits after the ninth are ignored. -/
def scanFraction : Scanner Nat := do
  match ← get with
  | '.' :: cs =>
    set cs
    let ds := (← word).take 9
    return Digits.value ds * 10 ^ (9 - ds.length)
  | _ => return 0

/-- Reads a time of day. Second 60 is the leap second after second 59. -/
def scanClock : Scanner Clock := do
  blanks
  let hour ← number 2
  blanks; char ':'; blanks
  let minute ← number 2
  blanks; char ':'; blanks
  let second ← number 2
  let nanos ← scanFraction
  if 24 ≤ hour ∨ 60 ≤ minute ∨ 60 < second then failure
  else if second = 60 then return { hour, minute, second := 59, nanos := nanos + 10 ^ 9 }
  else return { hour, minute, second, nanos }

/-- Whether a character is a minus sign, the hyphen included. -/
def isMinus (c : Char) : Bool :=
  c == '-' || c.toNat == 0x2212

def scanTwoDigits : Scanner Nat := do
  let tens ← oneOf Char.isDigit
  let ones ← oneOf Char.isDigit
  return 10 * Digits.digit tens + Digits.digit ones

/-- Reads the hours and minutes of an offset, in seconds. -/
def scanOffset : Scanner Int := do
  let sign ← oneOf fun c => c == '+' || isMinus c
  let hours ← scanTwoDigits
  skip fun c => c == ':' || isBlank c
  let minutes ← scanTwoDigits
  if 24 ≤ hours ∨ 60 ≤ minutes then failure
  let seconds : Int := hours * 3600 + minutes * 60
  return if isMinus sign then -seconds else seconds

/-- Reads what tells the offset of local from universal time. -/
def scanZone : Scanner Int := do
  blanks
  let cs ← get
  if (cs.take 3).map Char.toLower = ['u', 't', 'c'] then
    set (cs.drop 3)
    return 0
  else
    match cs with
    | 'Z' :: rest | 'z' :: rest => set rest; return 0
    | _ => scanOffset

/-- Whether a character parts a date from a time of day. -/
def isDateEnd (c : Char) : Bool :=
  c == 'T' || c == 't' || c == ' '

/-- Reads a date, a time of day and an offset. -/
def scan : Scanner (Date × Clock × Int) := do
  let date ← scanDate
  let _ ← oneOf isDateEnd
  let clock ← scanClock
  let offset ← scanZone
  return (date, clock, offset)

/-- The moment of a local date and time of day at an offset from universal time. -/
def ofLocal? (date : Date) (clock : Clock) (offset : Int) : Option Timestamp :=
  let seconds := clock.hour * 3600 + clock.minute * 60 + clock.second
  ofParts? (date.toDays * 86400 + seconds - offset) clock.nanos

def ofChars? (cs : List Char) : Option Timestamp :=
  (scan.run? cs).bind fun (date, clock, offset) => ofLocal? date clock offset

def ofText? (text : String) : Option Timestamp :=
  ofChars? text.toList

end Timestamp

end Candlestick
