import Switchboard.Text.Blank
import Switchboard.Time.Timestamp

/-!
# Reading time stamps

The form that is read is wider than the one that is written.

**Date and time of day.** A year of up to four digits, or of any number with a sign; then month,
day, hour, minute and second of one or two digits. White space may stand before each number and
before each separator, except that exactly one `T`, `t` or blank divides date and time.

**Fraction.** At least one digit behind the point; those after the ninth do not count.

**Offset.** `Z`, the word `UTC` in any case, or a sign with two digits for hours and two for
minutes, which colons and white space may divide. It has to be there, and less than a day.
-/

namespace Switchboard.Time.Timestamp

open Switchboard.Text

/-- Read a character behind white space. -/
def expect (c : Char) (s : List Char) : Option (List Char) :=
  match trimStart s with
  | d :: rest => if d = c then some rest else none
  | [] => none

/-- Read a number of one or two digits behind white space. -/
def readField (s : List Char) : Option (Nat × List Char) := leadingNumeral 2 (trimStart s)

/-- Read a year behind white space. -/
def readYear (s : List Char) : Option (Int × List Char) :=
  match trimStart s with
  | '-' :: rest => (leadingNumeral rest.length rest).map fun (n, rest) => (-n, rest)
  | '+' :: rest => (leadingNumeral rest.length rest).map fun (n, rest) => (n, rest)
  | s => (leadingNumeral 4 s).map fun (n, rest) => (n, rest)

/-- Read the character between date and time. -/
def readDivider : List Char → Option (List Char)
  | 'T' :: rest | 't' :: rest | ' ' :: rest => some rest
  | _ => none

/-- Read a fraction of a second in nanoseconds, if there is one. -/
def readFraction : List Char → Option (Nat × List Char)
  | '.' :: rest =>
    (leadingNumeral 9 rest).map fun (n, behind) =>
      (n * Nat.pow 10 (9 - (rest.length - behind.length)), behind.dropWhile Char.isDigit)
  | s => some (0, s)

/-- Read two digits. -/
def readPair : List Char → Option (Nat × List Char)
  | a :: b :: rest => (readNumeral [a, b]).map fun n => (n, rest)
  | _ => none

/-- Read hours and minutes of an offset in minutes. -/
def readClockOffset (s : List Char) : Option (Nat × List Char) := do
  let (hours, s) ← readPair s
  let (minutes, s) ← readPair (s.dropWhile fun c => c == ':' || isBlank c)
  if hours < 24 ∧ minutes < 60 then some (hours * 60 + minutes, s) else none

/-- Read an offset in minutes. -/
def readOffset : List Char → Option (Int × List Char)
  | 'Z' :: rest | 'z' :: rest => some (0, rest)
  | '+' :: rest => (readClockOffset rest).map fun (n, rest) => (n, rest)
  | '-' :: rest | '\u2212' :: rest => (readClockOffset rest).map fun (n, rest) => (-n, rest)
  | u :: t :: c :: rest =>
    if [u, t, c].map Char.toLower = ['u', 't', 'c'] then some (0, rest) else none
  | _ => none

/-- Read a date. -/
def readDate (s : List Char) : Option (Date × List Char) := do
  let (year, s) ← readYear s
  let (month, s) ← readField (← expect '-' s)
  let (day, s) ← readField (← expect '-' s)
  some (⟨year, month, day⟩, s)

/-- Read a time of day on a date. -/
def readClock (date : Date) (s : List Char) : Option (Timestamp × List Char) := do
  let (hour, s) ← readField s
  let (minute, s) ← readField (← expect ':' s)
  let (second, s) ← readField (← expect ':' s)
  let (nanosecond, s) ← readFraction s
  some (⟨date, hour, minute, second, nanosecond⟩, s)

/-- A date that a time stamp may have, and a time of day that clocks show. -/
def isValid (t : Timestamp) : Bool :=
  decide t.date.IsValid && yearInRange t.date.year && decide (t.hour ≤ 23) &&
    decide (t.minute ≤ 59) && decide (t.second ≤ 60)

/-- Read a time stamp; none if the text is anything else. White space may follow. -/
def read? (s : String) : Option Timestamp := do
  let (date, s) ← readDate s.toList
  let (shown, s) ← readClock date (← readDivider s)
  let (offset, s) ← readOffset (trimStart s)
  let t := shown.fromOffset offset
  if shown.isValid ∧ yearInRange t.date.year ∧ s.all isBlank then some t else none

end Switchboard.Time.Timestamp
