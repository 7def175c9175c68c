import Switchboard.Text.Numeral
import Switchboard.Time.Date

/-!
# Time stamps

Moments of universal time, to the nanosecond.

**Leap seconds.** The second 60 may follow any minute, because the calendar does not know which
minutes had one.

**Form.** A time stamp is written `YYYY-MM-DDThh:mm:ssZ` with a fraction of no, three, six or nine
digits, the fewest that lose nothing. A year outside four digits carries its sign.
-/

namespace Switchboard.Time

/-- A moment of universal time. -/
structure Timestamp where
  date : Date
  hour : Nat
  minute : Nat
  second : Nat
  nanosecond : Nat
deriving DecidableEq, Repr

namespace Timestamp

/-- The years that a time stamp may have. -/
def yearInRange (year : Int) : Bool := decide (-262143 ≤ year) && decide (year ≤ 262142)

/-- The digits of a year, signed unless there are just four of them. -/
def yearText (year : Int) : String :=
  if 0 ≤ year ∧ year ≤ 9999 then Text.padded 4 year.toNat
  else (if year < 0 then "-" else "+") ++ Text.padded 4 year.natAbs

/-- The fraction of a second with the fewest digits that lose nothing. -/
def fractionText (nanosecond : Nat) : String :=
  if nanosecond = 0 then ""
  else if nanosecond % 1000000 = 0 then "." ++ Text.padded 3 (nanosecond / 1000000)
  else if nanosecond % 1000 = 0 then "." ++ Text.padded 6 (nanosecond / 1000)
  else "." ++ Text.padded 9 nanosecond

/-- The written form of a time stamp. -/
def text (t : Timestamp) : String :=
  yearText t.date.year ++ "-" ++ Text.padded 2 t.date.month ++ "-" ++ Text.padded 2 t.date.day ++
    "T" ++ Text.padded 2 t.hour ++ ":" ++ Text.padded 2 t.minute ++ ":" ++
    Text.padded 2 t.second ++ fractionText t.nanosecond ++ "Z"

/-- The moment at which clocks ahead by `offset` minutes, less than a day, show `t`. -/
def fromOffset (t : Timestamp) (offset : Int) : Timestamp :=
  let minutes := (t.hour * 60 + t.minute : Nat) - offset
  let date :=
    if minutes < 0 then t.date.previous
    else if 1440 ≤ minutes then t.date.next
    else t.date
  let minutes := (minutes % 1440).toNat
  { t with date, hour := minutes / 60, minute := minutes % 60 }

end Timestamp

end Switchboard.Time
