import Switchboard.Text.Blank
import Switchboard.Text.Numeral

/-!
# Log levels

How much is logged, from nothing to everything. A level stands for itself and the ones before it.

**Reading.** A level is read by name, whatever the case of its letters, or by its rank from 0
to 5.
-/

namespace Switchboard.Telemetry

/-- How much is logged. -/
inductive Level where
  | off
  | error
  | warn
  | info
  | debug
  | trace
deriving DecidableEq, Repr

namespace Level

/-- All levels, from the least to the most verbose. -/
def all : List Level := [off, error, warn, info, debug, trace]

/-- The place of a level among all. -/
def rank : Level → Nat
  | off => 0
  | error => 1
  | warn => 2
  | info => 3
  | debug => 4
  | trace => 5

/-- The name of a level. -/
def name : Level → String
  | off => "off"
  | error => "error"
  | warn => "warn"
  | info => "info"
  | debug => "debug"
  | trace => "trace"

/-- The more verbose of two levels. -/
def max (a b : Level) : Level := if a.rank ≤ b.rank then b else a

/-- Whether something at `level` is logged where `limit` is the most verbose level. -/
def allows (limit level : Level) : Bool := decide (level.rank ≤ limit.rank)

/-- Read a level by rank or by name. -/
def read (s : String) : Option Level :=
  match Text.readCount s with
  | some n => all[n]?
  | none => all.find? (·.name == Text.lowerAscii s)

end Level

end Switchboard.Telemetry
