import Switchboard.Session.Error
import Switchboard.Session.Message

/-!
# The ledger of a session

Counters of what has happened to a session since it was made, and whether one is installed.
-/

namespace Switchboard

/-- Counters of lifecycle events. -/
structure Ledger where
  /-- The sessions installed. -/
  connects : Nat
  /-- The connects refused for their options. -/
  invalidOptions : Nat
  /-- The connects whose establish failed. -/
  establishFailures : Nat
  /-- The connects that found a session installed. -/
  alreadyConnected : Nat
  /-- The sessions ended by request, including the release of the last handle. -/
  cancelled : Nat
  /-- The sessions whose connection reported its end. -/
  closed : Nat
  /-- The sessions whose signal was lost. -/
  signalLost : Nat
  /-- The teardowns that reported a fault while the session was still in use. -/
  teardownFailures : Nat
  /-- The messages whose publish has returned. -/
  messages : Nat
  /-- Whether a session is installed. -/
  connected : Bool
deriving DecidableEq, Repr

namespace Ledger

/-- The ledger of a session to which nothing has happened. -/
def empty : Ledger := ⟨0, 0, 0, 0, 0, 0, 0, 0, 0, false⟩

/-- A session was installed. -/
def connect (l : Ledger) : Ledger := { l with connects := l.connects + 1, connected := true }

/-- A connect was refused for its options. -/
def refuseOptions (l : Ledger) : Ledger := { l with invalidOptions := l.invalidOptions + 1 }

/-- An establish failed. -/
def failEstablish (l : Ledger) : Ledger := { l with establishFailures := l.establishFailures + 1 }

/-- A connect found a session installed. -/
def refuseSecond (l : Ledger) : Ledger := { l with alreadyConnected := l.alreadyConnected + 1 }

/-- A session ended for a cause. -/
def disconnect (l : Ledger) : Cause → Ledger
  | .cancelled => { l with cancelled := l.cancelled + 1, connected := false }
  | .closed _ => { l with closed := l.closed + 1, connected := false }
  | .signalLost => { l with signalLost := l.signalLost + 1, connected := false }

/-- A teardown came to an end, perhaps with a fault. -/
def teardown (l : Ledger) : Option Fault → Ledger
  | none => l
  | some _ => { l with teardownFailures := l.teardownFailures + 1 }

/-- The publish of a message returned. -/
def message (l : Ledger) : Ledger := { l with messages := l.messages + 1 }

/-- The counters by name. -/
def readings (l : Ledger) : List (String × Nat) :=
  [("connects", l.connects), ("failures.invalid_options", l.invalidOptions),
    ("failures.establish", l.establishFailures), ("failures.already_connected", l.alreadyConnected),
    ("disconnects.cancelled", l.cancelled), ("disconnects.closed", l.closed),
    ("disconnects.signal_lost", l.signalLost), ("teardown_failures", l.teardownFailures),
    ("messages", l.messages)]

end Ledger

end Switchboard
