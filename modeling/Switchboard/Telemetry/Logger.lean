import Switchboard.Telemetry.Record
import Switchboard.Telemetry.Settings

/-!
# The logger of a process

A process starts its logger once, and from then on every record that passes the filter becomes a
line.

**Starting.** A start fails if the filter cannot be read, or else if the logger runs already; a
failed start changes nothing. The first line tells how the logger was started.

**Shutting down.** The holder of a started logger announces its end with a last line; records are
still logged after it.
-/

namespace Switchboard.Telemetry

/-- A line of the log. -/
inductive Line where
  | plain (text : String)
  | json (members : List (String × Json.Value))
deriving Repr

/-- The form in which lines are written. -/
inductive Form where
  | silent
  | plain
  | json
deriving DecidableEq, Repr

/-- The form that settings ask for. -/
def Settings.form (s : Settings) : Form :=
  if !s.consoleOutput then .silent else if s.jsonLogs then .json else .plain

/-- Why a logger did not start. -/
inductive StartError where
  | settings (reason : FilterError)
  | alreadyStarted
deriving DecidableEq, Repr

/-- The wording of an error. -/
def StartError.message : StartError → String
  | settings reason => "Invalid configuration: " ++ reason.message
  | alreadyStarted => "Failed to install tracing subscriber: " ++
      "a global default trace dispatcher has already been set"

/-- A started logger, as its holder sees it. -/
structure Guard where
  serviceName : String
deriving DecidableEq, Repr

/-- The log of a process. -/
structure Logger where
  /-- What is logged and how, once the logger is started. -/
  sink : Option (Filter × Form)
  /-- The lines written so far, in order. -/
  lines : List Line

namespace Logger

/-- A logger that is not started. -/
def idle : Logger := ⟨none, []⟩

/-- The name of the thread that logs. -/
def thread : String := "main"

/-- The line of a record in a form. -/
def line? (form : Form) (r : Record) : Option Line :=
  match form with
  | .silent => none
  | .plain => some (.plain (r.plain thread))
  | .json => some (.json (r.json thread))

/-- Log a record, if the logger is started and the record passes its filter. -/
def log (l : Logger) (r : Record) : Logger :=
  match l.sink with
  | none => l
  | some (filter, form) =>
    { l with lines := l.lines ++ ((filter.admit? r).bind (line? form)).toList }

/-- The record of a start. -/
def startRecord (s : Settings) : Record where
  level := .info
  target := "tempest_telemetry::tracing_setup"
  message := "Logging initialized"
  fields := [("service", .bare s.serviceName), ("json", .flag s.jsonLogs)]
  spans := []

/-- The record of a shutdown. -/
def shutdownRecord (g : Guard) : Record where
  level := .info
  target := "tempest_telemetry"
  message := "Shutting down telemetry..."
  fields := [("service", .bare g.serviceName)]
  spans := []

/-- Start the logger with these settings. -/
def start (l : Logger) (env : Environment) (s : Settings) : Logger × Except StartError Guard :=
  match s.filter env, l.sink with
  | .error reason, _ => (l, .error (.settings reason))
  | .ok _, some _ => (l, .error .alreadyStarted)
  | .ok filter, none =>
    (({ l with sink := some (filter, s.form) } : Logger).log (startRecord s),
      .ok ⟨s.serviceName⟩)

/-- Announce the end of the logger. -/
def shutDown (l : Logger) (g : Guard) : Logger := l.log (shutdownRecord g)

end Logger

end Switchboard.Telemetry
