import Switchboard.Environment
import Switchboard.Telemetry.Filter
import Switchboard.Text.Lower

/-!
# Telemetry settings

What a process logs, and how.

**Fallbacks.** A variable that is not set, or holds nothing that can be read, leaves the setting to
its fallback. Inside a container the fallback is to write structured lines.

**Filter.** A filter from the environment goes before the one of the settings, if it can be read.
-/

namespace Switchboard.Telemetry

/-- What a process logs, and how. -/
structure Settings where
  /-- The name that the process gives itself. -/
  serviceName : String
  /-- The text of the filter. -/
  logLevel : String
  /-- Whether lines are written at all. -/
  consoleOutput : Bool
  /-- Whether lines are written as JSON. -/
  jsonLogs : Bool
deriving DecidableEq, Repr

namespace Settings

/-- The settings of a process that was given none. -/
def standard : Settings := ⟨"tempest", "info", true, false⟩

/-- The words that mean yes. -/
def yesWords : List String := ["1", "true", "yes", "on"]

/-- The words that mean no. -/
def noWords : List String := ["0", "false", "no", "off"]

/-- Read a flag: one of the words, whatever its case and the white space around it. -/
def readFlag (s : String) : Option Bool :=
  let word := Text.lower (Text.trim s)
  if yesWords.contains word then some true
  else if noWords.contains word then some false
  else none

/-- Whether the process runs inside a container. -/
def inContainer (env : Environment) : Bool :=
  env.has "KUBERNETES_SERVICE_HOST" || env.has "DOCKER_CONTAINER"

/-- The settings that an environment asks for. -/
def fromEnvironment (env : Environment) : Settings where
  serviceName := (env.get? "TEMPEST_SERVICE_NAME").getD standard.serviceName
  logLevel := ((env.get? "TEMPEST_LOG_LEVEL").or (env.get? "RUST_LOG")).getD standard.logLevel
  consoleOutput := ((env.get? "TEMPEST_CONSOLE_OUTPUT").bind readFlag).getD standard.consoleOutput
  jsonLogs := ((env.get? "TEMPEST_JSON_LOGS").bind readFlag).getD (inContainer env)

/-- The settings that an environment asks for, for a process of this name. -/
def forService (env : Environment) (name : String) : Settings :=
  { fromEnvironment env with serviceName := name }

/-- The filter to log with. -/
def filter (s : Settings) (env : Environment) : Except FilterError Filter :=
  match (env.get? "RUST_LOG").bind (Filter.read · |>.toOption) with
  | some f => .ok f
  | none => Filter.read s.logLevel

end Settings

end Switchboard.Telemetry
