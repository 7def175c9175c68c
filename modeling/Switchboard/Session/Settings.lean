import Switchboard.Environment
import Switchboard.Hub.Policy
import Switchboard.Text.Numeral

/-!
# Session settings

The tunables of a session and their reading from the environment.

**Fallbacks.** A setting depends on one variable. If that variable is not set, or holds nothing
that can be read, the default stands.
-/

namespace Switchboard

/-- The tunables of a session. -/
structure Settings where
  /-- The start of the labels of the session's hubs. -/
  label : String
  /-- The delivery policy of the message hub. -/
  messagePolicy : Policy
  /-- The buffer with which an observer subscribes. -/
  observerBuffer : Nat
deriving DecidableEq, Repr

namespace Settings

/-- The settings of a session that was given none. -/
def standard : Settings := ⟨"tempest", .reliable, 1⟩

/-- A label that is not blank, as it is. -/
def readLabel (s : String) : Option String := if Text.allBlank s then none else some s

/-- The settings that an environment asks for. -/
def fromEnvironment (env : Environment) : Settings where
  label := ((env.get? "TEMPEST_SESSION_LABEL").bind readLabel).getD standard.label
  messagePolicy :=
    ((env.get? "TEMPEST_MESSAGE_POLICY").bind (Policy.read · |>.toOption)).getD
      standard.messagePolicy
  observerBuffer :=
    ((env.get? "TEMPEST_OBSERVER_BUFFER").bind Text.readCount).getD standard.observerBuffer

/-- The label of a hub of the session. -/
def hubLabel (s : Settings) (suffix : String) : String := s.label ++ "-" ++ suffix

end Settings

end Switchboard
