/-!
# Lifecycle messages

What a session tells its subscribers.

**Causes.** A session ends for one of three causes, and its disconnect handles receive that cause
once.

**Messages.** The message hub carries status notices for connects and explicit disconnects, and a
notice for every session that ended on its own.
-/

namespace Switchboard

/-- Why a session ended. -/
inductive Cause where
  /-- It was ended by an explicit disconnect. -/
  | cancelled
  /-- The connection reported its own end. -/
  | closed (reason : String)
  /-- The termination signal went away without a cause. -/
  | signalLost
deriving DecidableEq, Repr

namespace Cause

/-- The wording of a cause. -/
def message : Cause → String
  | cancelled => "session cancelled"
  | closed reason => "connection closed: " ++ reason
  | signalLost => "termination signal lost"

/-- The short label of a cause. -/
def label : Cause → String
  | cancelled => "cancelled"
  | closed _ => "closed"
  | signalLost => "signal_lost"

/-- Whether somebody asked for the end. -/
def isRequested : Cause → Bool
  | cancelled => true
  | _ => false

end Cause

/-- The category of a message. -/
inductive MessageKind where
  /-- A notice of a connect or of an explicit disconnect. -/
  | status
  /-- A notice that the connection ended on its own. -/
  | disconnect
deriving DecidableEq, Repr

/-- The name of a category as it is written. -/
def MessageKind.name : MessageKind → String
  | status => "status"
  | disconnect => "disconnect"

/-- A notice on the message hub. -/
structure Message where
  kind : MessageKind
  text : String
  error : Option String
deriving DecidableEq, Repr

namespace Message

/-- The text of the notice that follows a successful connect. -/
def connectedText : String := "connected"

/-- The text of the notice that follows an explicit disconnect. -/
def disconnectedText : String := "disconnected"

/-- The text of the notice that follows the connection's own end. -/
def connectionClosedText : String := "connection closed"

/-- A status notice. -/
def status (text : String) : Message := ⟨.status, text, none⟩

/-- Attach the description of an error, in place of one attached before. -/
def withError (m : Message) (error : String) : Message := { m with error := some error }

/-- The notice that the connection ended on its own. -/
def connectionClosed (cause : Cause) : Message :=
  ⟨.disconnect, connectionClosedText, some cause.message⟩

end Message

end Switchboard
