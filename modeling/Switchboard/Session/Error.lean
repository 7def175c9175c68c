/-!
# Session errors

Why a session operation failed.

**Faults.** A failure inside a collaborator is passed on as it is. It is a plain message, or an
error with a chain of sources behind it, or either of these inside any number of wrappers. A
wrapper is transparent: it has the text and the sources of what it wraps.

**Errors.** A session error is one of five causes of its own or a collaborator's fault. Only a
missing session is worth retrying.
-/

namespace Switchboard

/-- A failure inside a collaborator. -/
inductive Fault where
  /-- A plain message. -/
  | plain (text : String)
  /-- An error with the texts of its successive sources. -/
  | chained (text : String) (sources : List String)
  /-- A fault passed through one more layer. -/
  | wrapped (inner : Fault)
deriving DecidableEq, Repr

namespace Fault

/-- The fault of a chain of texts, each the source of the one before. An empty chain is the empty
message. -/
def ofChain : List String → Fault
  | [] => plain ""
  | text :: sources => chained text sources

/-- The text of a fault. -/
def message : Fault → String
  | plain text => text
  | chained text _ => text
  | wrapped inner => inner.message

/-- The error behind a fault. -/
def source? : Fault → Option Fault
  | plain _ => none
  | chained _ [] => none
  | chained _ (text :: sources) => some (chained text sources)
  | wrapped inner => inner.source?

/-- The texts of the successive sources. -/
def sources : Fault → List String
  | plain _ => []
  | chained _ sources => sources
  | wrapped inner => inner.sources

/-- Whether a fault is an error with a chain, however short. -/
def isChained : Fault → Bool
  | chained _ _ => true
  | _ => false

/-- The sources of a fault are its source's text followed by that one's sources. -/
theorem sources_eq (f : Fault) :
    f.sources = match f.source? with
      | none => []
      | some g => g.message :: g.sources := by
  induction f with
  | plain => rfl
  | chained _ sources => cases sources <;> rfl
  | wrapped inner ih => exact ih

end Fault

/-- Why a session operation failed. -/
inductive SessionError where
  /-- No session is installed. -/
  | notConnected
  /-- A session is installed already. -/
  | alreadyConnected
  /-- The options for a connect were refused. -/
  | invalidOptions (reason : String)
  /-- A player carries no stable identifier. -/
  | identifierUnavailable
  /-- A lookup found nothing. -/
  | notFound (what : String)
  /-- A collaborator failed. -/
  | collaborator (fault : Fault)
deriving DecidableEq, Repr

namespace SessionError

/-- The wording of an error. -/
def message : SessionError → String
  | notConnected => "Not connected"
  | alreadyConnected => "Already connected"
  | invalidOptions reason => "Invalid connect options: " ++ reason
  | identifierUnavailable => "Player identifier unavailable"
  | notFound what => "Not found: " ++ what
  | collaborator fault => fault.message

/-- The error behind an error; only a collaborator's fault has one. -/
def source? : SessionError → Option Fault
  | collaborator fault => fault.source?
  | _ => none

/-- The texts of the successive sources. -/
def sources : SessionError → List String
  | collaborator fault => fault.sources
  | _ => []

/-- Whether the same operation may succeed later without any other change. -/
def isRetryable : SessionError → Bool
  | notConnected => true
  | _ => false

end SessionError

end Switchboard
