import Switchboard.Session.Error
import Switchboard.Text.Blank
import Switchboard.Text.Quoted

/-!
# Options of a connect

The parameters for dialing a server.

**Validation.** The fields that identify are trimmed and a server code is required; passwords stay
as they are.

**Secrets.** When options are shown, a password or a token appears only as present or absent.
-/

namespace Switchboard

/-- The parameters for dialing a server. -/
structure Options where
  authServer : String
  username : String
  password : String
  token : String
  serverCode : String
  serverPassword : String
deriving DecidableEq, Repr

namespace Options

/-- Options with every field empty. -/
def empty : Options := ⟨"", "", "", "", "", ""⟩

/-- Options for a server without credentials. -/
def forServer (code : String) : Options := { empty with serverCode := code }

/-- The reason given when there is no server code. -/
def serverCodeRequired : String := "server code is required"

/-- The options with the identifying fields trimmed. -/
def trimmed (o : Options) : Options :=
  { o with
    authServer := Text.trim o.authServer
    username := Text.trim o.username
    token := Text.trim o.token
    serverCode := Text.trim o.serverCode }

/-- Trim the identifying fields and require a server code. -/
def validate (o : Options) : Except SessionError Options :=
  if o.trimmed.serverCode = "" then .error (.invalidOptions serverCodeRequired)
  else .ok o.trimmed

/-- What is shown of a secret: whether there is one. -/
def redact (secret : String) : String := if secret = "" then "" else "<redacted>"

/-- How options are shown, secrets redacted. -/
def describe (o : Options) : String :=
  Text.record "ConnectOptions" [("auth_server", Text.quoted o.authServer),
    ("username", Text.quoted o.username), ("password", Text.quoted (redact o.password)),
    ("token", Text.quoted (redact o.token)), ("server_code", Text.quoted o.serverCode),
    ("server_password", Text.quoted (redact o.serverPassword))]

end Options

end Switchboard
