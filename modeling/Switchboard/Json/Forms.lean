import Switchboard.Hub.Policy
import Switchboard.Json.Fields
import Switchboard.Packet.Catalog
import Switchboard.Session.Message
import Switchboard.Session.Options
import Switchboard.Telemetry.Settings
import Switchboard.Time.Reading

/-!
# JSON forms of the data

How the data that crosses process boundaries is written, and what is accepted for it.

**Defaults.** Options and telemetry settings may leave out any field, but no field may be `null`.
The error of a message and the name of a catalog entry are `null` where there is none.

**Causes.** A cause is tagged: its name is the member `cause`, wherever that stands, and the rest
is read once the name is known.
-/

namespace Switchboard

open Json (Value)

/-! ## Options -/

namespace Options

/-- The names of the fields in order. -/
def fieldNames : List String :=
  ["auth_server", "username", "password", "token", "server_code", "server_password"]

/-- Read options. -/
def ofJson? (v : Value) : Option Options := do
  let fields ← v.fields? fieldNames 0
  let text (name : String) := fields.orElse? name Value.text? ""
  some ⟨← text "auth_server", ← text "username", ← text "password", ← text "token",
    ← text "server_code", ← text "server_password"⟩

/-- Write options, secrets included. -/
def toJson (o : Options) : Value :=
  .record (fieldNames.zip ([o.authServer, o.username, o.password, o.token, o.serverCode,
    o.serverPassword].map Value.text))

end Options

/-! ## Policies and message kinds -/

/-- Read a policy. -/
def Policy.ofJson? (v : Value) : Option Policy :=
  v.variant?.bind fun name => [reliable, lossy].find? (·.name == name)

/-- Write a policy. -/
def Policy.toJson (p : Policy) : Value := .text p.name

/-- Read a message kind. -/
def MessageKind.ofJson? (v : Value) : Option MessageKind :=
  v.variant?.bind fun name => [status, disconnect].find? (·.name == name)

/-- Write a message kind. -/
def MessageKind.toJson (k : MessageKind) : Value := .text k.name

/-! ## Causes -/

namespace Cause

/-- Read a cause by its name, given a way to read the reason of a close. -/
def ofLabel? (label : String) (reason : Option String) : Option Cause :=
  match label with
  | "cancelled" => some cancelled
  | "closed" => reason.map closed
  | "signal_lost" => some signalLost
  | _ => none

/-- Read a cause written as an object. -/
def ofObject? (v : Value) : Option Cause := do
  let fields ← v.fields? ["cause"] 0
  let label ← fields.required? "cause" Value.text?
  let reason := if Value.Fields.distinct fields ["reason"]
    then fields.required? "reason" Value.text? else none
  ofLabel? label reason

/-- Read a cause written as an array: its name, and the reason of a close. -/
def ofArray? (items : List Value) : Option Cause :=
  match items with
  | [label] => label.text?.bind fun label => ofLabel? label none
  | [label, reason] => do
    let label ← label.text?
    if label = (closed "").label then reason.text?.map closed else none
  | _ => none

/-- Read a cause. -/
def ofJson? (v : Value) : Option Cause :=
  if v.isStorable Value.maxNesting then
    match v with
    | .object _ => ofObject? v
    | .array items => ofArray? items
    | _ => none
  else none

/-- Write a cause. -/
def toJson (c : Cause) : Value :=
  .record (("cause", .text c.label) :: match c with
    | closed reason => [("reason", .text reason)]
    | _ => [])

end Cause

/-! ## Catalog entries -/

namespace Packet.Entry

/-- Read a catalog entry. -/
def ofJson? (v : Value) : Option Packet.Entry := do
  let fields ← v.fields? ["id", "name"] 2
  some ⟨← fields.required? "id" (Value.count? Packet.maxId),
    ← fields.orElse? "name" (Value.optional? Value.text?) none⟩

/-- Write a catalog entry. -/
def toJson (e : Packet.Entry) : Value :=
  .record [("id", .count e.id), ("name", (e.name.map Value.text).getD .null)]

end Packet.Entry

/-- Write the tables of a catalog, each as an object. -/
def Packet.Names.toJson (t : Packet.Names) : Value :=
  .record [("name_to_id", .record (t.ids.sorted.map fun e => (e.1, .count e.2))),
    ("id_to_name", .record (t.names.sorted.map fun e => (toString e.1, .text e.2)))]

/-! ## Messages -/

/-- A message with the time at which it was made. -/
structure StampedMessage where
  message : Message
  time : Time.Timestamp
deriving DecidableEq, Repr

namespace StampedMessage

/-- Read a message. -/
def ofJson? (v : Value) : Option StampedMessage := do
  let fields ← v.fields? ["kind", "message", "error", "timestamp"] 4
  let kind ← fields.required? "kind" MessageKind.ofJson?
  let text ← fields.required? "message" Value.text?
  let error ← fields.orElse? "error" (Value.optional? Value.text?) none
  let time ← fields.required? "timestamp" Value.text?
  some ⟨⟨kind, text, error⟩, ← Time.Timestamp.read? time⟩

/-- Write a message; without an error there is no such member. -/
def toJson (m : StampedMessage) : Value :=
  .record ([("kind", m.message.kind.toJson), ("message", .text m.message.text)] ++
    (m.message.error.map fun e => ("error", Value.text e)).toList ++
    [("timestamp", .text m.time.text)])

end StampedMessage

/-! ## Telemetry settings -/

namespace Telemetry.Settings

/-- The names of the fields in order. -/
def fieldNames : List String := ["service_name", "log_level", "console_output", "json_logs"]

/-- Read telemetry settings. -/
def ofJson? (v : Value) : Option Settings := do
  let fields ← v.fields? fieldNames 0
  some ⟨← fields.orElse? "service_name" Value.text? standard.serviceName,
    ← fields.orElse? "log_level" Value.text? standard.logLevel,
    ← fields.orElse? "console_output" Value.bool? standard.consoleOutput,
    ← fields.orElse? "json_logs" Value.bool? standard.jsonLogs⟩

/-- Write telemetry settings. -/
def toJson (s : Settings) : Value :=
  .record (fieldNames.zip [.text s.serviceName, .text s.logLevel, .bool s.consoleOutput,
    .bool s.jsonLogs])

end Telemetry.Settings

end Switchboard
