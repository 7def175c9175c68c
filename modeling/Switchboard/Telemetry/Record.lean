import Switchboard.Json.Value
import Switchboard.Telemetry.Level
import Switchboard.Text.Quoted

/-!
# Log records and their lines

What is logged, and the two forms of a line.

**Plain.** `LEVEL thread spans: target: message fields`, with each field as `name=value`.

**JSON.** An object with the same parts; the innermost span is given on its own as well. Neither
form includes here the time and the place in the program at which the record was made.
-/

namespace Switchboard.Telemetry

/-- The value of a field. -/
inductive FieldValue where
  /-- A text that plain lines give as it is. -/
  | bare (text : String)
  /-- A text that plain lines give in quotes. -/
  | quoted (text : String)
  | flag (b : Bool)
deriving DecidableEq, Repr

/-- The fields of a record or span by name, in order. -/
abbrev LogFields := List (String × FieldValue)

/-- A named stretch of work during which records are made. -/
structure Span where
  name : String
  level : Level
  target : String
  fields : LogFields
deriving DecidableEq, Repr

/-- Something to be logged. -/
structure Record where
  level : Level
  target : String
  message : String
  fields : LogFields
  /-- The spans that were open, outermost first. -/
  spans : List Span
deriving DecidableEq, Repr

/-! ## Plain lines -/

/-- A value in a plain line. -/
def FieldValue.plain : FieldValue → String
  | bare text => text
  | quoted text => Text.quoted text
  | flag b => Text.showBool b

/-- Fields in a plain line. -/
def plainFields (fields : LogFields) : List String := fields.map fun f => f.1 ++ "=" ++ f.2.plain

/-- A span in a plain line. -/
def Span.plain (s : Span) : String :=
  s.name ++ "\x7b" ++ String.intercalate " " (plainFields s.fields) ++ "\x7d"

/-- The spans in front of a plain line's target. -/
def plainSpans : List Span → List String
  | [] => []
  | spans => [String.intercalate ":" (spans.map Span.plain) ++ ":"]

/-- The plain line of a record made by a thread. -/
def Record.plain (r : Record) (thread : String) : String :=
  String.intercalate " " ([r.level.name.toUpper, thread] ++ plainSpans r.spans ++
    [r.target ++ ":", r.message] ++ plainFields r.fields)

/-! ## JSON lines -/

/-- A value in a JSON line. -/
def FieldValue.json : FieldValue → Json.Value
  | bare text | quoted text => .text text
  | flag b => .bool b

/-- The members of fields in a JSON line. -/
def jsonFields (fields : LogFields) : List (String × Json.Value) :=
  fields.map fun f => (f.1, f.2.json)

/-- A span in a JSON line. -/
def Span.json (s : Span) : Json.Value := .record (("name", .text s.name) :: jsonFields s.fields)

/-- The members that tell the spans of a record, if there are any. -/
def jsonSpans (spans : List Span) : List (String × Json.Value) :=
  match spans.getLast? with
  | none => []
  | some inner => [("span", inner.json), ("spans", .array (spans.map Span.json))]

/-- The members of the JSON line of a record made by a thread. -/
def Record.json (r : Record) (thread : String) : List (String × Json.Value) :=
  [("level", .text r.level.name.toUpper), ("target", .text r.target),
    ("threadName", .text thread),
    ("fields", .record (("message", .text r.message) :: jsonFields r.fields))] ++
    jsonSpans r.spans

end Switchboard.Telemetry
