import Switchboard.Pattern.Reading
import Switchboard.Telemetry.Record
import Switchboard.Text.Bytes
import Switchboard.Text.Letter

/-!
# Directives of a log filter

What a filter says on some of the records.

**Form.** `level` sets the level of all targets, `target=level` that of the targets that start so,
and a target alone asks for everything from it. A scope in brackets behind the target, with the
name of a span or a field in braces or both, asks for what is logged within such spans. A field may
have a value, for which a pattern can be given.

**White space.** Where the parts of a directive stand is found out without the white space at its
ends, but the parts are cut out of the text with it. So a level with white space around it is not
known as one: alone it is a target, and behind `=` it is an error.
-/

namespace Switchboard.Telemetry

/-- The values that a field may have. -/
inductive ValuePattern where
  | flag (b : Bool)
  /-- A number, which no field of a span is. -/
  | number
  | text (p : Pattern)
deriving DecidableEq, Repr

/-- A field, and its value if that matters. -/
structure FieldPattern where
  name : String
  value : Option ValuePattern
deriving DecidableEq, Repr

/-- A level for some of the records. -/
structure Directive where
  /-- How the targets start. -/
  target : Option String
  /-- The span that records are made in. -/
  span : Option String
  /-- The field of that span. -/
  field : Option FieldPattern
  level : Level
deriving DecidableEq, Repr

/-- What is wrong with the text of a filter. -/
inductive FilterError where
  /-- What stands where a level should is none. -/
  | level
  /-- A directive has not the form of one. -/
  | directive
  /-- The value of a field is no pattern. -/
  | field
deriving DecidableEq, Repr

/-- The wording of an error. -/
def FilterError.message : FilterError → String
  | level => "error parsing level filter: expected one of \"off\", \"error\", \"warn\", " ++
      "\"info\", \"debug\", \"trace\", or a number 0-5"
  | directive => "invalid filter directive"
  | field => "invalid field filter: error building NFA"

namespace ValuePattern

/-- Read the value of a field: a flag, a number or else a pattern. -/
def read (s : String) : Except FilterError ValuePattern :=
  if s = "true" then .ok (.flag true)
  else if s = "false" then .ok (.flag false)
  else if Text.isNumber s then .ok .number
  else
    match Pattern.read s with
    | some p => .ok (.text p)
    | none => .error .field

/-- Whether a value is one of these. -/
def fits : ValuePattern → FieldValue → Bool
  | flag b, .flag c => b == c
  | text p, .bare s | text p, .quoted s => p.fits s
  | _, _ => false

end ValuePattern

namespace FieldPattern

/-- Read a field: its name, and its value behind `=`. -/
def read (s : String) : Except FilterError FieldPattern :=
  match s.splitOn "=" with
  | name :: value :: _ => (ValuePattern.read value).map fun v => ⟨name, some v⟩
  | _ => .ok ⟨s, none⟩

/-- Whether there is a field of this name. -/
def named (p : FieldPattern) (fields : LogFields) : Bool := fields.any (·.1 == p.name)

/-- Whether there is a field of this name and value. -/
def fits (p : FieldPattern) (fields : LogFields) : Bool :=
  fields.any fun (name, value) => p.name == name && p.value.all (·.fits value)

end FieldPattern

namespace Directive

/-! ## Reading -/

/-- Whether a target may start with this character. -/
def startsTarget (c : Char) : Bool := Text.isAlphanumeric c || c == '-' || c == ':' || c == '_'

/-- The directive of a target without a level, unless it is a level itself. -/
def ofName (name : String) : Directive :=
  match Level.read name with
  | some level => ⟨none, none, none, level⟩
  | none => ⟨some name, none, none, .trace⟩

/-- A part that was cut out of a directive. -/
def part (cut : Option (List Char)) : Except FilterError String :=
  match cut with
  | some s => .ok (String.ofList s)
  | none => .error .directive

/-- Read the level from a place in the text to the end; without one, everything is logged. -/
def readLevel (s : List Char) (place : Nat) : Except FilterError Level := do
  let level ← part (Text.sliceFrom? s place)
  if level = "" then .ok .trace
  else
    match Level.read level with
    | some level => .ok level
    | none => .error .level

/-- Read what stands behind a scope: the end, or `=` and a level. -/
def readEnd (s : List Char) (place : Nat) : List Char → Except FilterError Level
  | [] => .ok .trace
  | '=' :: _ => readLevel s (place + 1)
  | _ => .error .directive

/-- Read the braces of a scope from the field in them on. -/
def readField (s : List Char) (target span : Option String) (place : Nat) (rest : List Char) :
    Except FilterError Directive := do
  let stop := place + Text.byteLength (rest.takeWhile (· != '\x7d'))
  match rest.dropWhile (· != '\x7d') with
  | _ :: rest =>
    let text ← part (Text.slice? s place stop)
    let field ← if text = "" then .error .directive else FieldPattern.read text
    match rest with
    | ']' :: rest => .ok ⟨target, span, some field, ← readEnd s (stop + 2) rest⟩
    | _ => .error .directive
  | [] => .error .directive

/-- Whether the name of a span ends before this character. -/
def endsSpan (c : Char) : Bool := c == ']' || c == '\x7b'

/-- Read a scope from the name of the span on. -/
def readScope (s : List Char) (target : Option String) (place : Nat) (rest : List Char) :
    Except FilterError Directive := do
  let stop := place + Text.byteLength (rest.takeWhile (!endsSpan ·))
  match rest.dropWhile (!endsSpan ·) with
  | ']' :: rest =>
    let span ← part (Text.slice? s place stop)
    .ok ⟨target, some span, none, ← readEnd s (stop + 1) rest⟩
  | '\x7b' :: rest =>
    let span ← part (Text.slice? s place stop)
    readField s target (some span |>.filter (· != "")) (stop + 1) rest
  | _ => .error .directive

/-- Whether a target ends before this character. -/
def endsTarget (c : Char) : Bool := c == '=' || c == '['

/-- Read a directive. -/
def read (text : String) : Except FilterError Directive := do
  let s := text.toList
  let trimmed := Text.trimChars s
  match trimmed with
  | '[' :: rest => readScope s none 1 rest
  | c :: _ =>
    if !startsTarget c then .error .directive
    else
      let stop := Text.byteLength (trimmed.takeWhile (!endsTarget ·))
      match trimmed.dropWhile (!endsTarget ·) with
      | '=' :: _ =>
        .ok ⟨some (← part (Text.slice? s 0 stop)), none, none, ← readLevel s (stop + 1)⟩
      | '[' :: rest => readScope s (some (← part (Text.slice? s 0 stop))) (stop + 1) rest
      | _ => .ok (ofName text)
  | [] => .error .directive

/-! ## Meaning -/

/-- Whether a directive depends on the span that a record is made in. -/
def isScoped (d : Directive) : Bool := d.span.isSome || d.field.isSome

/-- Whether a directive asks for the value of a field. -/
def readsValue (d : Directive) : Bool := d.field.any (·.value.isSome)

/-- Whether a directive speaks of spans and records by themselves, wherever they are. -/
def isPlain (d : Directive) : Bool := d.span.isNone && !d.readsValue

/-- Whether two directives speak of the same records. -/
def sameScope (d e : Directive) : Bool :=
  d.target == e.target && d.span == e.span && d.field == e.field

/-- Whether a directive speaks of a target. -/
def coversTarget (d : Directive) (target : String) : Bool :=
  d.target.all fun start => start.toList.isPrefixOf target.toList

/-- Whether a directive speaks of a record. Its message counts as a field. -/
def covers (d : Directive) (r : Record) : Bool :=
  d.isPlain && d.coversTarget r.target &&
    d.field.all fun f => f.name == "message" || f.named r.fields

/-- Whether a directive speaks of a span. The field is not looked for. -/
def coversSpan (d : Directive) (s : Span) : Bool := d.isPlain && d.coversTarget s.target

/-- Whether a span is of the kind that a directive asks for, whatever the value of its field. -/
def watches (d : Directive) (s : Span) : Bool :=
  d.isScoped && d.coversTarget s.target && d.span.all (· == s.name) &&
    d.field.all (·.named s.fields)

/-- Whether a directive speaks of what is logged within a span. -/
def coversWithin (d : Directive) (s : Span) : Bool :=
  d.watches s && d.field.all (·.fits s.fields)

/-- The length of the target. -/
def targetLength (d : Directive) : Nat := (d.target.map String.length).getD 0

/-- Whether a directive is more specific than another: its target is longer, or else it names a
field and the other does not, or else one that comes later in the alphabet. -/
def outranks (d e : Directive) : Bool :=
  decide (e.targetLength < d.targetLength) ||
    (d.targetLength == e.targetLength &&
      match d.field, e.field with
      | some f, some g => decide (g.name < f.name)
      | some _, none => true
      | none, _ => false)

end Directive

end Switchboard.Telemetry
