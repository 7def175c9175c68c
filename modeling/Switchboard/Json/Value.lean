import Switchboard.Json.Token

/-!
# JSON values

A value as it is written: members keep their order, and a key may come more than once. What a
repeated key means is for the reader of the value to say.

**Reading.** A text is read token by token. What is open around the current place is a stack of
frames, innermost first, so reading is one fold over the tokens and nesting has no limit.
-/

namespace Switchboard.Json

/-- A JSON value. -/
inductive Value where
  | null
  | bool (b : Bool)
  | number (n : Number)
  | string (content : Option String)
  | array (items : List Value)
  | object (members : List (Option String × Value))
deriving Repr

namespace Value

/-- A value with this text. -/
def text (s : String) : Value := .string (some s)

/-- A count. -/
def count (n : Nat) : Value := .number (.ofNat n)

/-- An object with these members. -/
def record (fields : List (String × Value)) : Value :=
  .object (fields.map fun f => (some f.1, f.2))

/-! ## Reading -/

/-- An array or an object that is still open, with what it holds so far, last first. -/
inductive Frame where
  | array (items : List Value)
  /-- The value of the member `key` is next. -/
  | object (members : List (Option String × Value)) (key : Option String)

/-- What has been read, and so what may come next. -/
inductive Progress where
  /-- A value is next. -/
  | value (outer : List Frame)
  /-- An array was opened: its first item is next, or its end. -/
  | firstItem (outer : List Frame)
  /-- An object was opened: its first key is next, or its end. -/
  | firstKey (outer : List Frame)
  /-- A key is next. -/
  | key (members : List (Option String × Value)) (outer : List Frame)
  /-- The colon behind a key is next. -/
  | colon (members : List (Option String × Value)) (key : Option String) (outer : List Frame)
  /-- A value is complete. -/
  | complete (v : Value) (outer : List Frame)

namespace Progress

/-- Read a token where a value is next. -/
def begin (outer : List Frame) : Token → Option Progress
  | .null => some (complete .null outer)
  | .bool b => some (complete (.bool b) outer)
  | .number n => some (complete (.number n) outer)
  | .string s => some (complete (.string s) outer)
  | .openArray => some (firstItem outer)
  | .openObject => some (firstKey outer)
  | _ => none

/-- Read one token. -/
def step : Progress → Token → Option Progress
  | value outer, t => begin outer t
  | firstItem outer, .closeArray => some (complete (.array []) outer)
  | firstItem outer, t => begin (.array [] :: outer) t
  | firstKey outer, .closeObject => some (complete (.object []) outer)
  | firstKey outer, .string k => some (colon [] k outer)
  | key members outer, .string k => some (colon members k outer)
  | colon members k outer, .colon => some (value (.object members k :: outer))
  | complete v (.array items :: outer), .comma => some (value (.array (v :: items) :: outer))
  | complete v (.array items :: outer), .closeArray =>
    some (complete (.array (v :: items).reverse) outer)
  | complete v (.object members k :: outer), .comma => some (key ((k, v) :: members) outer)
  | complete v (.object members k :: outer), .closeObject =>
    some (complete (.object ((k, v) :: members).reverse) outer)
  | _, _ => none

/-- The value, if it is complete and nothing around it is open. -/
def result? : Progress → Option Value
  | complete v [] => some v
  | _ => none

end Progress

/-- The value that a sequence of tokens writes. -/
def ofTokens? (ts : List Token) : Option Value :=
  (ts.foldlM Progress.step (.value [])).bind Progress.result?

/-- The value that a text writes; none if it is not the text of exactly one value. -/
def read? (s : String) : Option Value := (tokens s.toList).bind ofTokens?

end Value

end Switchboard.Json
