import Switchboard.Json.Value

/-!
# Reading JSON values as data

What the readers of single types share. They never convert: a text is no number, a number with a
fraction no count.

**Records.** A record may be written as an object or as an array of its fields in order. In an
object unknown members are passed over and no known field may come twice; in an array fields may
be left out at the end only.

**Variants.** One of a set of names may be written as the name, or as an object whose only member
has that key and the value `null`.

**Storing.** Some readers have to hold a value back before they know what it is for. Not every
value that can be written can be held: strings must have a text, numbers must fit a double, and
nesting is limited.
-/

namespace Switchboard.Json.Value

/-- The text of a string that holds one. -/
def text? : Value → Option String
  | .string content => content
  | _ => none

/-- The truth value that is written. -/
def bool? : Value → Option Bool
  | .bool b => some b
  | _ => none

/-- The count that is written with digits only, if it is at most `most`. -/
def count? (most : Nat) : Value → Option Nat
  | .number n => if n.isWhole ∧ !n.negative ∧ n.whole ≤ most then some n.whole else none
  | _ => none

/-- Read a value that may be `null`. -/
def optional? {α : Type} (read : Value → Option α) : Value → Option (Option α)
  | .null => some none
  | v => (read v).map some

/-! ## Records -/

/-- The fields of a record by name. -/
abbrev Fields := List (String × Value)

/-- No name comes twice among the fields. -/
def Fields.distinct (fields : Fields) (names : List String) : Bool :=
  names.all fun name => decide ((fields.filter (·.1 == name)).length ≤ 1)

/-- The fields of a record with these names, the first `least` of which an array must have. -/
def fields? (names : List String) (least : Nat) : Value → Option Fields
  | .object members => do
    let fields ← members.mapM fun (key, v) => key.map fun name => (name, v)
    if Fields.distinct fields names then some fields else none
  | .array items =>
    if least ≤ items.length ∧ items.length ≤ names.length then some (names.zip items) else none
  | _ => none

/-- Read a field that has to be there. -/
def Fields.required? {α : Type} (fields : Fields) (name : String) (read : Value → Option α) :
    Option α :=
  (fields.lookup name).bind read

/-- Read a field that may be left out. -/
def Fields.orElse? {α : Type} (fields : Fields) (name : String) (read : Value → Option α)
    (fallback : α) : Option α :=
  match fields.lookup name with
  | none => some fallback
  | some v => read v

/-! ## Variants -/

/-- The name of a variant without content. -/
def variant? : Value → Option String
  | .string name => name
  | .object [(name, .null)] => name
  | _ => none

/-! ## Storing -/

/-- The number of arrays and objects that may be open at once in a value to be stored. -/
def maxNesting : Nat := 127

mutual

/-- Whether a value can be stored, its arrays and objects nested at most `room` deep. -/
def isStorable : (room : Nat) → Value → Bool
  | _, .null => true
  | _, .bool _ => true
  | _, .number n => n.fitsDouble
  | _, .string content => content.isSome
  | 0, .array _ => false
  | 0, .object _ => false
  | room + 1, .array items => areStorable room items
  | room + 1, .object members => membersStorable room members

/-- Whether all items can be stored. -/
def areStorable (room : Nat) : List Value → Bool
  | [] => true
  | v :: rest => isStorable room v && areStorable room rest

/-- Whether all members can be stored, keys included. -/
def membersStorable (room : Nat) : List (Option String × Value) → Bool
  | [] => true
  | (key, v) :: rest => key.isSome && isStorable room v && membersStorable room rest

end

end Switchboard.Json.Value
