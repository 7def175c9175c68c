/-!
# Process environments

The variables a process was started with.

**Readable values.** A variable holds bytes. It counts as set only if they are Unicode text;
otherwise every reader treats it as if it were not there.
-/

namespace Switchboard

/-- The value of a variable. -/
inductive EnvironmentValue where
  | text (value : String)
  | bytes (value : List UInt8)
deriving DecidableEq, Repr

/-- The value as text, if it is text. -/
def EnvironmentValue.text? : EnvironmentValue → Option String
  | .text value => some value
  | .bytes value => String.fromUTF8? ⟨value.toArray⟩

/-- The variables that are set, by name. -/
structure Environment where
  entries : List (String × EnvironmentValue)

namespace Environment

/-- An environment without variables. -/
def empty : Environment := ⟨[]⟩

/-- The text of a variable; none if it is not set or not text. -/
def get? (env : Environment) (name : String) : Option String :=
  (env.entries.lookup name).bind (·.text?)

/-- Whether a variable is set to some text, be it empty. -/
def has (env : Environment) (name : String) : Bool := (env.get? name).isSome

end Environment

end Switchboard
