import Switchboard.Text.Unseen

/-!
# Quoted text and records

How values are shown to a reader.

**Quoted text.** `quoted` puts a text between double quotes. A quote, a backslash and the four
common control characters get a two-character escape, any other unseen character its code point in
lower-case hexadecimal, and everything else stands for itself. Each character's form can be told
from what follows it, so nothing in the text can imitate the closing quote.

**Records.** `record` shows a named record with its fields in order.
-/

namespace Switchboard.Text

/-- The code point of a character in lower-case hexadecimal, without leading zeros. -/
def hexDigits (c : Char) : List Char := Nat.toDigits 16 c.toNat

/-- One character as it stands inside a quoted text. -/
def escapeChar (c : Char) : List Char :=
  if c = '\t' then ['\\', 't']
  else if c = '\r' then ['\\', 'r']
  else if c = '\n' then ['\\', 'n']
  else if c = '\x00' then ['\\', '0']
  else if c = '"' then ['\\', '"']
  else if c = '\\' then ['\\', '\\']
  else if isUnseen c then ['\\', 'u', '\x7b'] ++ hexDigits c ++ ['\x7d']
  else [c]

/-- The inside of a quoted text. -/
def escape (s : List Char) : List Char := s.flatMap escapeChar

/-- A text between double quotes. -/
def quoted (s : String) : String := String.ofList ('"' :: escape s.toList ++ ['"'])

/-- A named record: its fields by name, in order, between braces. -/
def record (name : String) (fields : List (String × String)) : String :=
  name ++ " \x7b " ++ String.intercalate ", " (fields.map fun f => f.1 ++ ": " ++ f.2) ++ " \x7d"

/-- How a truth value is shown. -/
def showBool (b : Bool) : String := if b then "true" else "false"

end Switchboard.Text
