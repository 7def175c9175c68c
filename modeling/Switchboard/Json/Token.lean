import Switchboard.Json.Literal
import Switchboard.Json.Number

/-!
# Tokens of a JSON text

A JSON text is a sequence of tokens with white space between them: space, tab, line feed and
carriage return, and no other character.

**Adjacent tokens.** `tokens` does not ask for white space between two tokens, which matters only
where the grammar refuses the pair anyway: no value stands directly behind another.
-/

namespace Switchboard.Json

/-- A token. A string without content has half a surrogate pair alone in it. -/
inductive Token where
  | openArray
  | closeArray
  | openObject
  | closeObject
  | comma
  | colon
  | null
  | bool (b : Bool)
  | number (n : Number)
  | string (content : Option String)
deriving DecidableEq, Repr

namespace Token

/-- White space between tokens. -/
def isSpace (c : Char) : Bool := c == ' ' || c == '\t' || c == '\n' || c == '\r'

/-- The text that a literal's parts stand for. -/
def content (parts : List Part) : Option String := (Part.join parts).map String.ofList

/-- Read the token at the start of a text. -/
def read : List Char → Option (Token × List Char)
  | '[' :: rest => some (openArray, rest)
  | ']' :: rest => some (closeArray, rest)
  | '\x7b' :: rest => some (openObject, rest)
  | '\x7d' :: rest => some (closeObject, rest)
  | ',' :: rest => some (comma, rest)
  | ':' :: rest => some (colon, rest)
  | 'n' :: 'u' :: 'l' :: 'l' :: rest => some (null, rest)
  | 't' :: 'r' :: 'u' :: 'e' :: rest => some (bool true, rest)
  | 'f' :: 'a' :: 'l' :: 's' :: 'e' :: rest => some (bool false, rest)
  | '"' :: rest => (readParts rest).map fun (parts, rest) => (string (content parts), rest)
  | s => (Number.read s).map fun (n, rest) => (number n, rest)

/-- The text behind a token is shorter than the text with the token. -/
theorem read_length {s rest : List Char} {t : Token} (h : read s = some (t, rest)) :
    rest.length < s.length := by
  unfold read at h
  split at h
  case h_10 r =>
    simp only [Option.map_eq_some_iff, Prod.mk.injEq] at h
    obtain ⟨⟨parts, r'⟩, h, -, rfl⟩ := h
    have := readParts_length h
    simp only [List.length_cons]
    omega
  case h_11 =>
    simp only [Option.map_eq_some_iff, Prod.mk.injEq] at h
    obtain ⟨⟨n, r'⟩, h, -, rfl⟩ := h
    exact Number.read_length h
  all_goals
    simp only [Option.some.injEq, Prod.mk.injEq] at h
    simp only [← h.2, List.length_cons]
    omega

end Token

/-- The tokens of a text; none if something in it is not a token. -/
def tokens (s : List Char) : Option (List Token) :=
  match s with
  | [] => some []
  | c :: rest =>
    if Token.isSpace c then tokens rest
    else
      match h : Token.read (c :: rest) with
      | none => none
      | some (t, behind) =>
        have := Token.read_length h
        (tokens behind).map (t :: ·)
termination_by s.length
decreasing_by
  · simp
  · exact this

end Switchboard.Json
