/-!
# Texts by their bytes

Lengths and places in a text are counted in the bytes of its UTF-8 form.

**Cuts.** A text can be cut between two characters, and not inside one or behind its end.
-/

namespace Switchboard.Text

/-- The length of a text. -/
def byteLength : List Char → Nat
  | [] => 0
  | c :: rest => c.utf8Size + byteLength rest

/-- Cut a text behind so many bytes, if it can be cut there. -/
def cut? : (length : Nat) → List Char → Option (List Char × List Char)
  | 0, s => some ([], s)
  | _ + 1, [] => none
  | n + 1, c :: rest =>
    if c.utf8Size ≤ n + 1 then
      (cut? (n + 1 - c.utf8Size) rest).map fun (front, back) => (c :: front, back)
    else none

/-- What stands from one place in a text to another. -/
def slice? (s : List Char) (first last : Nat) : Option (List Char) :=
  (cut? first s).bind fun (_, rest) => (cut? (last - first) rest).map (·.1)

/-- What stands from a place in a text to its end. -/
def sliceFrom? (s : List Char) (first : Nat) : Option (List Char) := (cut? first s).map (·.2)

end Switchboard.Text
