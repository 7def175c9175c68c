/-!
# Blank text

Which characters count as white space, and what is left of a text once the white space at its
ends is gone.

**The class.** `isBlank` is the Unicode property `White_Space`: twenty-five characters, of which
the zero-width ones (`U+200B`, `U+2060`, `U+FEFF`) are not members.

**Trimming.** `trim` removes the blank run at either end and nothing in between.
-/

namespace Switchboard.Text

/-- The characters with the `White_Space` property. -/
def isBlank (c : Char) : Bool :=
  let n := c.toNat
  (9 ≤ n && n ≤ 13) || n == 0x20 || n == 0x85 || n == 0xA0 || n == 0x1680 ||
    (0x2000 ≤ n && n ≤ 0x200A) || n == 0x2028 || n == 0x2029 || n == 0x202F || n == 0x205F ||
    n == 0x3000

/-- Drop the elements at the end of a list that satisfy `p`. -/
def dropEndWhile {α : Type} (p : α → Bool) (xs : List α) : List α :=
  (xs.reverse.dropWhile p).reverse

/-- Drop the blank characters at the start of a text. -/
def trimStart (s : List Char) : List Char := s.dropWhile isBlank

/-- Drop the blank characters at both ends of a text. -/
def trimChars (s : List Char) : List Char := dropEndWhile isBlank (trimStart s)

/-- Drop the blank characters at both ends of a text. -/
def trim (s : String) : String := String.ofList (trimChars s.toList)

/-- A text with nothing but blank characters in it. -/
def allBlank (s : String) : Bool := s.toList.all isBlank

/-! ## Case -/

/-- Fold the ASCII letters to lower case and keep every other character. -/
def lowerAscii (s : String) : String := String.ofList (s.toList.map Char.toLower)

end Switchboard.Text
