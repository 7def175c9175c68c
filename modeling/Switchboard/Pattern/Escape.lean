import Switchboard.Pattern.Mode
import Switchboard.Pattern.Regex
import Switchboard.Text.Numeral

/-!
# Escapes in a pattern

What a backslash and the characters behind it stand for.

**Classes.** The classes of digits, of white space and of word characters, and the edges of words,
are known for ASCII only. So in a wide mode they are refused, and outside it their complements are.
Properties of characters and references to groups are refused in any mode.
-/

namespace Switchboard.Pattern

/-- What an escape stands for. -/
inductive Escape where
  | char (c : Char)
  | set (s : CharSet)
  | assertion (a : Assertion)
deriving DecidableEq, Repr

/-- The digits of ASCII. -/
def digitRanges : List (Char × Char) := [('0', '9')]

/-- The white space of ASCII. -/
def spaceRanges : List (Char × Char) := [('\t', '\r'), (' ', ' ')]

/-- The word characters of ASCII. -/
def wordRanges : List (Char × Char) := [('0', '9'), ('A', 'Z'), ('_', '_'), ('a', 'z')]

namespace Escape

/-- Read so many hexadecimal digits. -/
def readHexDigits (m : Mode) (acc : Nat) : Nat → List Char → Option (Nat × List Char)
  | 0, s => some (acc, s)
  | n + 1, s =>
    match m.skip s with
    | c :: rest => (Text.hexDigit? c).bind fun d => readHexDigits m (acc * 16 + d) n rest
    | [] => none

/-- Read the character with a code point of so many hexadecimal digits. -/
def readHex (m : Mode) (digits : Nat) (s : List Char) : Option (Escape × List Char) :=
  (readHexDigits m 0 digits s).bind fun (n, rest) =>
    if n.isValidChar then some (char (Char.ofNat n), rest) else none

/-- The control character that a letter stands for. -/
def control? : Char → Option Char
  | 'a' => some '\x07'
  | 'f' => some '\x0c'
  | 't' => some '\t'
  | 'n' => some '\n'
  | 'r' => some '\r'
  | 'v' => some '\x0b'
  | _ => none

/-- The class of ASCII characters that a letter stands for. -/
def class? : Char → Option CharSet
  | 'd' => some (.ofRanges digitRanges)
  | 's' => some (.ofRanges spaceRanges)
  | 'w' => some (.ofRanges wordRanges)
  | _ => none

/-- The demand that a character stands for in any mode. -/
def edge? : Char → Option Assertion
  | 'A' => some .textStart
  | 'z' => some .textEnd
  | _ => none

/-- The demand on words that a character stands for. -/
def wordEdge? : Char → Option Assertion
  | 'b' => some .wordEdge
  | 'B' => some .notWordEdge
  | '<' => some .wordStart
  | '>' => some .wordEnd
  | _ => none

/-- Whether a character stands for itself behind a backslash. -/
def isQuotable (c : Char) : Bool :=
  c.toNat < 0x80 && !c.isAlphanum && c != '<' && c != '>'

/-- What a single character behind a backslash stands for. -/
def ofChar? (m : Mode) (c : Char) : Option Escape :=
  if isQuotable c then some (char c)
  else (((control? c).map char).or ((edge? c).map assertion)).or
    (if m.wide then none else ((class? c).map set).or ((wordEdge? c).map assertion))

/-- Read an escape from what is behind the backslash. -/
def read (m : Mode) : List Char → Option (Escape × List Char)
  | 'x' :: rest => readHex m 2 rest
  | 'u' :: rest => readHex m 4 rest
  | 'U' :: rest => readHex m 8 rest
  | c :: rest => (ofChar? m c).map fun e => (e, rest)
  | [] => none

end Escape

/-- The set that a character stands for. Its other case is not known beyond ASCII, so in a wide mode
a caseless character is refused. -/
def literal? (m : Mode) (c : Char) : Option CharSet :=
  if m.wide then if m.caseless then none else some (.single c)
  else if c.toNat < 0x80 then
    some (if m.caseless then (CharSet.single c).foldCase else .single c)
  else none

end Switchboard.Pattern
