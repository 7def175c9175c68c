import Switchboard.Text.Numeral

/-!
# String literals in JSON

The inside of a string, from the opening quote to the closing one.

**Parts.** A string is written as a sequence of parts: characters, and code units given by a
hexadecimal escape. Control characters must be escaped.

**Surrogates.** A unit may be half of a surrogate pair. `join` puts the halves together; a literal
in which one stands alone is well written but holds no text.
-/

namespace Switchboard.Json

/-- A part of a string: a character, or half of a surrogate pair. -/
inductive Part where
  | char (c : Char)
  | half (unit : Nat)
deriving DecidableEq, Repr

namespace Part

/-- The part that a code unit stands for. -/
def ofUnit (n : Nat) : Part :=
  if 0xD800 ≤ n ∧ n ≤ 0xDFFF then .half n else .char (Char.ofNat n)

/-- The character beyond the basic plane that a surrogate pair stands for. -/
def pair (high low : Nat) : Char := Char.ofNat (0x10000 + (high - 0xD800) * 0x400 + (low - 0xDC00))

/-- The text of a sequence of parts; none if a half is not part of a pair. -/
def join : List Part → Option (List Char)
  | [] => some []
  | .char c :: rest => (join rest).map (c :: ·)
  | .half high :: .half low :: rest =>
    if high < 0xDC00 ∧ 0xDC00 ≤ low then (join rest).map (pair high low :: ·) else none
  | .half _ :: _ => none

end Part

/-- The code unit that four hexadecimal digits stand for. -/
def unit? (a b c d : Char) : Option Nat := Text.readHex 0 [a, b, c, d]

/-- The character that a short escape stands for. -/
def shortEscape? : Char → Option Char
  | '"' => some '"'
  | '\\' => some '\\'
  | '/' => some '/'
  | 'b' => some '\x08'
  | 'f' => some '\x0c'
  | 'n' => some '\n'
  | 'r' => some '\r'
  | 't' => some '\t'
  | _ => none

/-- Put a part in front of the ones read behind it. -/
def prepend (part : Part) (read : Option (List Part × List Char)) :
    Option (List Part × List Char) :=
  read.map fun (parts, rest) => (part :: parts, rest)

/-- Read the inside of a string up to its closing quote. -/
def readParts : List Char → Option (List Part × List Char)
  | [] => none
  | '"' :: rest => some ([], rest)
  | '\\' :: 'u' :: a :: b :: c :: d :: rest =>
    (unit? a b c d).bind fun n => prepend (.ofUnit n) (readParts rest)
  | '\\' :: e :: rest => (shortEscape? e).bind fun c => prepend (.char c) (readParts rest)
  | c :: rest =>
    if c = '\\' ∨ c.toNat < 0x20 then none else prepend (.char c) (readParts rest)

theorem of_prepend {part : Part} {read : Option (List Part × List Char)} {parts : List Part}
    {rest : List Char} (h : prepend part read = some (parts, rest)) :
    ∃ parts, read = some (parts, rest) := by
  simp only [prepend, Option.map_eq_some_iff, Prod.mk.injEq] at h
  obtain ⟨⟨ps, r⟩, h, -, rfl⟩ := h
  exact ⟨ps, h⟩

/-- The text behind a string is shorter than the text with the string. -/
theorem readParts_length {s rest : List Char} {parts : List Part}
    (h : readParts s = some (parts, rest)) : rest.length < s.length := by
  fun_induction readParts s generalizing parts rest with
  | case1 => simp at h
  | case2 => grind
  | case3 a b c d r ih =>
    obtain ⟨n, -, h⟩ := Option.bind_eq_some_iff.1 h
    obtain ⟨ps, h⟩ := of_prepend h
    have := ih h
    simp only [List.length_cons]
    omega
  | case4 e r _ ih =>
    obtain ⟨c, -, h⟩ := Option.bind_eq_some_iff.1 h
    obtain ⟨ps, h⟩ := of_prepend h
    have := ih h
    simp only [List.length_cons]
    omega
  | case5 => simp at h
  | case6 c r _ _ _ _ ih =>
    obtain ⟨ps, h⟩ := of_prepend h
    have := ih h
    simp only [List.length_cons]
    omega

end Switchboard.Json
