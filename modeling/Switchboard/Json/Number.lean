import Switchboard.Json.Double
import Switchboard.Text.Numeral

/-!
# Numbers in JSON

A number is kept as it is written, so that a reader can still tell `1` from `1.0`.

**Value.** `± significand · 10 ^ scale`, where the digits behind the point count in the scale.

**Doubles.** A number that is not whole, or too large for a word of 64 bits, becomes a double in
three steps: the leading digits are gathered in a word for as long as they fit, the word and the
power of ten that is missing are rounded, and the two are multiplied. `fitsDouble` holds of the
numbers for which the product is finite. Because only the leading digits count, and because three
roundings are not one, near the largest double it depends on how a number is written.
-/

namespace Switchboard.Json

/-- A number as it is written. -/
structure Number where
  negative : Bool
  /-- The value of the digits before the point. -/
  whole : Nat
  /-- The digits behind the point, if there is one. -/
  fraction : List Nat
  /-- What stands behind the `e`, if there is one. -/
  exponent : Option Int
deriving DecidableEq, Repr

namespace Number

/-- The number with these digits and nothing else. -/
def ofNat (n : Nat) : Number := ⟨false, n, [], none⟩

/-- Whether a number is written with digits only, apart from the sign. -/
def isWhole (n : Number) : Bool := n.fraction.isEmpty && n.exponent.isNone

/-- Write digits behind those of a number. -/
def append (n : Nat) (digits : List Nat) : Nat := digits.foldl (fun acc d => acc * 10 + d) n

/-- The number that all digits write, the point left out. -/
def significand (n : Number) : Nat := append n.whole n.fraction

/-- The power of ten that the significand is multiplied with. -/
def scale (n : Number) : Int := n.exponent.getD 0 - n.fraction.length

/-! ## Reading -/

/-- The value of a digit. -/
def digit (c : Char) : Nat := (Text.digit? c).getD 0

/-- The value of a run of digits; 0 for the empty one. -/
def value (digits : List Char) : Nat := append 0 (digits.map digit)

/-- Read a sign, which only some numbers carry. -/
def readSign : List Char → Bool × List Char
  | '-' :: rest => (true, rest)
  | s => (false, s)

/-- Digits without a superfluous zero in front. -/
def isCanonical : List Char → Bool
  | [] => false
  | ['0'] => true
  | c :: _ => c != '0'

/-- Read the digits before the point. -/
def readWhole (s : List Char) : Option (List Char × List Char) :=
  let digits := s.takeWhile Char.isDigit
  if isCanonical digits then some (digits, s.dropWhile Char.isDigit) else none

/-- Read the digits after a point, if there is one. -/
def readFraction : List Char → Option (List Char × List Char)
  | '.' :: rest =>
    let digits := rest.takeWhile Char.isDigit
    if digits.isEmpty then none else some (digits, rest.dropWhile Char.isDigit)
  | s => some ([], s)

/-- Read the digits of an exponent behind its sign. -/
def readExponentDigits (negative : Bool) (s : List Char) : Option (Option Int × List Char) :=
  let digits := s.takeWhile Char.isDigit
  if digits.isEmpty then none
  else
    let n : Int := value digits
    some (some (if negative then -n else n), s.dropWhile Char.isDigit)

/-- Read an exponent, if there is one. -/
def readExponent : List Char → Option (Option Int × List Char)
  | 'e' :: '-' :: rest | 'E' :: '-' :: rest => readExponentDigits true rest
  | 'e' :: '+' :: rest | 'E' :: '+' :: rest => readExponentDigits false rest
  | 'e' :: rest | 'E' :: rest => readExponentDigits false rest
  | s => some (none, s)

/-- Read the number at the start of a text. -/
def read (s : List Char) : Option (Number × List Char) := do
  let (negative, s) := readSign s
  let (whole, s) ← readWhole s
  let (fraction, s) ← readFraction s
  let (exponent, s) ← readExponent s
  some (⟨negative, value whole, fraction.map digit, exponent⟩, s)

/-! ## Doubles -/

/-- The digits before the point. -/
def wholeDigits (n : Number) : List Nat := (Nat.toDigits 10 n.whole).map digit

/-- Write digits behind those of a number for as long as a word of 64 bits can hold it, and count
the ones left over. -/
def appendFitting (n : Nat) : List Nat → Nat × Nat
  | [] => (n, 0)
  | d :: rest =>
    if n * 10 + d ≤ Text.maxCount then appendFitting (n * 10 + d) rest else (n, rest.length + 1)

/-- The leading digits as a word, and the power of ten that it is to be multiplied with. -/
def leading (n : Number) : Nat × Int :=
  let (word, skipped) := appendFitting 0 n.wholeDigits
  let (word, ignored) := appendFitting word n.fraction
  (word, n.scale + skipped + ignored)

/-- Whether a double can hold the number, be it rounded. -/
def fitsDouble (n : Number) : Bool :=
  let (word, power) := n.leading
  word == 0 ||
    (decide (power ≤ 308) && Double.productIsFinite word (Nat.pow 10 power.toNat))

/-! ## Reading takes something -/

theorem readSign_length (s : List Char) : (readSign s).2.length ≤ s.length := by
  unfold readSign
  split <;> simp

theorem readWhole_length {s digits rest : List Char} (h : readWhole s = some (digits, rest)) :
    rest.length < s.length := by
  simp only [readWhole, Option.ite_none_right_eq_some, Option.some.injEq, Prod.mk.injEq] at h
  obtain ⟨hc, -, rfl⟩ := h
  have hs : (s.takeWhile Char.isDigit ++ s.dropWhile Char.isDigit).length = s.length :=
    congrArg List.length List.takeWhile_append_dropWhile
  have hd : s.takeWhile Char.isDigit ≠ [] := by
    intro he
    simp [he, isCanonical] at hc
  have := List.length_pos_iff.2 hd
  simp only [List.length_append] at hs
  omega

theorem readFraction_length {s digits rest : List Char}
    (h : readFraction s = some (digits, rest)) : rest.length ≤ s.length := by
  unfold readFraction at h
  split at h
  · next r =>
    have := (r.dropWhile_sublist Char.isDigit).length_le
    grind
  · simp_all

theorem readExponentDigits_length {negative : Bool} {s rest : List Char} {e : Option Int}
    (h : readExponentDigits negative s = some (e, rest)) : rest.length ≤ s.length := by
  unfold readExponentDigits at h
  have := (s.dropWhile_sublist Char.isDigit).length_le
  grind

theorem readExponent_length {s rest : List Char} {e : Option Int}
    (h : readExponent s = some (e, rest)) : rest.length ≤ s.length := by
  have signed {negative : Bool} {t : List Char} (ht : t.length ≤ s.length)
      (h : readExponentDigits negative t = some (e, rest)) : rest.length ≤ s.length :=
    Nat.le_trans (readExponentDigits_length h) ht
  unfold readExponent at h
  split at h <;> grind

/-- The text behind a number is shorter than the text with the number. -/
theorem read_length {s rest : List Char} {n : Number} (h : read s = some (n, rest)) :
    rest.length < s.length := by
  simp only [read, Option.bind_eq_bind, Option.bind_eq_some_iff, Option.some.injEq,
    Prod.mk.injEq] at h
  obtain ⟨⟨whole, s₁⟩, h₁, ⟨fraction, s₂⟩, h₂, ⟨exponent, s₃⟩, h₃, -, rfl⟩ := h
  have := readSign_length s
  have := readWhole_length h₁
  have := readFraction_length h₂
  have := readExponent_length h₃
  simp only at *
  omega

end Number

end Switchboard.Json
