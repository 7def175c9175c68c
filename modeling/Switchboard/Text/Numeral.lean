/-!
# Numerals

Runs of ASCII digits and their values, in decimal and in hexadecimal.

**Counts.** `readCount` takes an optional plus sign and one or more digits, with a value that a
64-bit word can hold. Nothing else is accepted, not even white space around the numeral.

**Numbers.** `isNumber` holds of the numerals with a sign, a point and an exponent if wanted, and of
the words for infinity and for what is not a number.
-/

namespace Switchboard.Text

/-- The value of an ASCII digit. -/
def digit? (c : Char) : Option Nat :=
  if '0' ≤ c ∧ c ≤ '9' then some (c.toNat - '0'.toNat) else none

/-- Read a run of digits to the end of the text, most significant first, on top of `acc`. -/
def readDigits (acc : Nat) : List Char → Option Nat
  | [] => some acc
  | c :: rest => (digit? c).bind fun d => readDigits (acc * 10 + d) rest

/-- The largest count: what an unsigned 64-bit word can hold. -/
def maxCount : Nat := 0xFFFFFFFFFFFFFFFF

/-- Read one or more digits. -/
def readNumeral : List Char → Option Nat
  | [] => none
  | s => readDigits 0 s

/-- Drop one leading plus sign. -/
def dropPlus : List Char → List Char
  | '+' :: rest => rest
  | s => s

/-- Read a count: an optional `+`, digits, and a value of at most `maxCount`. -/
def readCount (s : String) : Option Nat :=
  (readNumeral (dropPlus s.toList)).filter (· ≤ maxCount)

/-! ## Hexadecimal numerals -/

/-- The value of a hexadecimal digit in either case. -/
def hexDigit? (c : Char) : Option Nat :=
  if '0' ≤ c ∧ c ≤ '9' then some (c.toNat - '0'.toNat)
  else if 'a' ≤ c ∧ c ≤ 'f' then some (c.toNat - 'a'.toNat + 10)
  else if 'A' ≤ c ∧ c ≤ 'F' then some (c.toNat - 'A'.toNat + 10)
  else none

/-- Read a run of hexadecimal digits to the end of the text, on top of `acc`. -/
def readHex (acc : Nat) : List Char → Option Nat
  | [] => some acc
  | c :: rest => (hexDigit? c).bind fun d => readHex (acc * 16 + d) rest

/-! ## Numbers -/

/-- Drop one leading sign. -/
def dropSign : List Char → List Char
  | '+' :: rest | '-' :: rest => rest
  | s => s

/-- Whether a text is an exponent, or empty. -/
def isExponent : List Char → Bool
  | [] => true
  | 'e' :: rest | 'E' :: rest =>
    let digits := dropSign rest
    !digits.isEmpty && digits.all Char.isDigit
  | _ => false

/-- The digits behind a point at the start of a text, and what follows them. -/
def fraction : List Char → List Char × List Char
  | '.' :: rest => (rest.takeWhile Char.isDigit, rest.dropWhile Char.isDigit)
  | s => ([], s)

/-- Whether a text is digits, with a point among or beside them if wanted, and an exponent. -/
def isFinite (s : List Char) : Bool :=
  let (digits, rest) := fraction (s.dropWhile Char.isDigit)
  !(s.takeWhile Char.isDigit ++ digits).isEmpty && isExponent rest

/-- The words for what is no finite number. -/
def nonFinite : List String := ["inf", "infinity", "nan"]

/-- Whether a text is a number. -/
def isNumber (s : String) : Bool :=
  let s := dropSign s.toList
  isFinite s || nonFinite.contains (String.ofList (s.map Char.toLower))

/-! ## Numerals inside a text -/

/-- Read the digits at the start of a text, at most `most` of them and at least one. -/
def leadingNumeral (most : Nat) (s : List Char) : Option (Nat × List Char) :=
  let digits := (s.take most).takeWhile Char.isDigit
  (readNumeral digits).map fun n => (n, s.drop digits.length)

/-- A number in decimal, with zeros in front where it has fewer than `width` digits. -/
def padded (width n : Nat) : String :=
  let digits := toString n
  String.ofList (List.replicate (width - digits.length) '0') ++ digits

end Switchboard.Text
