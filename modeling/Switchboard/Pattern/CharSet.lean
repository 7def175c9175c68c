/-!
# Sets of characters

**Changes.** A set is kept as the ascending code points at which membership changes, so that a run
of characters takes two of them, however long it is.

**Boolean operations.** All of them are `combine` for an operation on `Bool` that holds of nothing
where neither side holds.
-/

namespace Switchboard.Pattern

/-- A set of characters, by the code points at which membership changes. -/
structure CharSet where
  changes : List Nat
deriving DecidableEq, Repr

namespace CharSet

/-- Whether a code point belongs to the set: it stands behind an odd number of changes. -/
def contains (s : CharSet) (n : Nat) : Bool := (s.changes.filter (· ≤ n)).length % 2 == 1

/-- The set without members. -/
def empty : CharSet := ⟨[]⟩

/-- The set of all characters. -/
def all : CharSet := ⟨[0, 0x110000]⟩

/-- The characters from the first to the last. -/
def range (first last : Char) : CharSet := ⟨[first.toNat, last.toNat + 1]⟩

/-- The set of one character. -/
def single (c : Char) : CharSet := range c c

/-- The set whose membership is computed from that in two others. -/
def combine (op : Bool → Bool → Bool) (s t : CharSet) : CharSet :=
  let holds n := op (s.contains n) (t.contains n)
  ⟨((s.changes.merge t.changes).eraseDups).filter fun n => holds n != (n != 0 && holds (n - 1))⟩

/-- The members of either set. -/
def union : CharSet → CharSet → CharSet := combine or

/-- The members of both sets. -/
def inter : CharSet → CharSet → CharSet := combine and

/-- The members of the first set that are not in the second. -/
def diff : CharSet → CharSet → CharSet := combine fun a b => a && !b

/-- The members of exactly one of two sets. -/
def symmDiff : CharSet → CharSet → CharSet := combine xor

/-- The characters that are not in the set. -/
def compl (s : CharSet) : CharSet := all.diff s

/-- The set of these runs. -/
def ofRanges (ranges : List (Char × Char)) : CharSet :=
  ranges.foldl (fun s r => s.union (range r.1 r.2)) empty

/-- The small letters of ASCII. -/
def smallLetters : List Char := "abcdefghijklmnopqrstuvwxyz".toList

/-- The set with both cases of each ASCII letter of which it has one. -/
def foldCase (s : CharSet) : CharSet :=
  smallLetters.foldl (fun t c =>
    if s.contains c.toNat || s.contains c.toUpper.toNat then
      (t.union (single c)).union (single c.toUpper)
    else t) s

end CharSet

end Switchboard.Pattern
