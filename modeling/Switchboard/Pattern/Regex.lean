import Switchboard.Pattern.CharSet

/-!
# Regular expressions

What a pattern stands for, and which texts fit it.

**Threads.** A text is read from left to right by threads, each of which is a list of expressions
that are still to be matched. They are kept in order of preference: the left branch of an
alternative comes first, and with a repetition one more turn, or no more if it is lazy. Of two
threads that are alike only the first is kept.

**Whole texts.** A thread with nothing left to match ends those after it. A text fits an expression
if such a thread is there at its end. So `s|s1` does not fit `s1`: when the first branch is
through, the second is given up.
-/

namespace Switchboard.Pattern

/-- A place in a text: the character before it, and what stands behind it. -/
structure Place where
  before : Option Char
  after : List Char
deriving DecidableEq, Repr

/-- A demand on a place. -/
inductive Assertion where
  | textStart
  | textEnd
  | lineStart
  | lineEnd
  /-- The start of a line, where lines may end with a carriage return as well. -/
  | anyLineStart
  /-- The end of a line, where lines may end with a carriage return as well. -/
  | anyLineEnd
  | wordEdge
  | notWordEdge
  | wordStart
  | wordEnd
deriving DecidableEq, Repr

/-- A letter, a digit or an underscore of ASCII. -/
def isWordChar (c : Char) : Bool := c.isAlphanum || c == '_'

namespace Place

/-- Whether the character before a place belongs to a word. -/
def wordBefore (p : Place) : Bool := p.before.any isWordChar

/-- Whether the character behind a place belongs to a word. -/
def wordAfter (p : Place) : Bool := p.after.head?.any isWordChar

/-- Whether a place lies between a carriage return and its line feed. -/
def splitsBreak (p : Place) : Bool := p.before == some '\r' && p.after.head? == some '\n'

end Place

/-- Whether a place meets a demand. -/
def Assertion.holds (p : Place) : Assertion → Bool
  | textStart => p.before.isNone
  | textEnd => p.after.isEmpty
  | lineStart => p.before.all (· == '\n')
  | lineEnd => p.after.head?.all (· == '\n')
  | anyLineStart => p.before.all (fun c => c == '\n' || c == '\r') && !p.splitsBreak
  | anyLineEnd => p.after.head?.all (fun c => c == '\n' || c == '\r') && !p.splitsBreak
  | wordEdge => p.wordBefore != p.wordAfter
  | notWordEdge => p.wordBefore == p.wordAfter
  | wordStart => !p.wordBefore && p.wordAfter
  | wordEnd => p.wordBefore && !p.wordAfter

/-- A regular expression. -/
inductive Regex where
  | nothing
  | one (s : CharSet)
  | assertion (a : Assertion)
  | seq (r s : Regex)
  | alt (r s : Regex)
  | optional (r : Regex) (greedy : Bool)
  | many (r : Regex) (greedy : Bool)
  | atLeastOne (r : Regex) (greedy : Bool)
  /-- Any number of turns more, behind one turn. -/
  | turns (r : Regex) (greedy : Bool)
deriving DecidableEq, Repr

/-- The number of expressions in an expression. -/
def Regex.size : Regex → Nat
  | nothing | one _ | assertion _ => 1
  | seq r s | alt r s => r.size + s.size + 1
  | optional r _ | many r _ | atLeastOne r _ | turns r _ => r.size + 1

/-- What is still to be matched, in order. -/
abbrev Thread := List Regex

namespace Thread

/-- Two ways to go on, the one with more turns first unless the repetition is lazy. -/
def choose (greedy : Bool) (more rest : Thread) : List Thread :=
  if greedy then [more, rest] else [rest, more]

/-- The threads that a thread becomes without taking a character, most preferred first. -/
def next (p : Place) : Thread → List Thread
  | [] => []
  | .nothing :: k => [k]
  | .one _ :: _ => []
  | .assertion a :: k => if a.holds p then [k] else []
  | .seq r s :: k => [r :: s :: k]
  | .alt r s :: k => [r :: k, s :: k]
  | .optional r greedy :: k => choose greedy (r :: k) k
  | .atLeastOne r greedy :: k => [r :: .turns r greedy :: k]
  | .many r greedy :: k | .turns r greedy :: k => choose greedy (r :: .turns r greedy :: k) k

/-- Add a thread and all that it becomes without taking a character, depth first. A thread begins
with an expression of the pattern or with further turns of it, so a chain of new threads is no
longer than there are such. -/
def explore (p : Place) : (fuel : Nat) → List Thread → Thread → List Thread
  | 0, seen, _ => seen
  | fuel + 1, seen, t =>
    if seen.contains t then seen else (next p t).foldl (explore p fuel) (seen ++ [t])

/-- The threads that go on behind a character, up to one that has nothing left to match. -/
def take (c : Char) : List Thread → List Thread
  | [] | [] :: _ => []
  | (.one s :: k) :: rest => if s.contains c.toNat then k :: take c rest else take c rest
  | _ :: rest => take c rest

/-- Whether threads take the whole text. -/
def run (fuel : Nat) (before : Option Char) (threads : List Thread) (s : List Char) : Bool :=
  let seen := threads.foldl (explore ⟨before, s⟩ fuel) []
  match s with
  | [] => seen.contains []
  | c :: rest => run fuel (some c) (take c seen) rest

end Thread

/-- Whether a text fits an expression. -/
def Regex.fits (r : Regex) (s : String) : Bool := Thread.run (2 * r.size + 1) none [[r]] s.toList

end Switchboard.Pattern
