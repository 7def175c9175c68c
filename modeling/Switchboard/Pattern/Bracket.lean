import Switchboard.Pattern.Escape

/-!
# Sets in brackets

The sets of characters that a pattern lists in brackets, such as `[a-z_]` or `[0-9&&[^5]]`.

**Members.** Characters and ranges of them, escapes, named classes of ASCII such as `[:alpha:]`, and
brackets within brackets. A hyphen at the start or the end, and a closing bracket at the start, are
members.

**Operations.** `&&`, `--` and `~~` take all that stands before them and what stands behind them up
to the next: what is in both, in the first only, or in one of them only.

**Depth.** Along with the set comes how deep its parts are nested, for a pattern is limited in that.
-/

namespace Switchboard.Pattern

/-- An operation on sets. -/
inductive SetOp where
  | inter
  | diff
  | symmDiff
deriving DecidableEq, Repr

/-- The result of an operation. -/
def SetOp.apply : SetOp → CharSet → CharSet → CharSet
  | inter => .inter
  | diff => .diff
  | symmDiff => .symmDiff

/-- Close a set under case, if the mode asks for it. The other case is not known beyond ASCII, so in
a wide mode this is refused unless there is nothing to do. -/
def foldSet? (m : Mode) (s : CharSet) : Option CharSet :=
  if !m.caseless then some s
  else if !m.wide then some s.foldCase
  else if s = .empty ∨ s = .all then some s
  else none

/-- Close a set under case, and take its complement if it is negated. Outside a wide mode there is
none, for it would not be of ASCII. -/
def finishSet? (m : Mode) (negated : Bool) (s : CharSet) : Option CharSet :=
  (foldSet? m s).bind fun s => if negated then if m.wide then some s.compl else none else some s

/-- The classes of ASCII that have a name. -/
def namedRanges? : String → Option (List (Char × Char))
  | "alnum" => some [('0', '9'), ('A', 'Z'), ('a', 'z')]
  | "alpha" => some [('A', 'Z'), ('a', 'z')]
  | "ascii" => some [('\x00', '\x7f')]
  | "blank" => some [('\t', '\t'), (' ', ' ')]
  | "cntrl" => some [('\x00', '\x1f'), ('\x7f', '\x7f')]
  | "digit" => some digitRanges
  | "graph" => some [('!', '~')]
  | "lower" => some [('a', 'z')]
  | "print" => some [(' ', '~')]
  | "punct" => some [('!', '/'), (':', '@'), ('[', '\x60'), ('\x7b', '~')]
  | "space" => some spaceRanges
  | "upper" => some [('A', 'Z')]
  | "word" => some wordRanges
  | "xdigit" => some [('0', '9'), ('A', 'F'), ('a', 'f')]
  | _ => none

/-- Read a named class from what is behind its opening bracket, if there is one: whether it is
negated, and the class. -/
def namedClass? : List Char → Option (Bool × CharSet × List Char)
  | ':' :: rest =>
    let (negated, rest) := match rest with
      | '^' :: rest => (true, rest)
      | rest => (false, rest)
    match rest.dropWhile (· != ':') with
    | ':' :: ']' :: after =>
      (namedRanges? (String.ofList (rest.takeWhile (· != ':')))).map fun ranges =>
        (negated, .ofRanges ranges, after)
    | _ => none
  | _ => none

/-- A set in brackets that is being read. -/
structure Bracket where
  negated : Bool
  /-- What stands before the last operation. -/
  left : Option (SetOp × CharSet)
  /-- What has been read since. -/
  right : CharSet
  /-- The number of members read since. -/
  size : Nat
  /-- How deep the members are nested. -/
  depth : Nat
deriving Repr

namespace Bracket

/-- A bracket with these members so far. -/
def start (negated : Bool) (members : List Char) : Bracket :=
  ⟨negated, none, members.foldl (fun s c => s.union (.single c)) .empty, members.length, 0⟩

/-- Add a member that is nested so deep. -/
def add (b : Bracket) (s : CharSet) (depth : Nat) : Bracket :=
  { b with right := b.right.union s, size := b.size + 1, depth := max b.depth depth }

/-- How deep the bracket is nested, when what stands on both sides of the last operation is one of
its parts. -/
def nesting (b : Bracket) : Nat :=
  b.depth + (if 1 < b.size then 1 else 0) + if b.left.isSome then 1 else 0

/-- What has been read, the last operation carried out. -/
def value? (m : Mode) (b : Bracket) : Option CharSet :=
  match b.left with
  | none => some b.right
  | some (op, left) => do some (op.apply (← foldSet? m left) (← foldSet? m b.right))

/-- Go on behind an operation. -/
def operate (m : Mode) (op : SetOp) (b : Bracket) : Option Bracket :=
  (b.value? m).map fun left => ⟨b.negated, some (op, left), .empty, 0, b.nesting⟩

/-- Read the hyphens at the start. -/
def readHyphens (m : Mode) : (fuel : Nat) → List Char → Nat × List Char
  | 0, s => (0, s)
  | fuel + 1, s =>
    match m.skip s with
    | '-' :: rest =>
      let (n, rest) := readHyphens m fuel rest
      (n + 1, rest)
    | s => (0, s)

/-- Read the start of a bracket, from what is behind it. -/
def readStart (m : Mode) (s : List Char) : Bracket × List Char :=
  let (negated, s) := match m.skip s with
    | '^' :: rest => (true, rest)
    | s => (false, s)
  let (hyphens, s) := readHyphens m (s.length + 1) s
  match hyphens, s with
  | 0, ']' :: rest => (start negated [']'], rest)
  | n, s => (start negated (List.replicate n '-'), s)

/-- Read a member that is no bracket, or the end of a range. -/
def readItem (m : Mode) : List Char → Option (Escape × List Char)
  | '\\' :: rest => Escape.read m rest
  | c :: rest => some (.char c, rest)
  | [] => none

/-- The set of the characters from one to another, if the mode knows them and there are any. -/
def range? (m : Mode) : Escape → Escape → Option CharSet
  | .char first, .char last =>
    if first ≤ last ∧ (m.wide ∨ last.toNat < 0x80) then some (.range first last) else none
  | _, _ => none

/-- The set that a member stands for. -/
def member? (m : Mode) : Escape → Option CharSet
  | .char c => range? m (.char c) (.char c)
  | .set s => some s
  | .assertion _ => none

/-- Read a member that is no bracket, or a range. -/
def readRange (m : Mode) (s : List Char) : Option (CharSet × List Char) := do
  let (first, rest) ← readItem m s
  let alone := (member? m first).map fun s => (s, m.skip rest)
  match m.skip rest with
  | '-' :: rest =>
    match m.skip rest with
    | ']' :: _ | '-' :: _ => alone
    | rest =>
      let (last, rest) ← readItem m rest
      (range? m first last).map fun s => (s, rest)
  | _ => alone

/-- Read the rest of a bracket: its set, how deep it is nested, and what follows it. -/
def readRest (m : Mode) : (fuel : Nat) → Bracket → List Char → Option (CharSet × Nat × List Char)
  | 0, _, _ => none
  | fuel + 1, b, s =>
    match m.skip s with
    | ']' :: rest => do some (← finishSet? m b.negated (← b.value? m), b.nesting + 1, rest)
    | '[' :: rest =>
      match namedClass? rest with
      | some (negated, set, rest) => do
        readRest m fuel (b.add (← finishSet? m negated set) 0) rest
      | none => do
        let (inner, rest) := readStart m rest
        let (set, depth, rest) ← readRest m fuel inner rest
        readRest m fuel (b.add set depth) rest
    | '&' :: '&' :: rest => do readRest m fuel (← b.operate m .inter) rest
    | '-' :: '-' :: rest => do readRest m fuel (← b.operate m .diff) rest
    | '~' :: '~' :: rest => do readRest m fuel (← b.operate m .symmDiff) rest
    | s => do
      let (set, rest) ← readRange m s
      readRest m fuel (b.add set 0) rest

/-- Read a set from what is behind its opening bracket. -/
def read (m : Mode) (s : List Char) : Option (CharSet × Nat × List Char) :=
  let (b, rest) := readStart m s
  readRest m (rest.length + 1) b rest

end Bracket

end Switchboard.Pattern
