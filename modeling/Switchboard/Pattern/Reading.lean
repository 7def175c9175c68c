import Switchboard.Pattern.Bracket
import Switchboard.Text.Letter

/-!
# Reading patterns

A pattern is read from left to right. The groups that are open around the current place are a stack,
innermost first, each with what has been read of it before.

**Repetitions.** `?`, `*` and `+` apply to the part before them, which must exist and be no mere
change of mode. A question mark behind them makes them lazy. Counted repetitions, such as two to
five turns, are refused, and so is looking ahead or behind.

**Depth.** The parts of a pattern are nested at most `maxDepth` deep, where groups, repetitions,
sets and their operations, alternatives and sequences each count as one level.
-/

namespace Switchboard

/-- A text that stands for a set of texts, and the expression that it writes. -/
structure Pattern where
  text : String
  regex : Pattern.Regex
deriving DecidableEq, Repr

namespace Pattern

/-- An expression, and how deep its parts are nested. -/
structure Part where
  regex : Regex
  depth : Nat
deriving Repr

namespace Part

/-- An expression without parts. -/
def leaf (r : Regex) : Part := ⟨r, 0⟩

/-- Parts joined to one, which is a level of its own unless there is only one part. -/
def join (op : Regex → Regex → Regex) : List Part → Part
  | [] => leaf .nothing
  | [p] => p
  | p :: q :: rest =>
    (q :: rest).foldl (fun p q => ⟨op p.regex q.regex, max p.depth (q.depth + 1)⟩)
      ⟨p.regex, p.depth + 1⟩

end Part

/-- What has been read of a group. -/
structure Group where
  /-- The branches before the current one, last first. -/
  branches : List Part
  /-- The parts of the current branch, last first. A change of mode is a part too, but nothing to
  repeat. -/
  parts : List (Option Part)
deriving Repr

namespace Group

/-- A group of which nothing has been read. -/
def start : Group := ⟨[], []⟩

/-- Add a part. -/
def add (g : Group) (p : Part) : Group := { g with parts := some p :: g.parts }

/-- The current branch. -/
def branch (g : Group) : Part := .join .seq (g.parts.reverse.map (·.getD (.leaf .nothing)))

/-- Go on with another branch. -/
def fork (g : Group) : Group := ⟨g.branch :: g.branches, []⟩

/-- The whole group. -/
def value (g : Group) : Part := .join .alt (g.branch :: g.branches).reverse

/-- Repeat the last part. -/
def repeatLast? (g : Group) (op : Regex → Regex) : Option Group :=
  match g.parts with
  | some p :: rest => some { g with parts := some ⟨op p.regex, p.depth + 1⟩ :: rest }
  | _ => none

end Group

/-- What has been read of a pattern. -/
structure Progress where
  mode : Mode
  group : Group
  /-- The open groups around the current one, innermost first, with their modes. -/
  outer : List (Mode × Group)
  /-- The names of groups. -/
  names : List String
deriving Repr

namespace Progress

/-- A pattern of which nothing has been read. -/
def start : Progress := ⟨{}, .start, [], []⟩

/-- Add a part to the current group. -/
def add (p : Progress) (part : Part) : Progress := { p with group := p.group.add part }

/-- Open a group, in which a mode applies. -/
def enter (p : Progress) (m : Mode) : Progress :=
  { p with mode := m, group := .start, outer := (p.mode, p.group) :: p.outer }

/-- Close the current group. -/
def leave? (p : Progress) : Option Progress :=
  match p.outer with
  | [] => none
  | (mode, group) :: outer =>
    let part := p.group.value
    some { p with mode, group := group.add ⟨part.regex, part.depth + 1⟩, outer }

/-- Change the mode for the rest of the current group. -/
def change (p : Progress) (m : Mode) : Progress :=
  { p with mode := m, group := { p.group with parts := none :: p.group.parts } }

/-- Whether a character may stand in the name of a group, at the start or behind it. -/
def isNameChar (first : Bool) (c : Char) : Bool :=
  c == '_' || if first then Text.isAlphanumeric c && !c.isDigit
    else Text.isAlphanumeric c || c == '.' || c == '[' || c == ']'

/-- Whether a text is the name of a group. -/
def isName : List Char → Bool
  | [] => false
  | c :: rest => isNameChar true c && rest.all (isNameChar false)

/-- Read the name of a group and the bracket behind it, and open the group. -/
def openNamed? (p : Progress) (s : List Char) : Option (Progress × List Char) :=
  let name := s.takeWhile (· != '>')
  match s.dropWhile (· != '>') with
  | _ :: rest =>
    if isName name && !p.names.contains (String.ofList name) then
      some (({ p with names := String.ofList name :: p.names } : Progress).enter p.mode, rest)
    else none
  | [] => none

/-- Read what is behind the opening bracket of a group. -/
def openGroup? (p : Progress) (s : List Char) : Option (Progress × List Char) :=
  match p.mode.skip s with
  | '?' :: '=' :: _ | '?' :: '!' :: _ | '?' :: '<' :: '=' :: _ | '?' :: '<' :: '!' :: _ => none
  | '?' :: 'P' :: '<' :: rest | '?' :: '<' :: rest => p.openNamed? rest
  | '?' :: rest =>
    match p.mode.readFlags [] rest with
    | some (mode, ':' :: rest) => some (p.enter mode, rest)
    | some (mode, _ :: rest) => some (p.change mode, rest)
    | _ => none
  | rest => some (p.enter p.mode, rest)

/-- Read whether a repetition is lazy, and repeat the last part. -/
def repeatLast? (p : Progress) (op : Regex → (greedy : Bool) → Regex) (s : List Char) :
    Option (Progress × List Char) :=
  let (lazy, rest) := match s with
    | '?' :: rest => (true, rest)
    | rest => (false, rest)
  (p.group.repeatLast? fun r => op r (lazy == p.mode.lazy)).map fun group =>
    ({ p with group }, rest)

/-- The characters that the full stop stands for. Outside a wide mode it is refused, for it would
stand for parts of characters. -/
def fullStop? (m : Mode) : Option CharSet :=
  if !m.wide then none
  else if m.dotAll then some .all
  else if m.anyBreak then some ((CharSet.single '\n').union (.single '\r')).compl
  else some (CharSet.single '\n').compl

/-- What `^` stands for. -/
def startOf (m : Mode) : Assertion :=
  if !m.multiline then .textStart else if m.anyBreak then .anyLineStart else .lineStart

/-- What `$` stands for. -/
def endOf (m : Mode) : Assertion :=
  if !m.multiline then .textEnd else if m.anyBreak then .anyLineEnd else .lineEnd

/-- The part that an escape is. -/
def ofEscape? (m : Mode) : Escape → Option Part
  | .char c => (literal? m c).map fun s => .leaf (.one s)
  | .set s => some (.leaf (.one s))
  | .assertion a => some (.leaf (.assertion a))

/-- The part that a character is by itself. -/
def ofChar? (m : Mode) : Char → Option Part
  | '.' => (fullStop? m).map fun s => .leaf (.one s)
  | '^' => some (.leaf (.assertion (startOf m)))
  | '$' => some (.leaf (.assertion (endOf m)))
  | c => ofEscape? m (.char c)

/-- Read one thing, which begins with this character. -/
def read (p : Progress) (rest : List Char) : Char → Option (Progress × List Char)
  | '(' => p.openGroup? rest
  | ')' => p.leave?.map fun p => (p, rest)
  | '|' => some ({ p with group := p.group.fork }, rest)
  | '?' => p.repeatLast? .optional rest
  | '*' => p.repeatLast? .many rest
  | '+' => p.repeatLast? .atLeastOne rest
  | '\x7b' => none
  | '[' => (Bracket.read p.mode rest).map fun (s, depth, rest) => (p.add ⟨.one s, depth⟩, rest)
  | '\\' => do
    let (e, rest) ← Escape.read p.mode rest
    some (p.add (← ofEscape? p.mode e), rest)
  | c => (ofChar? p.mode c).map fun part => (p.add part, rest)

/-- Read up to the end. Each step takes a character at least. -/
def readAll (p : Progress) : (fuel : Nat) → List Char → Option Progress
  | 0, _ => none
  | fuel + 1, s =>
    match p.mode.skip s with
    | [] => some p
    | c :: rest => (p.read rest c).bind fun (p, rest) => p.readAll fuel rest

end Progress

/-- How deep the parts of a pattern may be nested. -/
def maxDepth : Nat := 250

/-- Read a pattern. -/
def read (s : String) : Option Pattern := do
  let p ← Progress.start.readAll (s.length + 1) s.toList
  if p.outer.isEmpty && p.group.value.depth ≤ maxDepth then some ⟨s, p.group.value.regex⟩ else none

/-- Whether a text is one of those that a pattern stands for. -/
def fits (p : Pattern) (s : String) : Bool := p.regex.fits s

end Pattern

end Switchboard
