import Switchboard.Text.Blank

/-!
# Modes of a pattern

How a part of a pattern is read. A group such as `(?i-s)` or `(?x:…)` changes the mode, for what
follows in the group around it or for what it encloses.

**Flags.** Each mode is a letter, switched on in front of a minus sign and off behind it. A letter
comes only once, and the minus sign not last.

**Verbose patterns.** In verbose mode white space has no meaning, and neither has what stands from
`#` to the end of the line.
-/

namespace Switchboard.Pattern

/-- How a part of a pattern is read. -/
structure Mode where
  /-- Letters stand for both of their cases (`i`). -/
  caseless : Bool := false
  /-- `^` and `$` stand for the ends of lines (`m`). -/
  multiline : Bool := false
  /-- The full stop stands for line breaks too (`s`). -/
  dotAll : Bool := false
  /-- Carriage returns end lines too (`R`). -/
  anyBreak : Bool := false
  /-- Repetitions prefer fewer turns (`U`). -/
  lazy : Bool := false
  /-- Characters beyond ASCII are known (`u`). -/
  wide : Bool := true
  /-- White space and comments have no meaning (`x`). -/
  verbose : Bool := false
deriving DecidableEq, Repr

namespace Mode

/-- Switch a mode on or off by its letter. -/
def switch? (m : Mode) (on : Bool) : Char → Option Mode
  | 'i' => some { m with caseless := on }
  | 'm' => some { m with multiline := on }
  | 's' => some { m with dotAll := on }
  | 'R' => some { m with anyBreak := on }
  | 'U' => some { m with lazy := on }
  | 'u' => some { m with wide := on }
  | 'x' => some { m with verbose := on }
  | _ => none

/-- Read flags up to the colon or bracket behind them, which is left in the text. -/
def readFlags (m : Mode) (seen : List Char) : List Char → Option (Mode × List Char)
  | ':' :: rest => if seen.head? == some '-' then none else some (m, ':' :: rest)
  | ')' :: rest => if seen.isEmpty || seen.head? == some '-' then none else some (m, ')' :: rest)
  | c :: rest =>
    if seen.contains c then none
    else if c == '-' then readFlags m (c :: seen) rest
    else (m.switch? (!seen.contains '-') c).bind fun m => readFlags m (c :: seen) rest
  | [] => none

end Mode

/-- Skip white space and comments. -/
def skipVerbose (inComment : Bool) : List Char → List Char
  | [] => []
  | c :: rest =>
    if inComment then skipVerbose (c != '\n') rest
    else if Text.isBlank c then skipVerbose false rest
    else if c == '#' then skipVerbose true rest
    else c :: rest

/-- Skip what has no meaning in a mode. -/
def Mode.skip (m : Mode) (s : List Char) : List Char := if m.verbose then skipVerbose false s else s

end Switchboard.Pattern
