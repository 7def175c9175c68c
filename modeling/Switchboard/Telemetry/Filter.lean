import Switchboard.Telemetry.Directive

/-!
# Log filters

Which records are logged, by their target and level and by the spans they are made in.

**Directives.** A filter is a list of directives, divided by commas. Nothing between two commas is
no directive, and a filter without any logs nothing.

**Precedence.** Of the directives that speak of a record by itself, the most specific one decides,
and of two alike the later one. What is made within a span that a directive asks for is logged at
the level of that directive in any case.

**Spans.** A span is only open if it passes the filter itself or if a directive asks for its kind;
else records do not show it.
-/

namespace Switchboard.Telemetry

/-- The directives that decide what is logged. -/
structure Filter where
  directives : List Directive
deriving DecidableEq, Repr

namespace Filter

/-- Read a filter. -/
def read (s : String) : Except FilterError Filter :=
  (((s.splitOn ",").filter (· != "")).mapM Directive.read).map Filter.mk

/-- The most verbose level at which anything may be logged. The value of a field is not known before
a span is open, so a directive that asks for one leaves all levels possible. -/
def maxLevel (f : Filter) : Level :=
  if f.directives.any (·.readsValue) then .trace
  else (f.directives.map (·.level)).foldl Level.max .off

/-- The directives of a list without those that a later one replaces. -/
def latest (ds : List Directive) : List Directive :=
  ds.foldr (fun d kept => if kept.any (·.sameScope d) then kept else d :: kept) []

/-- The most specific directive; of several alike, the last. -/
def decisive? (ds : List Directive) : Option Directive :=
  ds.foldl (fun best d => if best.any (·.outranks d) then best else some d) none

/-- Whether a span is opened. -/
def opens (f : Filter) (s : Span) : Bool :=
  f.maxLevel.allows s.level &&
    (f.directives.any (·.watches s) ||
      (decisive? (f.directives.filter (·.coversSpan s))).any (·.level.allows s.level))

/-- Whether a record is logged by itself. -/
def passes (f : Filter) (r : Record) : Bool :=
  (decisive? (f.directives.filter (·.covers r))).any (·.level.allows r.level)

/-- Whether a record at this level is logged within a span. -/
def passesWithin (f : Filter) (s : Span) (level : Level) : Bool :=
  (latest f.directives).any fun d => d.coversWithin s && d.level.allows level

/-- A record as it is logged, with the spans that were opened; none if it is not logged. -/
def admit? (f : Filter) (r : Record) : Option Record :=
  let spans := r.spans.filter f.opens
  if f.passes r || spans.any (f.passesWithin · r.level) then some { r with spans } else none

end Filter

end Switchboard.Telemetry
