import DataSquare.Log.Directive

/-!
# Filters of a log

A filter is a list of rules. Among the rules about events that cover a target the one with the
longest text decides, and of those one that asks for a field. What no rule covers does not pass,
unless it occurs within a span that meets a rule about spans. An operator configures a filter as a
table from targets to thresholds, which is written as one text in the order of the targets. Main
statement: a span that some rule is about is visible.
-/
namespace DataSquare.Log

/-- The rules that decide what passes. -/
structure Filter where
  /-- The rules. -/
  directives : List Directive
deriving DecidableEq, Repr

namespace Filter

/-- The parts of a text between its commas. -/
def parts : List Char → List (List Char)
  | [] => [[]]
  | char :: rest =>
    if char = ',' then [] :: parts rest
    else
      match parts rest with
      | [] => [[char]]
      | first :: later => (char :: first) :: later

/-- The filter that a text writes. Empty parts do not count. -/
def ofText (text : String) : Except DirectiveFault Filter :=
  (((parts text.toList).filter fun part => !part.isEmpty).mapM Directive.ofText).map Filter.mk

/-- The rules about events and spans as they are, those that are about nothing else first. -/
def general (filter : Filter) : List Directive :=
  let (spans, events) := filter.directives.partition Directive.isAboutSpans
  events ++ spans.filter Directive.isAboutEvents

/-- The rule that decides: the most specific of some rules, of several the last. -/
def deciding? (directives : List Directive) : Option Directive :=
  directives.foldl (fun best? directive =>
    match best? with
    | none => some directive
    | some best => if best.isNoMoreSpecific directive then some directive else some best) none

/-- Whether the rules about events let an event pass. -/
def passesAsEvent (filter : Filter) (event : Event) : Bool :=
  (deciding? (filter.general.filter fun directive =>
    directive.covers event.target &&
      directive.findsField ("message" :: event.fields.map Field.name))).any
    fun directive => directive.threshold.passes event.level

/-- Whether the rules about events let a span pass, of which fields do not count. -/
def passesAsSpan (filter : Filter) (span : Span) : Bool :=
  (deciding? (filter.general.filter fun directive => directive.covers span.target)).any
    fun directive => directive.threshold.passes span.level

/-- The rules about spans, of which the last one counts when they differ in the threshold only. -/
def special (filter : Filter) : List Directive :=
  (filter.directives.filter Directive.isAboutSpans).foldl
    (fun kept directive =>
      kept.filter (fun other => { other with threshold := directive.threshold } ≠ directive) ++
        [directive]) []

/-- The rules that are about a span, whatever its values. -/
def about (filter : Filter) (span : Span) : List Directive :=
  filter.special.filter fun directive =>
    directive.covers span.target && directive.span?.all (fun name => name = span.name) &&
      directive.findsField (span.fields.map Field.name)

/-- Whether a span is visible. A span that some rule is about is, whatever its level. -/
def passesSpan (filter : Filter) (span : Span) : Bool :=
  !(filter.about span).isEmpty || filter.passesAsSpan span

/-- Whether an event passes, within its visible span. -/
def passesEvent (filter : Filter) (event : Event) : Bool :=
  (event.span?.any fun span =>
    (filter.about span).any fun directive =>
      directive.field?.all (FieldTest.isMetBy span) && directive.threshold.passes event.level) ||
    filter.passesAsEvent event

/-- A span is visible when some rule is about it. -/
theorem passesSpan_of_mem_about {filter : Filter} {span : Span} {directive : Directive}
    (h : directive ∈ filter.about span) : filter.passesSpan span = true := by
  simp [passesSpan, List.ne_nil_of_mem h]

end Filter

/-- The table from targets to thresholds that an operator configures. -/
structure FilterSettings where
  /-- The rows in the order of the targets, each of which occurs once. -/
  rows : List (String × String)
deriving DecidableEq, Repr

namespace FilterSettings

/-- The table with a row, which replaces one for the same target. -/
def insert (target threshold : String) : List (String × String) → List (String × String)
  | [] => [(target, threshold)]
  | (other, set) :: rest =>
    if target = other then (target, threshold) :: rest
    else if target < other then (target, threshold) :: (other, set) :: rest
    else (other, set) :: insert target threshold rest

/-- The table of rows, of which the last one for a target counts. -/
def ofRows (rows : List (String × String)) : FilterSettings :=
  ⟨rows.foldl (fun table (target, threshold) => insert target threshold table) []⟩

/-- The filter as one text. -/
def directives (settings : FilterSettings) : String :=
  String.intercalate "," (settings.rows.map fun (target, threshold) => target ++ "=" ++ threshold)

/-- The filter, unless a rule of it is not understood. -/
def filter (settings : FilterSettings) : Except DirectiveFault Filter :=
  Filter.ofText settings.directives

end FilterSettings

end DataSquare.Log
