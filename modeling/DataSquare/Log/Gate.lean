import DataSquare.Log.Filter

/-!
# What a log shows

A gate lets an event through when the threshold of the log and its filter, if there is one, both
do. A span that is not visible itself leaves its events without it. Main statement: an event that
comes through keeps everything but its span.
-/
namespace DataSquare.Log

/-- What decides which events are shown. -/
structure Gate where
  /-- The threshold for all events and spans. -/
  threshold : Threshold
  /-- The filter beside it. -/
  filter? : Option Filter
deriving DecidableEq, Repr

namespace Gate

/-- Whether a span is visible. -/
def passesSpan (gate : Gate) (span : Span) : Bool :=
  gate.threshold.passes span.level && gate.filter?.all fun filter => filter.passesSpan span

/-- An event within its span only if that is visible. -/
def clip (gate : Gate) (event : Event) : Event :=
  { event with span? := event.span?.filter gate.passesSpan }

/-- Whether an event passes. -/
def passesEvent (gate : Gate) (event : Event) : Bool :=
  gate.threshold.passes event.level && gate.filter?.all fun filter => filter.passesEvent event

/-- The events that are shown, in their order. -/
def shown (gate : Gate) (events : List Event) : List Event :=
  (events.map gate.clip).filter gate.passesEvent

/-- A shown event is an event without its span or with it. -/
theorem exists_of_mem_shown {gate : Gate} {events : List Event} {event : Event}
    (h : event ∈ gate.shown events) : ∃ whole ∈ events, event = gate.clip whole := by
  obtain ⟨whole, hmem, heq⟩ := List.mem_map.1 (List.mem_filter.1 h).1
  exact ⟨whole, hmem, heq.symm⟩

/-- Nothing is shown when no event passes the threshold. -/
theorem shown_off (filter? : Option Filter) (events : List Event) :
    shown ⟨.off, filter?⟩ events = [] := by
  simp [shown, passesEvent, Threshold.passes]

end Gate

end DataSquare.Log
