import LineStore.Log

/-!
What a call leaves behind besides its answer: the network events it caused and the records it
logged. The two are kept apart, each in its own order.
-/
namespace LineStore

/-- Events and records, each in the order they came about. -/
structure Trace where
  events : List Event := []
  log : List LogRecord := []

namespace Trace

def append (first second : Trace) : Trace :=
  ⟨first.events ++ second.events, first.log ++ second.log⟩

instance : Append Trace := ⟨append⟩

def ofEvent (event : Event) : Trace := { events := [event] }

def ofRecord (record : LogRecord) : Trace := { log := [record] }

@[simp] theorem events_append (first second : Trace) : (first ++ second).events = first.events ++ second.events := rfl

@[simp] theorem log_append (first second : Trace) : (first ++ second).log = first.log ++ second.log := rfl

/-- The records of a log that are not mere detail. -/
def debugLog (trace : Trace) : List LogRecord := trace.log.filter (·.level = .debug)

end Trace
end LineStore
