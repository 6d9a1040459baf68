/-!
Spans of time, kept to the nanosecond. A span given in milliseconds keeps its length
(`toNanoseconds_ofMilliseconds`): it is cut into whole seconds and what is left of a second.
-/
namespace LineStore

/-- A span of time: whole seconds, and the nanoseconds beyond them. -/
structure Duration where
  seconds : UInt64
  nanoseconds : Fin 1000000000
  deriving DecidableEq, Repr

namespace Duration

def zero : Duration := ⟨0, 0⟩

def ofSeconds (seconds : UInt64) : Duration := ⟨seconds, 0⟩

/-- The span of so many milliseconds. -/
def ofMilliseconds (count : UInt64) : Duration :=
  ⟨count / 1000, ⟨count.toNat % 1000 * 1000000, by omega⟩⟩

def toNanoseconds (span : Duration) : Nat :=
  span.seconds.toNat * 1000000000 + span.nanoseconds.val

/-- The whole milliseconds of a span, as far as their count fits in 64 bits. -/
def toMilliseconds (span : Duration) : UInt64 := .ofNat (span.toNanoseconds / 1000000)

theorem toNanoseconds_ofMilliseconds (count : UInt64) :
    (ofMilliseconds count).toNanoseconds = count.toNat * 1000000 := by
  simp only [toNanoseconds, ofMilliseconds, UInt64.toNat_div, UInt64.reduceToNat]
  omega

end Duration
end LineStore
