import LineStore.Command
import LineStore.Proofs.Lines

/-!
The texts that a command carries. Main statement: the line of a command is one line exactly when
each of its texts is (`oneLine_line_iff`); neither the verb and the spaces nor the written form of
a value bring a terminator in.
-/
namespace LineStore
open Framing

theorem Value.oneLine_toWire (value : String) : OneLine (toWire value) ↔ OneLine value := by
  unfold toWire
  split
  case isTrue empty =>
    rw [empty]
    exact ⟨fun _ => by decide +kernel, fun _ => by decide +kernel⟩
  case isFalse => rfl

namespace Command

/-- The key and the value of a command, where it has them. -/
def texts : Command → List String
  | .set key value => [key, value]
  | .get key | .del key => [key]
  | .ping => []

theorem oneLine_line_iff (command : Command) : OneLine command.line ↔ ∀ text ∈ command.texts, OneLine text := by
  have verb : ∀ {first second : String}, OneLine first → (OneLine (first ++ " " ++ second) ↔ OneLine second) :=
    fun plain => (oneLine_spaced _ _).trans (and_iff_right plain)
  cases command with
  | set key value =>
    show OneLine ("SET" ++ " " ++ key ++ " " ++ Value.toWire value) ↔ _
    rw [oneLine_spaced, verb (by decide +kernel), Value.oneLine_toWire]
    simp [texts]
  | get key =>
    show OneLine ("GET" ++ " " ++ key) ↔ _
    rw [verb (by decide +kernel)]
    simp [texts]
  | del key =>
    show OneLine ("DEL" ++ " " ++ key) ↔ _
    rw [verb (by decide +kernel)]
    simp [texts]
  | ping => exact ⟨fun _ => by simp [texts], fun _ => by decide +kernel⟩

end Command
end LineStore
