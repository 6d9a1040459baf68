/-!
How a value is written within a line. An empty value would leave nothing to see, so it is
written as two quotes; every other value stands for itself. Reading takes the two quotes back
to the empty value, so the value of two quotes is the only one that does not survive (`ofWire_toWire`).
-/
namespace LineStore.Value

/-- The written form of the empty value: two quotes. -/
def emptyForm : String := "\"\""

def toWire (value : String) : String :=
  if value = "" then emptyForm else value

/-- The value that a written form stands for. -/
def ofWire (written : String) : String :=
  if written = emptyForm then "" else written

theorem ofWire_toWire (value : String) : ofWire (toWire value) = if value = emptyForm then "" else value := by
  unfold toWire ofWire
  split <;> simp_all [emptyForm]

theorem toWire_ne_empty (value : String) : toWire value ≠ "" := by
  unfold toWire
  split
  · simp [emptyForm]
  · assumption

end LineStore.Value
