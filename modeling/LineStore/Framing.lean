import LineStore.Bytes

/-!
Lines within a stream of bytes. A line is ended by a carriage return followed at once by a line
feed; either of them alone is part of the line. Main statement: a stream is cut at the end of its
first line and nowhere else (`cut?_eq_some_iff`), so it is not cut exactly when it holds no
terminator (`cut?_eq_none_iff`).
-/
namespace LineStore.Framing

/-- The text that ends every line: a carriage return and a line feed. -/
def terminator : String := "\r\n"

def carriageReturn : UInt8 := 13

def lineFeed : UInt8 := 10

/-- The bytes that carry a line. -/
def frame (line : String) : Bytes := Bytes.ofText line ++ [carriageReturn, lineFeed]

/-- The bytes before the first terminator and those after it. -/
def cut? : Bytes → Option (Bytes × Bytes)
  | a :: b :: rest =>
    if a = carriageReturn ∧ b = lineFeed then some ([], rest)
    else (cut? (b :: rest)).map fun (line, left) => (a :: line, left)
  | _ => none

/-- Bytes that hold no terminator. -/
def Unbroken (bytes : Bytes) : Prop :=
  ∀ before after : Bytes, bytes ≠ before ++ carriageReturn :: lineFeed :: after

/-! ## Where a stream is cut -/

theorem unbroken_tail {a : UInt8} {bytes : Bytes} (whole : Unbroken (a :: bytes)) : Unbroken bytes :=
  fun before after same => whole (a :: before) after (by rw [same]; rfl)

theorem unbroken_cons {a b : UInt8} {bytes : Bytes} (other : ¬ (a = carriageReturn ∧ b = lineFeed))
    (rest : Unbroken (b :: bytes)) : Unbroken (a :: b :: bytes) := by
  intro before after same
  cases before with
  | nil =>
    simp only [List.nil_append, List.cons.injEq] at same
    exact other ⟨same.1, same.2.1⟩
  | cons c before =>
    simp only [List.cons_append, List.cons.injEq] at same
    exact rest before after same.2

theorem cut?_eq_none_iff {bytes : Bytes} : cut? bytes = none ↔ Unbroken bytes := by
  fun_induction cut? bytes with
  | case1 a b rest here => exact ⟨nofun, fun whole => absurd (by rw [here.1, here.2]; rfl) (whole [] rest)⟩
  | case2 a b rest other ih =>
    rw [Option.map_eq_none_iff, ih]
    exact ⟨unbroken_cons other, unbroken_tail⟩
  | case3 bytes short =>
    refine ⟨fun _ before after same => ?_, fun _ => rfl⟩
    cases before with
    | nil => exact short _ _ _ same
    | cons c before => cases before <;> exact short _ _ _ same

/-- A stream is cut at the end of its first line. -/
theorem cut?_eq_some_iff {bytes line left : Bytes} :
    cut? bytes = some (line, left) ↔ bytes = line ++ carriageReturn :: lineFeed :: left ∧ Unbroken line := by
  fun_induction cut? bytes generalizing line with
  | case1 a b rest here =>
    obtain ⟨rfl, rfl⟩ := here
    constructor
    · intro cut
      simp only [Option.some.injEq, Prod.mk.injEq] at cut
      obtain ⟨rfl, rfl⟩ := cut
      exact ⟨rfl, fun before after same => by cases before <;> simp at same⟩
    · rintro ⟨same, whole⟩
      cases line with
      | nil => simpa using same
      | cons c line =>
        cases line with
        | nil => simp [carriageReturn, lineFeed] at same
        | cons d line =>
          simp only [List.cons_append, List.cons.injEq] at same
          exact absurd (by rw [← same.1, ← same.2.1]; rfl) (whole [] line)
  | case2 a b rest other ih =>
    simp only [Option.map_eq_some_iff, Prod.exists, Prod.mk.injEq]
    constructor
    · rintro ⟨before, after, cut, rfl, rfl⟩
      obtain ⟨same, whole⟩ := ih.1 cut
      refine ⟨by rw [same]; rfl, ?_⟩
      cases before with
      | nil => intro u v eq; cases u <;> simp at eq
      | cons c before =>
        simp only [List.cons_append, List.cons.injEq] at same
        exact unbroken_cons (same.1 ▸ other) whole
    · rintro ⟨same, whole⟩
      cases line with
      | nil =>
        simp only [List.nil_append, List.cons.injEq] at same
        exact absurd ⟨same.1, same.2.1⟩ other
      | cons c line =>
        simp only [List.cons_append, List.cons.injEq] at same
        exact ⟨line, left, ih.2 ⟨same.2, unbroken_tail whole⟩, by rw [same.1], rfl⟩
  | case3 bytes short =>
    refine ⟨nofun, fun ⟨same, _⟩ => ?_⟩
    cases line with
    | nil => exact absurd same (short _ _ _)
    | cons c line => cases line <;> exact absurd same (short _ _ _)

instance (bytes : Bytes) : Decidable (Unbroken bytes) := decidable_of_iff _ cut?_eq_none_iff

theorem ofText_terminator : Bytes.ofText terminator = [carriageReturn, lineFeed] := by decide +kernel

end LineStore.Framing
