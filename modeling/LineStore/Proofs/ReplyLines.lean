import LineStore.Proofs.Replies

/-!
Replies written back to lines, and lines read as replies. A line is written back as it was, but for the
value of nothing, which is written as two quotes (`Reply.line_ofLine`). Some replies are written as a line
that says something else, and so no line is read as one of them (`Reply.Faithful`). Main statement: these
replies apart, reading and writing undo each other, and two lines are read alike only if both give the
empty value (`Reply.lines_read_back`).
-/
namespace LineStore

namespace Value

theorem toWire_ofWire (written : String) : toWire (ofWire written) = if written = "" then emptyForm else written := by
  unfold toWire ofWire
  by_cases quotes : written = emptyForm
  · simp [quotes, emptyForm]
  · rw [if_neg quotes]

/-- No written form is read as the two quotes. -/
theorem ofWire_ne_emptyForm (written : String) : ofWire written ≠ emptyForm := by
  unfold ofWire
  split
  · simp [emptyForm]
  · assumption

end Value

namespace Reply

/-- A text that is the line of a reply of some known form. -/
def Reserved (text : String) : Prop :=
  text = "OK" ∨ text = "NOT_FOUND" ∨ text = "PONG" ∨ (∃ message, text = "ERROR " ++ message) ∨
    ∃ written, text = "VALUE " ++ written

/-- A reply whose line says nothing else: it is not the value of two quotes, and no text of a known form
    that is taken for unknown. -/
def Faithful : Reply → Prop
  | .ok | .notFound | .pong | .error _ => True
  | .value text => text ≠ Value.emptyForm
  | .unknown text => ¬ Reserved text

theorem ofLine_value (written : String) : ofLine ("VALUE " ++ written) = .value (Value.ofWire written) :=
  ofLine_eq_iff.mpr (.value written)

/-! ## Lines written back -/

/-- A line is written back as it was, unless it gives a value of nothing. -/
theorem line_ofLine (line : String) : (ofLine line).line = if line = "VALUE " then "VALUE \"\"" else line := by
  have reading := reading_ofLine line
  generalize ofLine line = reply at reading
  cases reading with
  | ok => rfl
  | notFound => rfl
  | pong => rfl
  | error message =>
    have other : "ERROR " ++ message ≠ "VALUE " := fun same => by simpa using congrArg String.toList same
    rw [if_neg other, Reply.line]
  | value written =>
    rw [Reply.line, Value.toWire_ofWire]
    by_cases nothing : written = ""
    · rw [nothing]
      rfl
    · have longer : "VALUE " ++ written ≠ "VALUE " := fun same => nothing (by simpa using same)
      rw [if_neg nothing, if_neg longer]
  | unknown ok notFound pong error value =>
    have other : line ≠ "VALUE " := value ""
    rw [if_neg other, Reply.line]

/-! ## Replies read back -/

theorem faithful_ofLine (line : String) : (ofLine line).Faithful := by
  have reading := reading_ofLine line
  generalize ofLine line = reply at reading
  cases reading with
  | value written => exact Value.ofWire_ne_emptyForm written
  | unknown ok notFound pong error value =>
    rintro (same | same | same | ⟨message, same⟩ | ⟨written, same⟩)
    · exact ok same
    · exact notFound same
    · exact pong same
    · exact error message same
    · exact value written same
  | _ => trivial

theorem ofLine_line_iff {reply : Reply} : ofLine reply.line = reply ↔ reply.Faithful := by
  constructor
  · intro back
    rw [← back]
    exact faithful_ofLine _
  · intro faithful
    cases reply with
    | value text =>
      have kept : ¬ text = Value.emptyForm := faithful
      rw [Reply.line, ofLine_value, Value.ofWire_toWire, if_neg kept]
    | unknown text =>
      refine ofLine_eq_iff.mpr (.unknown ?_ ?_ ?_ ?_ ?_)
      · exact fun same => faithful (.inl same)
      · exact fun same => faithful (.inr (.inl same))
      · exact fun same => faithful (.inr (.inr (.inl same)))
      · exact fun message same => faithful (.inr (.inr (.inr (.inl ⟨message, same⟩))))
      · exact fun written same => faithful (.inr (.inr (.inr (.inr ⟨written, same⟩))))
    | error message => exact ofLine_eq_iff.mpr (.error message)
    | _ => rfl

/-- The replies that lines are read as are those that their own lines give back. -/
theorem exists_ofLine_iff {reply : Reply} : (∃ line, ofLine line = reply) ↔ reply.Faithful := by
  constructor
  · rintro ⟨line, rfl⟩
    exact faithful_ofLine line
  · intro faithful
    exact ⟨reply.line, ofLine_line_iff.mpr faithful⟩

/-! ## Lines that are read alike -/

/-- A value of nothing is read as the empty value, which two quotes stand for. -/
theorem ofLine_nothing : ofLine "VALUE " = ofLine "VALUE \"\"" := (ofLine_value "").trans (ofLine_value "\"\"").symm

theorem ofLine_eq_ofLine_iff {first second : String} :
    ofLine first = ofLine second ↔ first = second ∨ (first = "VALUE " ∧ second = "VALUE \"\"") ∨
      (first = "VALUE \"\"" ∧ second = "VALUE ") := by
  constructor
  · intro alike
    have written : (ofLine first).line = (ofLine second).line := by rw [alike]
    rw [line_ofLine, line_ofLine] at written
    by_cases one : first = "VALUE "
    · by_cases other : second = "VALUE "
      · exact .inl (one.trans other.symm)
      · rw [if_pos one, if_neg other] at written
        exact .inr (.inl ⟨one, written.symm⟩)
    · by_cases other : second = "VALUE "
      · rw [if_neg one, if_pos other] at written
        exact .inr (.inr ⟨written, other⟩)
      · rw [if_neg one, if_neg other] at written
        exact .inl written
  · rintro (rfl | ⟨rfl, rfl⟩ | ⟨rfl, rfl⟩)
    · rfl
    · exact ofLine_nothing
    · exact ofLine_nothing.symm

/-- Reading a line and writing it back gives the line again, and writing a reply and reading it back gives the
    reply again, but for the lines and replies that share what they say with another. -/
theorem lines_read_back :
    (∀ line, (ofLine line).line = if line = "VALUE " then "VALUE \"\"" else line) ∧
      (∀ line, ofLine (ofLine line).line = ofLine line) ∧
      (∀ reply, ofLine reply.line = reply ↔ reply.Faithful) ∧
      (∀ reply, (∃ line, ofLine line = reply) ↔ reply.Faithful) ∧
      ∀ first second, ofLine first = ofLine second ↔ first = second ∨ (first = "VALUE " ∧ second = "VALUE \"\"") ∨
        (first = "VALUE \"\"" ∧ second = "VALUE ") :=
  ⟨line_ofLine, fun line => ofLine_line_iff.mpr (faithful_ofLine line), fun _ => ofLine_line_iff,
    fun _ => exists_ofLine_iff, fun _ _ => ofLine_eq_ofLine_iff⟩

end Reply
end LineStore
