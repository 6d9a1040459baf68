import LineStore.Answer
import Mathlib.Tactic.Common

/-!
What a line says. The forms of the replies tell the lines apart, so that every line is read in
one way (`Reply.ofLine_eq_iff`). What a line says to a command follows from the forms that answer
it (`Command.Tells`), and the command is told exactly that (`Command.tells_iff`).
-/
namespace LineStore

namespace Reply

/-- How a text is read that is none of the three fixed words. -/
theorem ofLine_of_not_fixed {line : String} (ok : line ≠ "OK") (notFound : line ≠ "NOT_FOUND") (pong : line ≠ "PONG") :
    ofLine line = match after? "ERROR ".toList line.toList with
      | some message => .error (String.ofList message)
      | none =>
        match after? "VALUE ".toList line.toList with
        | some written => .value (Value.ofWire (String.ofList written))
        | none => .unknown line := by
  exact (if_neg ok).trans ((if_neg notFound).trans (if_neg pong))

theorem after?_append (lead rest : String) : after? lead.toList (lead ++ rest).toList = some rest.toList :=
  after?_eq_some_iff.mpr String.toList_append

theorem eq_append_of_after? {lead line : String} {rest : List Char} (found : after? lead.toList line.toList = some rest) :
    line = lead ++ String.ofList rest := by
  apply String.toList_injective
  rw [String.toList_append, String.toList_ofList]
  exact after?_eq_some_iff.mp found

/-- The ways a line may be read, each with the lines that are read so. -/
inductive Reading : String → Reply → Prop
  | ok : Reading "OK" .ok
  | notFound : Reading "NOT_FOUND" .notFound
  | pong : Reading "PONG" .pong
  | error (message : String) : Reading ("ERROR " ++ message) (.error message)
  | value (written : String) : Reading ("VALUE " ++ written) (.value (Value.ofWire written))
  | unknown {line : String} (ok : line ≠ "OK") (notFound : line ≠ "NOT_FOUND") (pong : line ≠ "PONG")
      (error : ∀ message, line ≠ "ERROR " ++ message) (value : ∀ written, line ≠ "VALUE " ++ written) :
      Reading line (.unknown line)

theorem reading_ofLine (line : String) : Reading line (ofLine line) := by
  by_cases ok : line = "OK"
  · subst ok; exact .ok
  by_cases notFound : line = "NOT_FOUND"
  · subst notFound; exact .notFound
  by_cases pong : line = "PONG"
  · subst pong; exact .pong
  rw [ofLine_of_not_fixed ok notFound pong]
  cases failed : after? "ERROR ".toList line.toList with
  | some message =>
    have spelled := Reading.error (String.ofList message)
    rwa [← eq_append_of_after? failed] at spelled
  | none =>
    cases found : after? "VALUE ".toList line.toList with
    | some written =>
      have spelled := Reading.value (String.ofList written)
      rwa [← eq_append_of_after? found] at spelled
    | none =>
      refine .unknown ok notFound pong ?_ ?_
      · rintro message rfl
        rw [after?_append] at failed
        simp at failed
      · rintro written rfl
        rw [after?_append] at found
        simp at found

/-- A line is read in one way. -/
theorem Reading.eq_ofLine {line : String} {reply : Reply} (reading : Reading line reply) : reply = ofLine line := by
  cases reading with
  | ok => rfl
  | notFound => rfl
  | pong => rfl
  | error message =>
    rw [ofLine_of_not_fixed, after?_append]
    · simp only [String.ofList_toList]
    all_goals exact fun same => by simpa using congrArg String.toList same
  | value written =>
    rw [ofLine_of_not_fixed]
    · have noError : after? "ERROR ".toList ("VALUE " ++ written).toList = none := by
        rw [String.toList_append]
        rfl
      rw [noError, after?_append]
      simp only [String.ofList_toList]
    all_goals exact fun same => by simpa using congrArg String.toList same
  | unknown ok notFound pong error value =>
    have reading := reading_ofLine line
    generalize ofLine line = other at reading ⊢
    cases reading with
    | ok => exact absurd rfl ok
    | notFound => exact absurd rfl notFound
    | pong => exact absurd rfl pong
    | error message => exact absurd rfl (error message)
    | value written => exact absurd rfl (value written)
    | unknown => rfl

theorem ofLine_eq_iff {line : String} {reply : Reply} : ofLine line = reply ↔ Reading line reply :=
  ⟨fun same => same ▸ reading_ofLine line, fun reading => reading.eq_ofLine.symm⟩

end Reply

namespace Command

/-- The lines that answer a command as it asks for, and the answers they give. -/
inductive Accepts : Command → String → Answer → Prop
  | set {key value : String} : Accepts (.set key value) "OK" .done
  | absent {key : String} : Accepts (.get key) "NOT_FOUND" .absent
  | found {key : String} (written : String) : Accepts (.get key) ("VALUE " ++ written) (.found (Value.ofWire written))
  | del {key : String} : Accepts (.del key) "OK" .removed
  | ping : Accepts .ping "PONG" .done

/-- What a line tells the command it answers, as the caller gets to know it. -/
inductive Tells (command : Command) : String → Except Report Answer → Prop
  | accepted {line : String} {answer : Answer} (accepts : command.Accepts line answer) : Tells command line (.ok answer)
  | rejected (message : String) : Tells command ("ERROR " ++ message) (.error ⟨.protocol, message⟩)
  | unexpected {line : String} (other : ∀ answer, ¬ command.Accepts line answer)
      (noError : ∀ message, line ≠ "ERROR " ++ message) :
      Tells command line (.error ⟨.protocol, "Unexpected response: " ++ line⟩)

theorem accepts_iff {command : Command} {line : String} {answer : Answer} :
    command.Accepts line answer ↔ command.answer? (Reply.ofLine line) = some answer := by
  constructor
  · intro accepts
    cases accepts with
    | found written => rw [← (Reply.Reading.value written).eq_ofLine]; rfl
    | _ => rfl
  · intro answered
    have reading := Reply.reading_ofLine line
    generalize Reply.ofLine line = reply at reading answered
    cases command <;> cases reading <;> simp only [answer?, reduceCtorEq, Option.some.injEq] at answered <;> subst answered
    · exact .set
    · exact .absent
    · exact .found _
    · exact .del
    · exact .ping

theorem interpret_of_accepts {command : Command} {line : String} {answer : Answer} (accepts : command.Accepts line answer) :
    command.interpret line = .ok answer := by
  have answered := accepts_iff.mp accepts
  unfold interpret
  split
  · rename_i message failed
    rw [failed] at answered
    cases command <;> simp [answer?] at answered
  · rw [answered]

theorem tells_interpret (command : Command) (line : String) :
    command.Tells line ((command.interpret line).mapError Fault.report) := by
  have reading := Reply.reading_ofLine line
  cases answered : command.answer? (Reply.ofLine line) with
  | some answer =>
    have accepts := accepts_iff.mpr answered
    rw [interpret_of_accepts accepts]
    exact .accepted accepts
  | none =>
    have other : ∀ answer, ¬ command.Accepts line answer := by
      intro answer accepts
      rw [accepts_iff.mp accepts] at answered
      simp at answered
    unfold interpret
    split
    · rename_i message failed
      rw [failed] at reading
      cases reading
      exact .rejected message
    · rename_i noError
      rw [answered]
      refine .unexpected other ?_
      rintro message rfl
      exact noError message (Reply.Reading.error message).eq_ofLine.symm

/-- A line tells a command one thing. -/
theorem tells_iff {command : Command} {line : String} {said : Except Report Answer} :
    command.Tells line said ↔ said = (command.interpret line).mapError Fault.report := by
  constructor
  · intro told
    cases told with
    | accepted accepts => rw [interpret_of_accepts accepts]; rfl
    | rejected message =>
      unfold interpret
      rw [← (Reply.Reading.error message).eq_ofLine]
      rfl
    | unexpected other noError =>
      have told := command.tells_interpret line
      generalize (command.interpret line).mapError Fault.report = said at told ⊢
      cases told with
      | accepted accepts => exact absurd accepts (other _)
      | rejected message => exact absurd rfl (noError message)
      | unexpected => rfl
  · rintro rfl
    exact command.tells_interpret line

end Command
end LineStore
