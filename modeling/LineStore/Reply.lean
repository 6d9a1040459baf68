import LineStore.Value

/-!
The replies of the store, read from a line and written back to one. Reading never fails: a line
of no known form is kept as it is (`Reply.unknown`).
-/
namespace LineStore

/-- What follows `lead` in a text that begins with it. -/
def after? : (lead text : List Char) → Option (List Char)
  | [], text => some text
  | _ :: _, [] => none
  | a :: lead, b :: text => if a = b then after? lead text else none

theorem after?_eq_some_iff {lead text rest : List Char} : after? lead text = some rest ↔ text = lead ++ rest := by
  induction lead generalizing text with
  | nil => simp [after?]
  | cons a lead ih =>
    cases text with
    | nil => simp [after?]
    | cons b text =>
      by_cases same : a = b
      · simp [after?, same, ih]
      · simp [after?, same, Ne.symm same]

inductive Reply where
  | ok
  | notFound
  | pong
  | value (text : String)
  | error (message : String)
  | unknown (text : String)
  deriving DecidableEq, Repr

namespace Reply

/-- The reply that a line stands for. The three fixed words must be the whole line; an error and
    a value are told by their first word and one space. -/
def ofLine (line : String) : Reply :=
  if line = "OK" then .ok
  else if line = "NOT_FOUND" then .notFound
  else if line = "PONG" then .pong
  else match after? "ERROR ".toList line.toList with
    | some message => .error (String.ofList message)
    | none =>
      match after? "VALUE ".toList line.toList with
      | some written => .value (Value.ofWire (String.ofList written))
      | none => .unknown line

def line : Reply → String
  | .ok => "OK"
  | .notFound => "NOT_FOUND"
  | .pong => "PONG"
  | .value text => "VALUE " ++ Value.toWire text
  | .error message => "ERROR " ++ message
  | .unknown text => text

end Reply
end LineStore
