import LineStore.Command
import LineStore.Fault
import LineStore.Reply

/-!
What the server's line means to the command it answers. Each command has its own replies; an
error reply is passed on word for word, and a line that is no reply to the command is a fault that
quotes it.
-/
namespace LineStore

/-- What a successful call gives to its caller. -/
inductive Answer where
  | done
  | found (value : String)
  | absent
  | removed
  deriving DecidableEq, Repr

namespace Command

/-- What a reply answers to a command, if the command has such a reply. -/
def answer? : Command → Reply → Option Answer
  | .set .., .ok => some .done
  | .get _, .value text => some (.found text)
  | .get _, .notFound => some .absent
  | .del _, .ok => some .removed
  | .ping, .pong => some .done
  | _, _ => none

/-- What a line received for a command says. -/
def interpret (command : Command) (line : String) : Except Fault Answer :=
  match Reply.ofLine line with
  | .error message => .error (.rejected message)
  | reply =>
    match command.answer? reply with
    | some answer => .ok answer
    | none => .error (.unexpected line)

end Command
end LineStore
