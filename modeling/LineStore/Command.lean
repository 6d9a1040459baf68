import LineStore.Value

/-!
The commands of the store and the line each one is sent as. The summary of a command, which is
what may be logged, hides the value that is being set.
-/
namespace LineStore

inductive Command where
  | set (key value : String)
  | get (key : String)
  | del (key : String)
  | ping
  deriving DecidableEq, Repr

namespace Command

def verb : Command → String
  | .set .. => "SET"
  | .get _ => "GET"
  | .del _ => "DEL"
  | .ping => "PING"

def key? : Command → Option String
  | .set key _ | .get key | .del key => some key
  | .ping => none

/-- The line that carries a command, without its terminator. -/
def line : Command → String
  | .set key value => "SET " ++ key ++ " " ++ Value.toWire value
  | .get key => "GET " ++ key
  | .del key => "DEL " ++ key
  | .ping => "PING"

/-- What a log may show of a command: its line, with a value to be set left out. -/
def summary : Command → String
  | .set key _ => "SET " ++ key ++ " <value>"
  | command => command.line

/-- A command that names a key names a nonempty one. -/
def WellKeyed (command : Command) : Prop := command.key? ≠ some ""

instance (command : Command) : Decidable command.WellKeyed :=
  inferInstanceAs (Decidable (_ ≠ _))

/-- Two settings of one key have one summary, whatever is set. -/
theorem summary_set (key first second : String) : (set key first).summary = (set key second).summary := rfl

end Command
end LineStore
