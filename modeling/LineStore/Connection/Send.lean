import LineStore.Connection.Basic
import LineStore.Framing

/-!
Sending a line. What is left of it is offered again and again until all of it is accepted;
an interrupted write is repeated, and any other failure, or a write that accepts nothing, ends
the attempt. Nothing is offered once the line is complete.
-/
namespace LineStore

/-- What came of offering bytes: the fault that stopped it, if any, how the writes after it
    will end, and the writes made. -/
structure Sending where
  fault : Option Fault
  writes : List WriteOutcome
  events : List Event

def Sending.after (event : Event) (sending : Sending) : Sending :=
  { sending with events := event :: sending.events }

/-- Offers bytes until none are left. -/
def Sending.offer (left : Bytes) : List WriteOutcome → Sending
  | [] => if left = [] then ⟨none, [], []⟩ else ⟨none, [], [.write left (.ok left.length)]⟩
  | outcome :: writes =>
    if left = [] then ⟨none, outcome :: writes, []⟩
    else match outcome with
      | .accepts 0 => ⟨some .sendStalled, writes, [.write left (.ok 0)]⟩
      | .accepts count =>
        (offer (left.drop count) writes).after (.write left (.ok (min count left.length)))
      | .fails error =>
        if error.isInterruption then (offer left writes).after (.write left (.error error))
        else ⟨some (.sendFailed error), writes, [.write left (.error error)]⟩

namespace Connection

def send (connection : Connection) (line : String) : Option Fault × Connection × Trace :=
  let sending := Sending.offer (Framing.frame line) connection.writes
  (sending.fault, { connection with writes := sending.writes }, { events := sending.events })

end Connection
end LineStore
