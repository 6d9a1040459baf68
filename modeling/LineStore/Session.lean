import LineStore.Client

/-!
A client at work: calls made one after another on one client, each with what came of it. A call
that fails does not stop those after it. When the last call is done the client is released.
-/
namespace LineStore

inductive Call where
  | connect
  | close
  | submit (command : Command)
  deriving DecidableEq, Repr

def Client.perform (client : Client) (network : Network) : Call → Client.Outcome
  | .connect => client.connect network
  | .close => client.close network
  | .submit command => client.submit network command

/-- What came of a call, and where the client was connected to after it. -/
structure Step where
  result : Except Fault Answer
  peer : Option Address
  trace : Trace

/-- The steps of a client, and the client and the network after them. -/
structure Session where
  steps : List Step
  client : Client
  network : Network

namespace Session

def run (client : Client) (network : Network) : List Call → Session
  | [] => ⟨[], client, network⟩
  | call :: calls =>
    let outcome := client.perform network call
    let later := run outcome.client outcome.network calls
    { later with steps := ⟨outcome.result, outcome.client.peer?, outcome.trace⟩ :: later.steps }

/-- Calls made after others are made by the client, and over the network, that those leave. -/
theorem run_append (client : Client) (network : Network) (earlier later : List Call) :
    run client network (earlier ++ later) =
      { run (run client network earlier).client (run client network earlier).network later with
        steps := (run client network earlier).steps ++
          (run (run client network earlier).client (run client network earlier).network later).steps } := by
  induction earlier generalizing client network with
  | nil => rfl
  | cons call earlier ih =>
    rw [List.cons_append, run, ih]
    rfl

/-- The events that follow the last call. -/
def ending (session : Session) : List Event := session.client.release

/-- Every event of a session in order, those of the ending included. -/
def events (session : Session) : List Event :=
  (session.steps.map (·.trace.events)).flatten ++ session.ending

end Session
end LineStore
