import LineStore.Answer
import LineStore.Connection.Send
import LineStore.Connection.Receive

/-!
A client of one server. It connects when it first has to and keeps its connection from call to
call. A connection fault means that a line may have been sent or received in part, so the
connection is given up with it; after any other fault client and server are still in step, and the
connection is kept.
-/
namespace LineStore

/-- A client, and its connection while it has one. -/
structure Client where
  config : Config
  host_ne_empty : config.host ≠ ""
  connection : Option Connection := none

namespace Connection

/-- Sends a line and receives the line that answers it. -/
def exchange (connection : Connection) (line : String) : Except Fault String × Connection × Trace :=
  match connection.send line with
  | (some fault, connection, sent) => (.error fault, connection, sent)
  | (none, connection, sent) =>
    let (answer, connection, received) := connection.receive
    (answer, connection, sent ++ received)

end Connection

namespace Client

/-- A client that is not yet connected; its host must have a name. -/
def ofConfig (config : Config) : Except Fault Client :=
  if named : config.host ≠ "" then .ok { config, host_ne_empty := named } else .error .emptyHost

def peer? (client : Client) : Option Address := client.connection.map (·.peer)

def isConnected (client : Client) : Bool := client.connection.isSome

def disconnected (client : Client) : Client := { client with connection := none }

/-- What comes of a call: its result, the client and the network after it, and its trace. -/
structure Outcome where
  result : Except Fault Answer
  client : Client
  network : Network
  trace : Trace

/-- The connection of a client, opened if there is none. -/
def reach (client : Client) (network : Network) : Except Fault Connection × Network × Trace :=
  match client.connection with
  | some connection => (.ok connection, network, {})
  | none =>
    let (opened, trace) := Connection.establish client.config network.link
    (opened, network.rest, trace)

def connect (client : Client) (network : Network) : Outcome :=
  match client.reach network with
  | (.error fault, network, trace) => ⟨.error fault, client.disconnected, network, trace⟩
  | (.ok connection, network, trace) =>
    ⟨.ok .done, { client with connection := some connection }, network, trace⟩

def close (client : Client) (network : Network) : Outcome :=
  match client.connection with
  | none => ⟨.ok .done, client, network, {}⟩
  | some connection => ⟨.ok .done, client.disconnected, network, ⟨[.close], [.closing connection.peer]⟩⟩

/-- Sends a command and reads the answer, whatever key it names. -/
def request (client : Client) (network : Network) (command : Command) : Outcome :=
  let sending := Trace.ofRecord (.sending command.summary)
  match client.reach network with
  | (.error fault, network, reached) => ⟨.error fault, client.disconnected, network, sending ++ reached⟩
  | (.ok connection, network, reached) =>
    match connection.exchange command.line with
    | (.ok line, connection, exchanged) =>
      ⟨command.interpret line, { client with connection := some connection }, network,
        sending ++ reached ++ exchanged ++ .ofRecord (.received line)⟩
    | (.error fault, connection, exchanged) =>
      if fault.kind = .connection then
        let record := LogRecord.dropping command.verb (command.key?.getD "") fault.report
        ⟨.error fault, client.disconnected, network, sending ++ reached ++ exchanged ++ ⟨[.close], [record]⟩⟩
      else
        ⟨.error fault, { client with connection := some connection }, network, sending ++ reached ++ exchanged⟩

/-- Sends a command and reads the answer; a command with an empty key is refused at once. -/
def submit (client : Client) (network : Network) (command : Command) : Outcome :=
  if command.WellKeyed then client.request network command
  else ⟨.error .emptyKey, client, network, {}⟩

/-- The events that follow when a client is no longer needed. -/
def release (client : Client) : List Event :=
  if client.isConnected then [.close] else []

end Client
end LineStore
