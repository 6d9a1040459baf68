import LineStore.Network

/-!
What can go wrong with a call, by cause. A fault is reported by its kind and a message
(`Fault.report`): a validation fault is the caller's, a connection fault leaves no connection, and
a protocol fault leaves the connection in step with the server.
-/
namespace LineStore

inductive FaultKind where
  | validation
  | connection
  | protocol
  deriving DecidableEq, Repr

structure Report where
  kind : FaultKind
  message : String
  deriving DecidableEq, Repr

def FaultKind.name : FaultKind → String
  | .validation => "validation"
  | .connection => "connection"
  | .protocol => "protocol"

/-- The words that introduce the message of a fault of a kind. -/
def FaultKind.title : FaultKind → String
  | .validation => "Validation error"
  | .connection => "Connection error"
  | .protocol => "Protocol error"

/-- A report as it is shown to a user. -/
def Report.display (report : Report) : String :=
  report.kind.title ++ ": " ++ report.message

inductive Fault where
  | emptyHost
  | emptyKey
  | unresolved (host : String)
  | unreachable (host : String) (port : UInt16) (cause : IoError)
  | timeoutNotSet (cause : IoError)
  | notConfigured (cause : IoError)
  | sendFailed (cause : IoError)
  /-- A write was made and not a byte accepted. -/
  | sendStalled
  | receiveFailed (cause : IoError)
  /-- The server closed the connection before its line was complete. -/
  | serverClosed
  | notText
  /-- The server answered that it could not do what it was asked. -/
  | rejected (message : String)
  /-- The server's line is no answer to what it was asked. -/
  | unexpected (line : String)
  deriving DecidableEq, Repr

namespace Fault

/-- A stage of the conversation and why it was not passed. -/
def stage (name : String) (cause : IoError) : String :=
  if cause.isTimeout then name ++ " timed out" else name ++ " failed: " ++ cause.text

def kind : Fault → FaultKind
  | .emptyHost | .emptyKey => .validation
  | .unresolved _ | .unreachable .. | .timeoutNotSet _ | .notConfigured _ | .sendFailed _ | .sendStalled
  | .receiveFailed _ | .serverClosed => .connection
  | .notText | .rejected _ | .unexpected _ => .protocol

def message : Fault → String
  | .emptyHost => "Host cannot be empty"
  | .emptyKey => "Key cannot be empty"
  | .unresolved host => "failed to resolve hostname: " ++ host
  | .unreachable host port cause => stage ("connect to " ++ host ++ ":" ++ toString port.toNat) cause
  | .timeoutNotSet cause => stage "set socket timeout" cause
  | .notConfigured cause => stage "configure socket" cause
  | .sendFailed cause => stage "send" cause
  | .sendStalled => "send failed: connection closed"
  | .receiveFailed cause => stage "receive" cause
  | .serverClosed => "server closed connection"
  | .notText => "response is not valid UTF-8"
  | .rejected message => message
  | .unexpected line => "Unexpected response: " ++ line

def report (fault : Fault) : Report := ⟨fault.kind, fault.message⟩

end Fault
end LineStore
