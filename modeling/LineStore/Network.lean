import LineStore.Bytes
import LineStore.Duration

/-!
The network as its answers to what a client asks of it. A `Link` is how one attempt to reach the
server goes: what its host resolves to, how each connection attempt ends, which socket options are
refused, and how the socket answers writes and reads. An `Event` is one thing asked together with
its answer. Where a link says no more, connections succeed, writes take all that is offered, and
reads find nothing in time.
-/
namespace LineStore

inductive IoErrorKind where
  | timedOut
  | wouldBlock
  | interrupted
  | connectionRefused
  | connectionReset
  | connectionAborted
  | brokenPipe
  | hostUnreachable
  | invalidInput
  | other
  deriving DecidableEq, Repr

/-- A failure reported by the system, with the system's wording. -/
structure IoError where
  kind : IoErrorKind
  text : String
  deriving DecidableEq, Repr

namespace IoError

/-- The operation ended because its time was up. -/
def isTimeout (error : IoError) : Bool :=
  error.kind = .timedOut || error.kind = .wouldBlock

/-- The operation did nothing and may simply be repeated. -/
def isInterruption (error : IoError) : Bool :=
  error.kind = .interrupted

/-- How a read fails that nothing has come for. -/
def nothingToRead : IoError := ⟨.wouldBlock, "Resource temporarily unavailable (os error 11)"⟩

/-- How a connection attempt fails where nobody listens. -/
def nobodyListens : IoError := ⟨.connectionRefused, "Connection refused (os error 111)"⟩

end IoError

structure Address where
  ip : String
  port : UInt16
  deriving DecidableEq, Repr

/-- The text of an address; an IP address that holds colons is put into brackets. -/
def Address.text (address : Address) : String :=
  let ip := if ':' ∈ address.ip.toList then "[" ++ address.ip ++ "]" else address.ip
  ip ++ ":" ++ toString address.port.toNat

/-- How a write ends: so many of the offered bytes are accepted at most, or it fails. -/
inductive WriteOutcome where
  | accepts (count : Nat)
  | fails (error : IoError)
  deriving DecidableEq, Repr

/-- How a read ends: bytes have come, or it fails. No bytes at all mean that the other side has
    closed the connection. -/
inductive ReadOutcome where
  | delivers (bytes : Bytes)
  | fails (error : IoError)
  deriving DecidableEq, Repr

/-- How one attempt to reach the server goes. -/
structure Link where
  /-- The addresses of the host, in the order they are to be tried, or why there are none. -/
  addresses : Except IoError (List String) := .ok ["127.0.0.1"]
  /-- How the connection attempts end, in the order they are made; `none` is success. -/
  connects : List (Option IoError) := []
  readTimeout : Option IoError := none
  writeTimeout : Option IoError := none
  noDelay : Option IoError := none
  writes : List WriteOutcome := []
  reads : List ReadOutcome := []

/-- The link of a host on which nobody listens. -/
def Link.dead : Link := { connects := [some .nobodyListens] }

/-- How the attempts to reach the server go, in the order they are made. -/
abbrev Network := List Link

/-- How the next attempt goes; when nothing is said of it, nobody listens. -/
def Network.link (network : Network) : Link := network.headD .dead

def Network.rest (network : Network) : Network := network.tail

/-- Something asked of the network, and the answer. -/
inductive Event where
  | resolve (host : String) (port : UInt16) (answer : Except IoError (List String))
  | connect (peer : Address) (timeout : Option Duration) (failure : Option IoError)
  | readTimeout (timeout : Option Duration) (failure : Option IoError)
  | writeTimeout (timeout : Option Duration) (failure : Option IoError)
  | noDelay (failure : Option IoError)
  /-- Bytes offered, and how many of them, counted from the first, were accepted. -/
  | write (offered : Bytes) (answer : Except IoError Nat)
  | read (answer : Except IoError Bytes)
  | close

def Event.accepted : Event → Bytes
  | .write offered (.ok count) => offered.take count
  | _ => []

def Event.delivered : Event → Bytes
  | .read (.ok bytes) => bytes
  | _ => []

end LineStore
