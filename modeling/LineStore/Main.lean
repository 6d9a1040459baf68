import LineStore.CommandLine.Run
import LineStore.Recording
import Std.Async.DNS
import Std.Async.TCP
import Std.Async.Timer

/-!
The program itself. It is led through the real network one event at a time: what the run would
ask next is asked of a socket, and the run is made again with the answer known.
-/
namespace LineStore

open Std.Async Std.Net

/-- The socket in use and the limits set on it. -/
structure Wire where
  socket : IO.Ref (Option TCP.Socket.Client)
  readLimit : IO.Ref (Option Duration)
  writeLimit : IO.Ref (Option Duration)

namespace Wire

def new : IO Wire := do
  return ⟨← IO.mkRef none, ← IO.mkRef none, ← IO.mkRef none⟩

/-- The number and the wording that the system gives to a failure. -/
def codeAndDetails : IO.Error → Option (UInt32 × String)
  | .alreadyExists _ code details | .otherError code details | .resourceBusy code details
  | .resourceVanished code details | .unsupportedOperation code details | .hardwareFault code details
  | .unsatisfiedConstraints code details | .illegalOperation code details | .protocolError code details
  | .timeExpired code details | .interrupted _ code details | .noFileOrDirectory _ code details
  | .invalidArgument _ code details | .permissionDenied _ code details | .resourceExhausted _ code details
  | .inappropriateType _ code details | .noSuchThing _ code details => some (code, details)
  | .unexpectedEof | .userError _ => none

def kindOf : UInt32 → IoErrorKind
  | 4 => .interrupted
  | 11 => .wouldBlock
  | 22 => .invalidInput
  | 32 => .brokenPipe
  | 103 => .connectionAborted
  | 104 => .connectionReset
  | 110 => .timedOut
  | 111 => .connectionRefused
  | 113 => .hostUnreachable
  | _ => .other

/-- A failure as the library tells it. The number may come with either sign. -/
def failure (error : IO.Error) : IoError :=
  match codeAndDetails error with
  | none => ⟨.other, toString error⟩
  | some (code, details) =>
    let code := if code < 0x80000000 then code else 0 - code
    ⟨kindOf code, details.capitalize ++ " (os error " ++ toString code.toNat ++ ")"⟩

def timedOut : IoError := ⟨.timedOut, "timed out"⟩

/-- A limit as a timer counts it. -/
def milliseconds (span : Duration) : Std.Time.Millisecond.Offset :=
  .ofNat (max 1 (span.toNanoseconds / 1000000))

def attempt {α : Type} (limit : Option Duration) (task : Async α) : IO (Except IoError α) := do
  let limited : Async (Option α) := match limit with
    | none => some <$> task
    | some span => Async.race (some <$> task) (do sleep (milliseconds span); return none)
  try
    match ← limited.block with
    | some value => return .ok value
    | none => return .error timedOut
  catch error => return .error (failure error)

/-- The first thing to happen: bytes or the end of the stream, or the time is up. -/
def firstOf (arrival : Selector (Option ByteArray)) (timer : Option (Selector Unit)) :
    Async (Option (Option ByteArray)) :=
  let arrived : Selectable (Option (Option ByteArray)) := .case arrival fun bytes => return some bytes
  match timer with
  | none => Selectable.one #[arrived]
  | some timer => Selectable.one #[arrived, .case timer fun _ => return none]

/-- Waits for bytes within a limit; no bytes mean that the stream has ended. -/
def receive (limit : Option Duration) (socket : TCP.Socket.Client) : IO (Except IoError Bytes) := do
  try
    let timer ← limit.mapM fun span => (Selector.sleep (milliseconds span)).block
    match ← (firstOf (socket.recvSelector readSize.toUInt64) timer).block with
    | some (some bytes) => return .ok bytes.data.toList
    | some none => return .ok []
    | none => return .error timedOut
  catch error => return .error (failure error)

def socketAddress? (address : Address) : Option SocketAddress :=
  match IPv4Addr.ofString address.ip with
  | some ip => some (.v4 ⟨ip, address.port⟩)
  | none => (IPv6Addr.ofString address.ip).map fun ip => .v6 ⟨ip, address.port⟩

/-- Why something ended without success, if it did. -/
def refusal {α : Type} : Except IoError α → Option IoError
  | .ok _ => none
  | .error error => some error

/-- Does on the wire what an event asks, and gives the event with the true answer. -/
def perform (wire : Wire) (event : Event) : IO Event := do
  match event with
  | .resolve host port _ =>
    let answer ← attempt none (DNS.getAddrInfo host (toString port.toNat))
    return .resolve host port (answer.map fun ips => (ips.toList.map toString).eraseDups)
  | .connect peer timeout _ =>
    let socket ← TCP.Socket.Client.mk
    wire.socket.set (some socket)
    match socketAddress? peer with
    | some address => return .connect peer timeout (refusal (← attempt timeout (socket.connect address)))
    | none => return .connect peer timeout (some ⟨.invalidInput, "invalid address"⟩)
  | .readTimeout limit _ =>
    wire.readLimit.set limit
    return .readTimeout limit none
  | .writeTimeout limit _ =>
    wire.writeLimit.set limit
    return .writeTimeout limit none
  | .close =>
    wire.socket.set none
    return .close
  | .noDelay _ | .write .. | .read _ =>
    match event, ← wire.socket.get with
    | .noDelay _, some socket => return .noDelay (refusal (← attempt none socket.noDelay))
    | .write offered _, some socket =>
      let answer ← attempt (← wire.writeLimit.get) (socket.send ⟨offered.toArray⟩)
      return .write offered (answer.map fun _ => offered.length)
    | .read _, some socket => return .read (← receive (← wire.readLimit.get) socket)
    | event, _ => return event

/-- Runs the program on the events so far until it asks for nothing more. -/
partial def converse (wire : Wire) (arguments : List String) (past : Array Event) : IO CommandLine.Exit := do
  let exit := CommandLine.run arguments [Link.ofEvents past.toList]
  match exit.events[past.size]? with
  | some event => converse wire arguments (past.push (← perform wire event))
  | none => return exit

end Wire
end LineStore

def main (arguments : List String) : IO UInt32 := do
  let exit ← LineStore.Wire.converse (← LineStore.Wire.new) arguments #[]
  IO.print exit.stdout
  IO.eprint exit.errorStream
  return exit.code.toUInt32
