import LineStore.Connection.Basic
import LineStore.Framing

/-!
Receiving a line. Bytes are read until those at hand hold a complete line; it is taken, and what
came after it is kept for the next one. An interrupted read is repeated; any other failure, or the
end of the stream, ends the attempt. A line already at hand is taken without reading.
-/
namespace LineStore

/-- A read asks for at most so many bytes. -/
def readSize : Nat := 4096

/-- What came of waiting for a line: its bytes or the fault that ended the wait, the bytes kept,
    how the reads after it will end, and the reads made. -/
structure Intake where
  line : Except Fault Bytes
  pending : Bytes
  reads : List ReadOutcome
  events : List Event

namespace Intake

def after (event : Event) (intake : Intake) : Intake :=
  { intake with events := event :: intake.events }

/-- What is left of a delivery once a read has taken what it asked for. -/
def unread (bytes : Bytes) (reads : List ReadOutcome) : List ReadOutcome :=
  if bytes.length ≤ readSize then reads else .delivers (bytes.drop readSize) :: reads

/-- How much a script of reads may still bring: each outcome counts one, and each byte one. -/
def weight : List ReadOutcome → Nat
  | [] => 0
  | .delivers bytes :: reads => bytes.length + 1 + weight reads
  | .fails _ :: reads => 1 + weight reads

theorem weight_unread_lt (bytes : Bytes) (reads : List ReadOutcome) :
    weight (unread bytes reads) < weight (.delivers bytes :: reads) := by
  by_cases fits : bytes.length ≤ readSize
  · simp only [unread, if_pos fits, weight]
    omega
  · have positive : 0 < readSize := by decide
    simp only [unread, if_neg fits, weight, List.length_drop]
    omega

/-- Reads until the bytes at hand hold a complete line. -/
def await (pending : Bytes) (reads : List ReadOutcome) : Intake :=
  match Framing.cut? pending with
  | some (line, left) => ⟨.ok line, left, reads, []⟩
  | none =>
    match reads with
    | [] => ⟨.error (.receiveFailed .nothingToRead), pending, [], [.read (.error .nothingToRead)]⟩
    | .fails error :: rest =>
      if error.isInterruption then (await pending rest).after (.read (.error error))
      else ⟨.error (.receiveFailed error), pending, rest, [.read (.error error)]⟩
    | .delivers [] :: rest => ⟨.error .serverClosed, pending, rest, [.read (.ok [])]⟩
    | .delivers bytes :: rest =>
      (await (pending ++ bytes.take readSize) (unread bytes rest)).after (.read (.ok (bytes.take readSize)))
termination_by weight reads
decreasing_by
  · simp [weight]
  · exact weight_unread_lt _ _

end Intake

namespace Connection

/-- Receives a line. The bytes of a line that is no text are taken all the same. -/
def receive (connection : Connection) : Except Fault String × Connection × Trace :=
  let intake := Intake.await connection.pending connection.reads
  let connection := { connection with pending := intake.pending, reads := intake.reads }
  match intake.line with
  | .error fault => (.error fault, connection, { events := intake.events })
  | .ok bytes =>
    let trace : Trace := ⟨intake.events, [.leftAfterLine intake.pending.length]⟩
    match Bytes.text? bytes with
    | some line => (.ok line, connection, trace)
    | none => (.error .notText, connection, trace)

end Connection
end LineStore
