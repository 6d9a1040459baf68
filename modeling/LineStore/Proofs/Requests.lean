import LineStore.Session
import LineStore.Proofs.Delivery
import LineStore.Proofs.Opening

/-!
How a request goes. There are four ways (`Course`): the server is not reached, the command is not
sent to its end, no line answers it, or a line does. Each of them says what came of the call, of
the connection and of the stream that the connection awaits; every request goes one of these ways
(`request_course`), so what holds along all four of them holds of every request.
-/
namespace LineStore
open Framing

theorem Trace.append_nil (trace : Trace) : trace ++ ⟨[], []⟩ = trace := by
  cases trace
  show Trace.mk _ _ = _
  simp

namespace Connection

/-! ## Exchanging lines -/

/-- The connection once a line has been offered. -/
def sentTo (connection : Connection) (line : String) : Connection :=
  { connection with writes := (Sending.offer (frame line) connection.writes).writes }

theorem exchange_of_fault {connection : Connection} {line : String} {fault : Fault}
    (stopped : (Sending.offer (frame line) connection.writes).fault = some fault) :
    connection.exchange line =
      (.error fault, connection.sentTo line, { events := (Sending.offer (frame line) connection.writes).events }) := by
  unfold exchange send
  simp only [stopped]
  rfl

theorem exchange_of_sent {connection : Connection} {line : String}
    (fine : (Sending.offer (frame line) connection.writes).fault = none) :
    connection.exchange line =
      ((connection.sentTo line).receive.1, (connection.sentTo line).receive.2.1,
        { events := (Sending.offer (frame line) connection.writes).events } ++ (connection.sentTo line).receive.2.2) := by
  unfold exchange send
  simp only [fine]
  rfl

/-- An exchange does nothing but write and read. -/
theorem exchange_transfers (connection : Connection) (line : String) :
    ∀ event ∈ (connection.exchange line).2.2.events, event.isTransfer = true := by
  have written : ∀ event ∈ (Sending.offer (frame line) connection.writes).events, event.isTransfer = true := by
    intro event member
    obtain ⟨offered, answer, rfl⟩ := Sending.offer_writes _ _ event member
    rfl
  cases stopped : (Sending.offer (frame line) connection.writes).fault with
  | some fault =>
    rw [exchange_of_fault stopped]
    exact written
  | none =>
    rw [exchange_of_sent stopped]
    intro event member
    rcases List.mem_append.mp member with member | member
    · exact written event member
    · obtain ⟨answer, rfl⟩ := receive_reads _ event member
      rfl

theorem exchange_offers (connection : Connection) (line : String) :
    ∃ answer, .write (frame line) answer ∈ (connection.exchange line).2.2.events := by
  obtain ⟨answer, later, first⟩ := Sending.offer_offers (frame_ne_nil line) connection.writes
  refine ⟨answer, ?_⟩
  cases stopped : (Sending.offer (frame line) connection.writes).fault with
  | some fault => rw [exchange_of_fault stopped, first]; simp
  | none => rw [exchange_of_sent stopped, first]; simp

theorem exchange_debugLog (connection : Connection) (line : String) : (connection.exchange line).2.2.debugLog = [] := by
  cases stopped : (Sending.offer (frame line) connection.writes).fault with
  | some fault => rw [exchange_of_fault stopped]; rfl
  | none =>
    rw [exchange_of_sent stopped]
    exact receive_debugLog (connection.sentTo line)

theorem accepted_receive (connection : Connection) : connection.receive.2.2.accepted = [] := by
  apply List.flatMap_eq_nil_iff.mpr
  intro event member
  obtain ⟨answer, rfl⟩ := receive_reads connection event member
  rfl

/-- How an exchange of lines may go. -/
inductive Exchange (connection : Connection) (line : String) : Except Fault String × Connection × Trace → Prop
  | unsent {fault : Fault} {after : Connection} {trace : Trace} (kind : fault.kind = .connection)
      (begins : trace.accepted <+: frame line) (short : trace.accepted ≠ frame line)
      (harm : ¬ ∀ write ∈ connection.writes, write.Harmless) : Exchange connection line (.error fault, after, trace)
  | unanswered {after : Connection} {trace : Trace} (sent : trace.accepted = frame line)
      (uncut : cut? connection.stream.bytes = none) :
      Exchange connection line (.error connection.stream.ending.fault, after, trace)
  | answered {bytes left : Bytes} {after : Connection} {trace : Trace} (sent : trace.accepted = frame line)
      (cut : cut? connection.stream.bytes = some (bytes, left)) (peer : after.peer = connection.peer)
      (stream : after.stream = ⟨left, connection.stream.ending⟩)
      (harmless : (∀ write ∈ connection.writes, write.Harmless) → ∀ write ∈ after.writes, write.Harmless) :
      Exchange connection line (decode bytes, after, trace)

theorem exchange_cases (connection : Connection) (line : String) : Exchange connection line (connection.exchange line) := by
  rcases Sending.offer_cases (frame line) connection.writes with ⟨fine, all⟩ | ⟨fault, stopped, kind, begins, short⟩
  · have sent : (({ events := (Sending.offer (frame line) connection.writes).events } : Trace) ++
        (connection.sentTo line).receive.2.2).accepted = frame line := by
      rw [Trace.accepted_append, accepted_receive, List.append_nil]
      exact all
    obtain ⟨peer, writes⟩ := receive_frame (connection.sentTo line)
    have same : (connection.sentTo line).stream = connection.stream := rfl
    rw [exchange_of_sent fine]
    cases cut : cut? connection.stream.bytes with
    | none =>
      have fault : (connection.sentTo line).receive.1 = .error (connection.sentTo line).stream.ending.fault :=
        receive_of_uncut cut
      rw [fault, same]
      exact .unanswered sent cut
    | some pair =>
      obtain ⟨received, rest⟩ : (connection.sentTo line).receive.1 = decode pair.1 ∧
          (connection.sentTo line).receive.2.1.stream = ⟨pair.2, (connection.sentTo line).stream.ending⟩ :=
        receive_of_cut cut
      rw [received]
      refine .answered sent cut peer rest fun harmless => ?_
      rw [writes]
      exact (Sending.offer_of_harmless harmless).2
  · rw [exchange_of_fault stopped]
    refine .unsent kind begins short fun harmless => ?_
    rw [(Sending.offer_of_harmless harmless).1] at stopped
    simp at stopped

end Connection

/-! ## Making a request -/

/-- What a line received for a command says, if it is a text. -/
def Command.read (command : Command) (bytes : Bytes) : Except Fault Answer :=
  match Bytes.text? bytes with
  | some line => command.interpret line
  | none => .error .notText

namespace Client

/-- How a request may go. -/
inductive Course (client : Client) (network : Network) (command : Command) : Outcome → Prop
  /-- There is no connection to the server. -/
  | unreached {fault : Fault} {rest : Network} {reached : Trace} (reach : client.reach network = (.error fault, rest, reached)) :
      Course client network command
        ⟨.error fault, client.disconnected, rest, .ofRecord (.sending command.summary) ++ reached⟩
  /-- The command was not sent to its end, and the connection is given up. -/
  | unsent {connection after : Connection} {rest : Network} {reached exchanged : Trace} {fault : Fault}
      (reach : client.reach network = (.ok connection, rest, reached))
      (exchange : connection.exchange command.line = (.error fault, after, exchanged)) (kind : fault.kind = .connection)
      (begins : exchanged.accepted <+: frame command.line) (short : exchanged.accepted ≠ frame command.line)
      (harm : ¬ ∀ write ∈ connection.writes, write.Harmless) :
      Course client network command
        ⟨.error fault, client.disconnected, rest, .ofRecord (.sending command.summary) ++ reached ++ exchanged ++
          ⟨[.close], [.dropping command.verb (command.key?.getD "") fault.report]⟩⟩
  /-- The stream ended before a line was complete, and the connection is given up. -/
  | unanswered {connection after : Connection} {rest : Network} {reached exchanged : Trace}
      (reach : client.reach network = (.ok connection, rest, reached))
      (exchange : connection.exchange command.line = (.error connection.stream.ending.fault, after, exchanged))
      (sent : exchanged.accepted = frame command.line) (uncut : cut? connection.stream.bytes = none) :
      Course client network command
        ⟨.error connection.stream.ending.fault, client.disconnected, rest,
          .ofRecord (.sending command.summary) ++ reached ++ exchanged ++
            ⟨[.close], [.dropping command.verb (command.key?.getD "") connection.stream.ending.fault.report]⟩⟩
  /-- The first line of the stream answers the command, and what is behind it is awaited next. -/
  | answered {connection after : Connection} {rest : Network} {reached exchanged : Trace} {bytes left : Bytes}
      (reach : client.reach network = (.ok connection, rest, reached))
      (exchange : connection.exchange command.line = (decode bytes, after, exchanged))
      (sent : exchanged.accepted = frame command.line) (cut : cut? connection.stream.bytes = some (bytes, left))
      (peer : after.peer = connection.peer) (stream : after.stream = ⟨left, connection.stream.ending⟩)
      (harmless : (∀ write ∈ connection.writes, write.Harmless) → ∀ write ∈ after.writes, write.Harmless) :
      Course client network command
        ⟨command.read bytes, { client with connection := some after }, rest,
          .ofRecord (.sending command.summary) ++ reached ++ exchanged ++
            ⟨[], (Bytes.text? bytes).toList.map .received⟩⟩

theorem fault_kind (ending : Ending) : ending.fault.kind = .connection := by cases ending <;> rfl

theorem request_course (client : Client) (network : Network) (command : Command) :
    Course client network command (client.request network command) := by
  unfold request
  rcases reach : client.reach network with ⟨fault | connection, rest, reached⟩
  · exact .unreached reach
  · have cases := connection.exchange_cases command.line
    rcases exchange : connection.exchange command.line with ⟨answer, after, exchanged⟩
    rw [exchange] at cases
    cases cases with
    | unsent kind begins short harm =>
      simp only [exchange, kind, if_true]
      exact .unsent reach exchange kind begins short harm
    | unanswered sent uncut =>
      simp only [exchange, fault_kind, if_true]
      exact .unanswered reach exchange sent uncut
    | @answered bytes left _ _ sent cut peer stream harmless =>
      have course := Course.answered reach exchange sent cut peer stream harmless
      simp only [exchange]
      unfold Command.read at course
      unfold decode
      cases spelled : Bytes.text? bytes with
      | some line =>
        simp only [spelled] at course ⊢
        exact course
      | none =>
        simp only [spelled] at course ⊢
        rw [if_neg (by decide), ← Trace.append_nil (_ ++ exchanged)]
        exact course

/-- How a request goes on a connection on which no write does harm, told by the stream alone. What
    is exchanged adds nothing but writes, which accept the frame of the command, and reads. -/
inductive Smooth (client : Client) (command : Command) (connection : Connection) (rest : Network) (reached : Trace) :
    Outcome → Prop
  | unanswered {exchanged : Trace} (transfers : ∀ event ∈ exchanged.events, event.isTransfer = true)
      (detail : exchanged.debugLog = []) (sent : exchanged.accepted = frame command.line)
      (uncut : cut? connection.stream.bytes = none) :
      Smooth client command connection rest reached
        ⟨.error connection.stream.ending.fault, client.disconnected, rest,
          .ofRecord (.sending command.summary) ++ reached ++ exchanged ++
            ⟨[.close], [.dropping command.verb (command.key?.getD "") connection.stream.ending.fault.report]⟩⟩
  | answered {exchanged : Trace} {after : Connection} {bytes left : Bytes}
      (transfers : ∀ event ∈ exchanged.events, event.isTransfer = true)
      (detail : exchanged.debugLog = []) (sent : exchanged.accepted = frame command.line)
      (cut : cut? connection.stream.bytes = some (bytes, left)) (peer : after.peer = connection.peer)
      (stream : after.stream = ⟨left, connection.stream.ending⟩) (harmless : ∀ write ∈ after.writes, write.Harmless) :
      Smooth client command connection rest reached
        ⟨command.read bytes, { client with connection := some after }, rest,
          .ofRecord (.sending command.summary) ++ reached ++ exchanged ++ ⟨[], (Bytes.text? bytes).toList.map .received⟩⟩

theorem request_smooth {client : Client} {network rest : Network} {connection : Connection} {reached : Trace}
    (reach : client.reach network = (.ok connection, rest, reached)) (harmless : ∀ write ∈ connection.writes, write.Harmless)
    (command : Command) : Smooth client command connection rest reached (client.request network command) := by
  have transfers := connection.exchange_transfers command.line
  have detail := connection.exchange_debugLog command.line
  have course := client.request_course network command
  generalize client.request network command = outcome at course ⊢
  cases course with
  | unreached failed =>
    rw [reach] at failed
    simp at failed
  | unsent again exchange kind begins short harm =>
    obtain ⟨rfl, rfl, rfl⟩ : _ ∧ _ ∧ _ := by simpa [reach] using again
    exact absurd harmless harm
  | unanswered again exchange sent uncut =>
    obtain ⟨rfl, rfl, rfl⟩ : _ ∧ _ ∧ _ := by simpa [reach] using again
    rw [exchange] at transfers detail
    exact .unanswered transfers detail sent uncut
  | answered again exchange sent cut peer stream kept =>
    obtain ⟨rfl, rfl, rfl⟩ : _ ∧ _ ∧ _ := by simpa [reach] using again
    rw [exchange] at transfers detail
    exact .answered transfers detail sent cut peer stream (kept harmless)

end Client
end LineStore
