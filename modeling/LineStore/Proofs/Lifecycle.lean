import LineStore.Proofs.Phases
import LineStore.Proofs.Turns

/-!
The sockets of a client over a whole session. Every call keeps to the phases of a socket and leaves
the client in the phase that its connection tells (`Client.perform_run`). Main statement: the events
of a session lead from no socket to no socket, and after each call the client tells what has come of
the last socket (`Session.lifecycle`).
-/
namespace LineStore

/-! ## Every call keeps to the phases -/

namespace Connection
open Phase

/-- The phase that the attempts to connect lead to. -/
def afterDial : Except (Option IoError) Address → Phase
  | .ok peer => .dialled peer
  | .error _ => .closed

/-- The phase that the options of a new socket lead to, if one of them may be refused. -/
def afterOptions : Option Fault → Address → Phase
  | none, peer => .ready peer
  | some _, peer => .refused peer

theorem dial_run (timeout : Option Duration) (peers : List Address) (outcomes : List (Option IoError)) :
    Run (trying peers) (dial timeout peers outcomes).2.events (afterDial (dial timeout peers outcomes).1) := by
  induction peers generalizing outcomes with
  | nil => exact .nil
  | cons peer others ih =>
    rw [dial]
    split
    · exact .cons .connected .nil
    · have later := ih outcomes.tail
      split <;> rename_i same <;> rw [same] at later <;> exact .cons .failed later

theorem configure_run (timeout : Option Duration) (link : Link) (peer : Address) :
    Run (.dialled peer) (configure timeout link).2 (afterOptions (configure timeout link).1 peer) := by
  unfold configure
  cases link.readTimeout with
  | some cause => exact .cons .readTimeoutRefused .nil
  | none =>
    cases link.writeTimeout with
    | some cause => exact .cons .readTimeout (.cons .writeTimeoutRefused .nil)
    | none =>
      cases link.noDelay with
      | some cause => exact .cons .readTimeout (.cons .writeTimeout (.cons .noDelayRefused .nil))
      | none => exact .cons .readTimeout (.cons .writeTimeout (.cons .noDelay .nil))

/-- Opening a connection leads to a socket that is ready, or to none. -/
theorem establish_run (config : Config) (link : Link) :
    Run .closed (establish config link).2.events (ofPeer? ((establish config link).1.toOption.map (·.peer))) := by
  have way := establish_opening config link
  generalize establish config link = result at way ⊢
  have asked : ∀ {ips : List String}, link.addresses = .ok ips →
      Run .closed (asking config link).events (trying (peers config ips)) := by
    intro ips resolved
    rw [asking, resolved]
    exact .cons .resolved .nil
  have dialled : ∀ {ips : List String} {answer : Except (Option IoError) Address} {tried : Trace},
      dial config.socketTimeout (peers config ips) link.connects = (answer, tried) →
        Run (trying (peers config ips)) tried.events (afterDial answer) := by
    intro ips answer tried same
    have run := dial_run config.socketTimeout (peers config ips) link.connects
    rwa [same] at run
  have configured : ∀ {refused : Option Fault} {set : List Event} (peer : Address),
      configure config.socketTimeout link = (refused, set) → Run (.dialled peer) set (afterOptions refused peer) := by
    intro refused set peer same
    have run := configure_run config.socketTimeout link peer
    rwa [same] at run
  cases way with
  | unresolved resolved =>
    rw [asking, resolved]
    exact .cons .unresolved .nil
  | homeless resolved tries => exact (asked resolved).append (dialled tries)
  | unreachable resolved tries => exact (asked resolved).append (dialled tries)
  | @refused ips tried peer fault set resolved tries options =>
    exact ((asked resolved).append (dialled tries)).append ((configured peer options).append (.cons .givenUp .nil))
  | @opened ips tried peer set resolved tries options =>
    exact ((asked resolved).append (dialled tries)).append (configured peer options)

end Connection

namespace Client
open Phase

/-- The phase that a client is in between its calls. -/
def phase (client : Client) : Phase := ofPeer? client.peer?

theorem phase_of_connected {client : Client} {connection : Connection} (connected : client.connection = some connection) :
    client.phase = .ready connection.peer := by
  rw [phase, peer?, connected]
  rfl

theorem phase_of_disconnected {client : Client} (disconnected : client.connection = none) : client.phase = .closed := by
  rw [phase, peer?, disconnected]
  rfl

theorem reach_run (client : Client) (network : Network) :
    Run client.phase (client.reach network).2.2.events
      (ofPeer? ((client.reach network).1.toOption.map (·.peer))) := by
  cases connected : client.connection with
  | some connection =>
    rw [reach_of_connected connected, phase_of_connected connected]
    exact .nil
  | none =>
    rw [reach_of_disconnected connected, phase_of_disconnected connected]
    exact Connection.establish_run client.config network.link

theorem connect_run (client : Client) (network : Network) :
    Run client.phase (client.connect network).trace.events (client.connect network).client.phase := by
  have run := client.reach_run network
  unfold connect
  rcases reach : client.reach network with ⟨fault | connection, rest, reached⟩ <;> rw [reach] at run <;> exact run

theorem close_run (client : Client) (network : Network) :
    Run client.phase (client.close network).trace.events (client.close network).client.phase := by
  unfold close
  cases connected : client.connection with
  | none => exact .nil
  | some connection =>
    rw [phase_of_connected connected]
    exact .cons .close .nil

theorem request_run (client : Client) (network : Network) (command : Command) :
    Run client.phase (client.request network command).trace.events (client.request network command).client.phase := by
  have run := client.reach_run network
  have moves : ∀ {connection after : Connection} {answer : Except Fault String} {exchanged : Trace},
      connection.exchange command.line = (answer, after, exchanged) →
        Run (.ready connection.peer) exchanged.events (.ready connection.peer) := by
    intro connection after answer exchanged exchange
    refine run_of_transfers (fun event member => connection.exchange_transfers command.line event ?_) _
    rw [exchange]
    exact member
  have course := client.request_course network command
  generalize client.request network command = outcome at course ⊢
  cases course with
  | unreached reach =>
    rw [reach] at run
    exact run
  | unsent reach exchange =>
    rw [reach] at run
    exact (run.append (moves exchange)).append (.cons .close .nil)
  | unanswered reach exchange =>
    rw [reach] at run
    exact (run.append (moves exchange)).append (.cons .close .nil)
  | answered reach exchange sent cut peer =>
    rw [reach] at run
    have same : ∀ {kept : Connection}, phase { client with connection := some kept } = .ready kept.peer := rfl
    rw [same, peer]
    exact (run.append (moves exchange)).append .nil

/-- A call leads from the phase that the client is in to the one that it leaves the client in. -/
theorem perform_run (client : Client) (network : Network) (call : Call) :
    Run client.phase (client.perform network call).trace.events (client.perform network call).client.phase := by
  cases call with
  | connect => exact client.connect_run network
  | close => exact client.close_run network
  | submit command =>
    show Run client.phase (client.submit network command).trace.events (client.submit network command).client.phase
    unfold submit
    split
    · exact client.request_run network command
    · exact .nil

theorem release_run (client : Client) : Run client.phase client.release .closed := by
  unfold release isConnected
  cases connected : client.connection with
  | none =>
    rw [phase_of_disconnected connected]
    exact .nil
  | some connection =>
    rw [phase_of_connected connected]
    exact .cons .close .nil

end Client

/-! ## Whole sessions -/

namespace Session

/-- The events of the calls of a session. -/
def past (session : Session) : List Event := (session.steps.map (·.trace.events)).flatten

theorem past_cons (client : Client) (network : Network) (call : Call) (calls : List Call) :
    (run client network (call :: calls)).past = (client.perform network call).trace.events ++
      (run (client.perform network call).client (client.perform network call).network calls).past := rfl

theorem past_append (client : Client) (network : Network) (earlier later : List Call) :
    (run client network (earlier ++ later)).past = (run client network earlier).past ++
      (run (run client network earlier).client (run client network earlier).network later).past := by
  rw [run_append]
  simp [past]

theorem run_past (client : Client) (network : Network) (calls : List Call) :
    Phase.Run client.phase (run client network calls).past (run client network calls).client.phase := by
  induction calls generalizing client network with
  | nil => exact .nil
  | cons call calls ih => exact (client.perform_run network call).append (ih _ _)

theorem run_events (client : Client) (network : Network) (calls : List Call) :
    Phase.Run client.phase (run client network calls).events .closed :=
  (run_past client network calls).append (Client.release_run _)

end Session

theorem Client.disconnected_of_ofConfig {config : Config} {client : Client} (made : Client.ofConfig config = .ok client) :
    client.config = config ∧ client.connection = none := by
  unfold ofConfig at made
  split at made
  · obtain rfl := Except.ok.inj made
    exact ⟨rfl, rfl⟩
  · simp at made

/-- What a client tells of its connection, when such events have happened to it. -/
structure Client.Tells (client : Client) (events : List Event) : Prop where
  /-- The events lead to one phase, and the client is connected just if that phase is `Phase.ready`. -/
  connected : ∃ phase, (∀ other, Phase.Run .closed events other ↔ other = phase) ∧
    (client.isConnected = true ↔ ∃ peer, phase = .ready peer)
  peer : client.peer? = if client.isConnected then (opened events).getLast? else none

theorem Client.tells_of_run {client : Client} {events : List Event} (run : Phase.Run .closed events client.phase) :
    client.Tells events := by
  have reached := run.reached_of_closed
  have unique : ∀ other, Phase.Run .closed events other ↔ other = client.phase :=
    fun other => ⟨run.unique, fun same => same ▸ run⟩
  cases connected : client.connection with
  | none =>
    have phase := phase_of_disconnected connected
    exact ⟨⟨client.phase, unique, by simp [isConnected, connected, phase]⟩, by simp [peer?, isConnected, connected]⟩
  | some connection =>
    have phase := phase_of_connected connected
    rw [phase] at reached
    refine ⟨⟨client.phase, unique, by simp [isConnected, connected, phase]⟩, ?_⟩
    rw [reached.getLast?_opened]
    simp [peer?, isConnected, connected]

/-- The events of a session of a new client, with those of its ending, lead through the phases of
    one socket after another; and after each call the client tells what has come of the last of them. -/
theorem Session.lifecycle {config : Config} {client : Client} (made : Client.ofConfig config = .ok client)
    (network : Network) (calls : List Call) :
    Orderly (run client network calls).events ∧
      ∀ earlier, earlier <+: calls → (run client network earlier).past <+: (run client network calls).events ∧
        (run client network earlier).client.Tells (run client network earlier).past := by
  have fresh := Client.phase_of_disconnected (Client.disconnected_of_ofConfig made).2
  have whole := run_events client network calls
  rw [fresh] at whole
  refine ⟨whole.orderly, ?_⟩
  rintro earlier ⟨later, rfl⟩
  have part := run_past client network earlier
  rw [fresh] at part
  refine ⟨?_, Client.tells_of_run part⟩
  rw [events, ← past, past_append, List.append_assoc]
  exact List.prefix_append _ _

/-- A link on which the second address answers once and then hangs up. -/
def Link.hangingUp : Link :=
  { addresses := .ok ["10.0.0.1", "10.0.0.2"], connects := [some .nobodyListens],
    reads := [.delivers (Bytes.ofText "PONG\r\n"), .delivers []] }

/-- A link whose socket cannot be given its last option. -/
def Link.unyielding : Link := { noDelay := some ⟨.invalidInput, "Invalid argument (os error 22)"⟩ }

/-- One socket is lost with a request, the next is never used. -/
theorem Session.lifecycle_of_two :
    let session := run ⟨{}, by decide, none⟩ [.hangingUp, .unyielding] [.submit .ping, .submit (.get "k"), .connect]
    let first := run ⟨{}, by decide, none⟩ [.hangingUp, .unyielding] [.submit .ping]
    opened session.events = [⟨"10.0.0.2", 7379⟩, ⟨"127.0.0.1", 7379⟩] ∧ Orderly session.events ∧
      first.client.isConnected = true ∧ first.client.Tells first.past := by
  intro session first
  have made : Client.ofConfig {} = .ok ⟨{}, by decide, none⟩ := dif_pos (by decide)
  obtain ⟨orderly, each⟩ := lifecycle made [.hangingUp, .unyielding] [.submit .ping, .submit (.get "k"), .connect]
  obtain ⟨-, tells⟩ := each [.submit .ping] ⟨_, rfl⟩
  exact ⟨by decide +kernel, orderly, by decide +kernel, tells⟩

end LineStore
