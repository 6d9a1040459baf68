import LineStore.Proofs.Requests

/-!
A session as turns, each a call with what came of it. Every attempt to reach the server asks for
its addresses first, so the turns fall into spells, one for each attempt, and so for each socket
(`spells`). What happens during a spell is what may happen to one connection (`Life`): requests
are answered line by line until one of them loses the connection or it is closed, and nothing
moves after that. Main statement: every spell of a session is such a life of the link it was
given (`life_of_spell`).
-/
namespace LineStore
open Framing

/-- Cuts a list before each member that opens a spell. What stands before the first of them is in
    no spell. -/
def spells {α : Type} (opens : α → Bool) : List α → List (List α)
  | [] => []
  | a :: rest => if opens a then (a :: rest.takeWhile (!opens ·)) :: spells opens rest else spells opens rest

/-- A call and what came of it. -/
structure Turn where
  call : Call
  step : Step

namespace Turn

/-- An attempt to reach the server is made. -/
def opens (turn : Turn) : Bool := turn.step.trace.events.any Event.isResolve

def wrote (turn : Turn) : Bool := turn.step.trace.events.any fun
  | .write .. => true
  | _ => false

def accepted (turn : Turn) : Bytes := turn.step.trace.accepted

/-- No bytes are moved, and none are tried to. -/
def Silent (turn : Turn) : Prop := ∀ event ∈ turn.step.trace.events, event.isTransfer = false

/-- The connection is closed, and the client is left without one. -/
def Drops (turn : Turn) : Prop := .close ∈ turn.step.trace.events ∧ turn.step.peer = none

/-- The connection is left open. -/
def Keeps (turn : Turn) : Prop := .close ∉ turn.step.trace.events ∧ turn.step.peer ≠ none

theorem accepted_of_silent {turn : Turn} (silent : turn.Silent) : turn.accepted = [] := Trace.accepted_eq_nil silent

end Turn

def Client.Outcome.step (outcome : Client.Outcome) : Step := ⟨outcome.result, outcome.client.peer?, outcome.trace⟩

namespace Session

def turns (client : Client) (network : Network) (calls : List Call) : List Turn :=
  calls.zipWith Turn.mk (run client network calls).steps

@[simp] theorem turns_nil (client : Client) (network : Network) : turns client network [] = [] := rfl

@[simp] theorem turns_cons (client : Client) (network : Network) (call : Call) (calls : List Call) :
    turns client network (call :: calls) =
      ⟨call, (client.perform network call).step⟩ ::
        turns (client.perform network call).client (client.perform network call).network calls := rfl

end Session

/-! ## What a turn asks of the network -/

namespace Client

theorem reach_of_connected {client : Client} {connection : Connection} (connected : client.connection = some connection)
    (network : Network) : client.reach network = (.ok connection, network, {}) := by
  unfold reach
  rw [connected]

theorem reach_of_disconnected {client : Client} (disconnected : client.connection = none) (network : Network) :
    client.reach network =
      ((Connection.establish client.config network.link).1, network.rest,
        (Connection.establish client.config network.link).2) := by
  unfold reach
  rw [disconnected]

/-- Whether a call that is made in earnest asks for the addresses of the host. -/
inductive Asks (client : Client) (network : Network) (rest : Network) (events : List Event) : Prop
  | nothing (connected : client.connection ≠ none) (same : rest = network)
      (unasked : ∀ event ∈ events, event.isResolve = false)
  | addresses {answer : Except IoError (List String)} {later : List Event} (disconnected : client.connection = none)
      (taken : rest = network.rest) (first : events = .resolve client.config.host client.config.port answer :: later)
      (once : ∀ event ∈ later, event.isResolve = false)

theorem Asks.append {client : Client} {network rest : Network} {events : List Event} (asks : Asks client network rest events)
    {more : List Event} (unasked : ∀ event ∈ more, event.isResolve = false) : Asks client network rest (events ++ more) := by
  cases asks with
  | nothing connected same before =>
    refine .nothing connected same fun event member => ?_
    rcases List.mem_append.mp member with member | member
    · exact before event member
    · exact unasked event member
  | addresses disconnected taken first once =>
    refine .addresses disconnected taken (by rw [first]; rfl) fun event member => ?_
    rcases List.mem_append.mp member with member | member
    · exact once event member
    · exact unasked event member

/-- The addresses are asked for exactly where there is no connection. -/
theorem Asks.opens {client : Client} {network rest : Network} {events : List Event} (asks : Asks client network rest events) :
    events.any Event.isResolve = !client.isConnected := by
  unfold isConnected
  cases asks with
  | nothing connected same unasked =>
    have silent : events.any Event.isResolve = false := List.any_eq_false.mpr fun event member => by simp [unasked event member]
    rw [silent, Option.isSome_iff_ne_none.mpr connected]
    rfl
  | addresses disconnected taken first once =>
    rw [first, disconnected]
    rfl

theorem reach_asks (client : Client) (network : Network) :
    Asks client network (client.reach network).2.1 (client.reach network).2.2.events := by
  cases connected : client.connection with
  | some connection =>
    rw [reach_of_connected connected]
    exact .nothing (by simp [connected]) rfl (by simp)
  | none =>
    obtain ⟨later, first, rest⟩ := Connection.establish_events client.config network.link
    rw [reach_of_disconnected connected]
    exact .addresses connected rfl first fun event member => (rest event member).1

theorem reach_still (client : Client) (network : Network) :
    ∀ event ∈ (client.reach network).2.2.events, event.isTransfer = false := by
  cases connected : client.connection with
  | some connection => rw [reach_of_connected connected]; simp
  | none =>
    obtain ⟨later, first, rest⟩ := Connection.establish_events client.config network.link
    rw [reach_of_disconnected connected, first]
    intro event member
    rcases List.mem_cons.mp member with rfl | member
    · rfl
    · exact (rest event member).2

/-- Whatever keeps a client from its server is a connection fault. -/
theorem reach_error {client : Client} {network : Network} {fault : Fault} (failed : (client.reach network).1 = .error fault) :
    fault.kind = .connection := by
  cases connected : client.connection with
  | some connection =>
    rw [reach_of_connected connected] at failed
    simp at failed
  | none =>
    rw [reach_of_disconnected connected] at failed
    exact Connection.establish_error failed

theorem connect_still (client : Client) (network : Network) :
    ∀ event ∈ (client.connect network).trace.events, event.isTransfer = false := by
  have still := client.reach_still network
  unfold connect
  rcases reach : client.reach network with ⟨fault | connection, rest, reached⟩ <;> rw [reach] at still <;> exact still

theorem close_still (client : Client) (network : Network) :
    ∀ event ∈ (client.close network).trace.events, event.isTransfer = false := by
  unfold close
  cases client.connection <;> simp [Event.isTransfer]

theorem close_notMem_reach {client : Client} {network : Network} {connection : Connection}
    (success : (client.reach network).1 = .ok connection) : .close ∉ (client.reach network).2.2.events := by
  cases connected : client.connection with
  | some connection => rw [reach_of_connected connected]; simp
  | none =>
    rw [reach_of_disconnected connected] at success ⊢
    exact Connection.close_notMem_establish success

theorem connect_asks (client : Client) (network : Network) :
    Asks client network (client.connect network).network (client.connect network).trace.events := by
  have asks := client.reach_asks network
  unfold connect
  rcases reach : client.reach network with ⟨fault | connection, rest, reached⟩ <;> rw [reach] at asks <;> exact asks

theorem request_asks (client : Client) (network : Network) (command : Command) :
    Asks client network (client.request network command).network (client.request network command).trace.events := by
  have asks := client.reach_asks network
  have moves : ∀ {connection after : Connection} {answer : Except Fault String} {exchanged : Trace},
      connection.exchange command.line = (answer, after, exchanged) → ∀ event ∈ exchanged.events, event.isResolve = false := by
    intro connection after answer exchanged exchange event member
    exact Event.not_resolve_of_transfer (connection.exchange_transfers command.line event (by rw [exchange]; exact member))
  have course := client.request_course network command
  generalize client.request network command = outcome at course ⊢
  cases course with
  | unreached reach => rw [reach] at asks; exact asks
  | unsent reach exchange =>
    rw [reach] at asks
    exact (asks.append (moves exchange)).append (by simp [Event.isResolve])
  | unanswered reach exchange =>
    rw [reach] at asks
    exact (asks.append (moves exchange)).append (by simp [Event.isResolve])
  | answered reach exchange =>
    rw [reach] at asks
    exact (asks.append (moves exchange)).append (by simp)

/-- A call changes nothing at all, or asks for the addresses of the host exactly when there is no
    connection. -/
theorem perform_cases (client : Client) (network : Network) (call : Call) :
    (∃ result, client.perform network call = ⟨result, client, network, {}⟩) ∨
      Asks client network (client.perform network call).network (client.perform network call).trace.events := by
  cases call with
  | connect => exact .inr (client.connect_asks network)
  | close =>
    unfold perform close
    dsimp only
    cases connected : client.connection with
    | none => exact .inl ⟨.ok .done, rfl⟩
    | some connection => exact .inr (.nothing (by simp [connected]) rfl (by simp [Event.isResolve]))
  | submit command =>
    by_cases keyed : command.WellKeyed
    · have same : client.perform network (.submit command) = client.request network command := if_pos keyed
      rw [same]
      exact .inr (client.request_asks network command)
    · exact .inl ⟨.error .emptyKey, if_neg keyed⟩

/-- A turn that opens a spell is made without a connection and takes the next link. -/
theorem perform_of_opens {client : Client} {network : Network} {call : Call}
    (opens : Turn.opens ⟨call, (client.perform network call).step⟩) :
    client.connection = none ∧ (client.perform network call).network = network.rest := by
  obtain ⟨event, member, resolve⟩ := List.any_eq_true.mp opens
  rcases client.perform_cases network call with ⟨result, idle⟩ | asks
  · rw [idle] at member
    simp [Outcome.step] at member
  · cases asks with
    | nothing connected same unasked => exact absurd resolve (by simp [unasked event member])
    | addresses disconnected taken first once => exact ⟨disconnected, taken⟩

theorem perform_of_not_opens {client : Client} {network : Network} {call : Call}
    (goesOn : Turn.opens ⟨call, (client.perform network call).step⟩ = false) :
    (client.perform network call).network = network ∧
      (client.connection = none → ∃ result, client.perform network call = ⟨result, client, network, {}⟩) := by
  rcases client.perform_cases network call with ⟨result, idle⟩ | asks
  · exact ⟨by rw [idle], fun _ => ⟨result, idle⟩⟩
  · have asked := asks.opens
    cases asks with
    | nothing connected same unasked => exact ⟨same, fun disconnected => absurd disconnected connected⟩
    | addresses disconnected taken first once =>
      rw [isConnected, disconnected] at asked
      exact absurd (asked.symm.trans goesOn) (by decide)

end Client

/-! ## The life of a connection -/

/-- What may happen in the turns that one connection gets, when the server delivers a stream. -/
inductive Life : Delivery → List Turn → Prop
  /-- Nothing moves any more. -/
  | quiet {stream : Delivery} {turns : List Turn} (silent : ∀ turn ∈ turns, turn.Silent) : Life stream turns
  /-- Nothing moves in this turn. -/
  | idle {stream : Delivery} {turn : Turn} {turns : List Turn} (silent : turn.Silent) (later : Life stream turns) :
      Life stream (turn :: turns)
  /-- A command is not sent to its end. -/
  | unsent {stream : Delivery} {command : Command} {step : Step} {turns : List Turn} {fault : Fault} {part : Bytes}
      (result : step.result = .error fault) (kind : fault.kind = .connection) (wrote : Turn.wrote ⟨.submit command, step⟩)
      (sent : step.trace.accepted = part) (begins : part <+: frame command.line) (short : part ≠ frame command.line)
      (drops : Turn.Drops ⟨.submit command, step⟩) (silent : ∀ turn ∈ turns, turn.Silent) :
      Life stream (⟨.submit command, step⟩ :: turns)
  /-- A command is sent, and the stream holds no line to answer it. -/
  | unanswered {stream : Delivery} {command : Command} {step : Step} {turns : List Turn}
      (result : step.result = .error stream.ending.fault) (sent : step.trace.accepted = frame command.line)
      (uncut : cut? stream.bytes = none) (drops : Turn.Drops ⟨.submit command, step⟩)
      (silent : ∀ turn ∈ turns, turn.Silent) : Life stream (⟨.submit command, step⟩ :: turns)
  /-- A command is sent, and the first line of the stream answers it. -/
  | answered {stream : Delivery} {command : Command} {step : Step} {turns : List Turn} {bytes left : Bytes}
      (result : step.result = command.read bytes) (sent : step.trace.accepted = frame command.line)
      (cut : cut? stream.bytes = some (bytes, left)) (keeps : Turn.Keeps ⟨.submit command, step⟩)
      (later : Life ⟨left, stream.ending⟩ turns) : Life stream (⟨.submit command, step⟩ :: turns)

namespace Client

/-- A request has its bytes accepted during the exchange alone. -/
theorem accepted_request {client : Client} {network rest : Network} {answer : Except Fault Connection}
    {reached : Trace} (reach : client.reach network = (answer, rest, reached)) (command : Command) (exchanged : Trace)
    {last : Trace} (quiet : last.accepted = []) :
    (.ofRecord (.sending command.summary) ++ reached ++ exchanged ++ last : Trace).accepted = exchanged.accepted := by
  have still : reached.accepted = [] := by
    have events := client.reach_still network
    rw [reach] at events
    exact Trace.accepted_eq_nil events
  have silent : (Trace.ofRecord (.sending command.summary)).accepted = [] := rfl
  rw [Trace.accepted_append, Trace.accepted_append, Trace.accepted_append, silent, still, quiet]
  simp

theorem wrote_request {connection after : Connection} {command : Command} {answer : Except Fault String}
    {exchanged : Trace} (exchange : connection.exchange command.line = (answer, after, exchanged))
    (before last : Trace) {step : Step} (trace : step.trace = before ++ exchanged ++ last) (call : Call) :
    Turn.wrote ⟨call, step⟩ := by
  obtain ⟨outcome, member⟩ := connection.exchange_offers command.line
  rw [exchange] at member
  refine List.any_eq_true.mpr ⟨.write (frame command.line) outcome, ?_, rfl⟩
  rw [trace]
  simp [member]

theorem close_notMem_exchange {connection after : Connection} {command : Command} {answer : Except Fault String}
    {exchanged : Trace} (exchange : connection.exchange command.line = (answer, after, exchanged)) :
    .close ∉ exchanged.events := by
  intro member
  have transfer := connection.exchange_transfers command.line .close (by rw [exchange]; exact member)
  exact absurd transfer (by decide)

/-- What a request does to the life of the connection it is made on. -/
theorem life_request {client : Client} {network : Network} {stream : Delivery} (command : Command) {later : List Turn}
    (reaches : ∀ connection, (client.reach network).1 = .ok connection → connection.stream = stream)
    (alive : ∀ connection, (client.request network command).client.connection = some connection →
      Life connection.stream later)
    (dead : (client.request network command).client.connection = none → ∀ turn ∈ later, turn.Silent) :
    Life stream (⟨.submit command, (client.request network command).step⟩ :: later) := by
  have still := client.reach_still network
  have unclosed : ∀ connection, (client.reach network).1 = .ok connection → .close ∉ (client.reach network).2.2.events :=
    fun _ => close_notMem_reach
  have course := client.request_course network command
  generalize client.request network command = outcome at course alive dead ⊢
  cases course with
  | unreached reach =>
    rw [reach] at still
    exact .quiet (List.forall_mem_cons.mpr ⟨still, dead rfl⟩)
  | unsent reach exchange kind begins short harm =>
    exact .unsent rfl kind (wrote_request exchange _ _ rfl _) (accepted_request reach command _ rfl) begins short
      ⟨by simp [Outcome.step], rfl⟩ (dead rfl)
  | unanswered reach exchange sent uncut =>
    obtain rfl := reaches _ (by rw [reach])
    exact .unanswered rfl ((accepted_request reach command _ rfl).trans sent) uncut ⟨by simp [Outcome.step], rfl⟩ (dead rfl)
  | answered reach exchange sent cut peer stream =>
    obtain rfl := reaches _ (by rw [reach])
    refine .answered rfl ((accepted_request reach command _ rfl).trans sent) cut ⟨?_, by simp [Outcome.step, peer?]⟩
      (stream ▸ alive _ rfl)
    have reached := unclosed _ (by rw [reach])
    rw [reach] at reached
    simp [Outcome.step, Trace.ofRecord, reached, close_notMem_exchange exchange]

/-- Where nothing moves in a turn, life goes on as it does after it. -/
theorem life_silent {turn : Turn} {stream : Delivery} {kept : Option Connection} {later : List Turn} (silent : turn.Silent)
    (same : ∀ connection, kept = some connection → connection.stream = stream)
    (alive : ∀ connection, kept = some connection → Life connection.stream later)
    (dead : kept = none → ∀ turn ∈ later, turn.Silent) : Life stream (turn :: later) := by
  cases kept with
  | none => exact .quiet (List.forall_mem_cons.mpr ⟨silent, dead rfl⟩)
  | some connection => exact .idle silent (same connection rfl ▸ alive connection rfl)

theorem reach_of_connect {client : Client} {network : Network} {connection : Connection}
    (connected : (client.connect network).client.connection = some connection) :
    (client.reach network).1 = .ok connection := by
  unfold connect at connected
  rcases reach : client.reach network with ⟨fault | found, rest, reached⟩ <;> rw [reach] at connected
  · simp [disconnected] at connected
  · rw [Option.some.inj connected]

theorem disconnected_of_close (client : Client) (network : Network) : (client.close network).client.connection = none := by
  unfold close
  cases connected : client.connection with
  | none => exact connected
  | some connection => rfl

theorem life_cons {client : Client} {network : Network} {stream : Delivery} (call : Call) {later : List Turn}
    (reaches : ∀ connection, (client.reach network).1 = .ok connection → connection.stream = stream)
    (alive : ∀ connection, (client.perform network call).client.connection = some connection → Life connection.stream later)
    (dead : (client.perform network call).client.connection = none → ∀ turn ∈ later, turn.Silent) :
    Life stream (⟨call, (client.perform network call).step⟩ :: later) := by
  cases call with
  | connect =>
    have silent : Turn.Silent ⟨.connect, (client.perform network .connect).step⟩ := client.connect_still network
    exact life_silent silent (fun connection connected => reaches connection (reach_of_connect connected)) alive dead
  | close =>
    have silent : Turn.Silent ⟨.close, (client.perform network .close).step⟩ := client.close_still network
    have closed : (client.perform network .close).client.connection = none := client.disconnected_of_close network
    exact .quiet (List.forall_mem_cons.mpr ⟨silent, dead closed⟩)
  | submit command =>
    by_cases keyed : command.WellKeyed
    · have same : client.perform network (.submit command) = client.request network command := if_pos keyed
      rw [same] at alive dead ⊢
      exact life_request command reaches alive dead
    · have same : client.perform network (.submit command) = ⟨.error .emptyKey, client, network, {}⟩ := if_neg keyed
      rw [same] at alive dead ⊢
      refine life_silent (by simp [Turn.Silent, Outcome.step]) (fun connection connected => ?_) alive dead
      exact reaches connection (by rw [reach_of_connected connected])

end Client

/-! ## The spells of a session -/

/-- The link that an attempt to reach the server is given. -/
def Network.nth (network : Network) (k : Nat) : Link := network[k]?.getD .dead

theorem Network.nth_zero (network : Network) : network.nth 0 = network.link := by
  cases network <;> rfl

theorem Network.nth_succ (network : Network) (k : Nat) : network.nth (k + 1) = network.rest.nth k := by
  cases network <;> simp [nth, rest]

namespace Session

/-- Without a connection nothing moves until there is one. -/
theorem silent_of_disconnected {client : Client} (disconnected : client.connection = none) (network : Network)
    (calls : List Call) : ∀ turn ∈ (turns client network calls).takeWhile (!·.opens), turn.Silent := by
  induction calls with
  | nil => simp
  | cons call calls ih =>
    rw [turns_cons, List.takeWhile_cons]
    cases opens : Turn.opens ⟨call, (client.perform network call).step⟩ with
    | true => simp
    | false =>
      obtain ⟨result, idle⟩ := (Client.perform_of_not_opens opens).2 disconnected
      rw [idle]
      exact List.forall_mem_cons.mpr ⟨by simp [Turn.Silent, Client.Outcome.step], ih⟩

/-- The turns up to the next attempt to reach the server are the life of the connection there is. -/
theorem life_of_connected {client : Client} {connection : Connection} (connected : client.connection = some connection)
    (network : Network) (calls : List Call) :
    Life connection.stream ((turns client network calls).takeWhile (!·.opens)) := by
  induction calls generalizing client network connection with
  | nil => exact .quiet (by simp)
  | cons call calls ih =>
    rw [turns_cons, List.takeWhile_cons]
    cases opens : Turn.opens ⟨call, (client.perform network call).step⟩ with
    | true => exact absurd (Client.perform_of_opens opens).1 (by simp [connected])
    | false =>
      -- The call goes on with the connection there is, so the stream is that of this connection.
      refine Client.life_cons call ?_ (fun after alive => ih alive _) fun dead => silent_of_disconnected dead _ _
      intro reached success
      rw [Client.reach_of_connected connected] at success
      rw [Except.ok.inj success]

/-- The turns of the `k`-th attempt to reach the server: the one that makes it and those up to the
    next attempt. -/
def spell (client : Client) (network : Network) (calls : List Call) (k : Nat) : List Turn :=
  (spells Turn.opens (turns client network calls))[k]?.getD []

theorem life_of_getElem {client : Client} {network : Network} {calls : List Call} {k : Nat} {spell : List Turn}
    (found : (spells Turn.opens (turns client network calls))[k]? = some spell) :
    Life (Delivery.ofReads (network.nth k).reads) spell := by
  induction calls generalizing client network k with
  | nil => simp [spells] at found
  | cons call calls ih =>
    rw [turns_cons, spells] at found
    cases opens : Turn.opens ⟨call, (client.perform network call).step⟩ with
    | false =>
      rw [opens, if_neg (by simp)] at found
      have later := ih found
      rwa [(Client.perform_of_not_opens opens).1] at later
    | true =>
      rw [opens, if_pos rfl] at found
      obtain ⟨disconnected, taken⟩ := Client.perform_of_opens opens
      cases k with
      | succ k =>
        rw [Network.nth_succ, ← taken]
        exact ih found
      | zero =>
        obtain rfl := Option.some.inj found
        refine Client.life_cons call ?_ (fun after alive => life_of_connected alive _ _) fun dead =>
          silent_of_disconnected dead _ _
        intro connection success
        rw [Client.reach_of_disconnected disconnected] at success
        obtain ⟨-, reads, pending⟩ := Connection.establish_ok success
        rw [Connection.stream, reads, pending, Network.nth_zero, Delivery.behind_nil]

/-- Every spell of a session is the life of one connection over the link it was given. -/
theorem life_of_spell (client : Client) (network : Network) (calls : List Call) (k : Nat) :
    Life (Delivery.ofReads (network.nth k).reads) (spell client network calls k) := by
  unfold spell
  cases found : (spells Turn.opens (turns client network calls))[k]? with
  | none => exact .quiet (by simp)
  | some turns => exact life_of_getElem found

end Session
end LineStore
