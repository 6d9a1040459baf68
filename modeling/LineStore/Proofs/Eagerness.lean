import LineStore.Proofs.Renewal

/-!
To connect first, or only when there is something to ask. A request connects a client that is not
connected just as `Client.connect` does, and then goes on as it does on a client that is
(`Client.request_of_reach`). Main statement: a request made after connecting and one made at once give
the same result, leave the same client and ask the same of the network, and where connecting fails the
request fails with it (`Client.eager_as_lazy`).
-/
namespace LineStore

namespace Client

/-- A client with a connection to its server. -/
def withConnection (client : Client) (connection : Connection) : Client := { client with connection := some connection }

/-- Once the server is reached a request goes on as it does over the connection that is there by then. -/
theorem request_of_reach {client : Client} {network rest : Network} {connection : Connection} {reached : Trace}
    (reach : client.reach network = (.ok connection, rest, reached)) (command : Command) :
    let connected := (client.withConnection connection).request rest command
    (client.request network command).result = connected.result ∧
      (client.request network command).client = connected.client ∧
      (client.request network command).network = connected.network ∧
      (client.request network command).trace.events = reached.events ++ connected.trace.events := by
  have there : (client.withConnection connection).connection = some connection := rfl
  unfold request
  rw [reach, reach_of_connected there]
  rcases exchange : connection.exchange command.line with ⟨fault | line, after, exchanged⟩
  · simp only [exchange]
    by_cases lost : fault.kind = .connection
    · rw [if_pos lost, if_pos lost]
      exact ⟨rfl, rfl, rfl, by simp [Trace.ofRecord]⟩
    · rw [if_neg lost, if_neg lost]
      exact ⟨rfl, rfl, rfl, by simp [Trace.ofRecord]⟩
  · simp [exchange, Trace.ofRecord, withConnection]

/-- To connect a client that is connected does nothing. -/
theorem connect_of_isConnected {client : Client} (connected : client.isConnected = true) (network : Network) :
    client.connect network = ⟨.ok .done, client, network, {}⟩ := by
  obtain ⟨connection, there, reach⟩ := reach_of_isConnected connected network
  have same : client.withConnection connection = client := by rw [withConnection, ← there]
  rw [connect, reach]
  exact congrArg (Outcome.mk (.ok .done) · network {}) same

/-- What comes of a request made after connecting, and of the same request made at once. -/
structure Agree (connecting eager lazy : Outcome) : Prop where
  /-- Connected in time or not, the client gets the same result, is left the same, and has asked the same of
      the network; so all calls that follow go the same way. -/
  success : ∀ answer, connecting.result = .ok answer →
    lazy.result = eager.result ∧ lazy.client = eager.client ∧
      lazy.trace.events = connecting.trace.events ++ eager.trace.events ∧
      ∀ later, Session.run lazy.client lazy.network later = Session.run eager.client eager.network later
  /-- What keeps the client from connecting keeps it from making the request. -/
  failure : ∀ fault, connecting.result = .error fault →
    lazy.result = .error fault ∧ lazy.client = connecting.client ∧ lazy.trace.events = connecting.trace.events ∧
      lazy.network = connecting.network

/-- A client may connect before it makes a request or leave that to the request; and to connect a client that
    is connected does nothing. -/
theorem eager_as_lazy {command : Command} (keyed : command.WellKeyed) (client : Client) (network : Network) :
    let connecting := client.connect network
    Agree connecting (connecting.client.submit connecting.network command) (client.submit network command) ∧
      (client.isConnected = true → connecting = ⟨.ok .done, client, network, {}⟩) := by
  intro connecting
  have asked : ∀ (client : Client) (network : Network), client.submit network command = client.request network command :=
    fun _ _ => if_pos keyed
  rw [asked, asked]
  refine ⟨?_, fun connected => connect_of_isConnected connected network⟩
  rcases reach : client.reach network with ⟨fault | connection, rest, reached⟩
  · have failing : connecting = ⟨.error fault, client.disconnected, rest, reached⟩ := by
      show client.connect network = _
      rw [connect, reach]
    have request : client.request network command =
        ⟨.error fault, client.disconnected, rest, .ofRecord (.sending command.summary) ++ reached⟩ := by
      rw [Client.request, reach]
    rw [failing, request]
    exact ⟨nofun, fun other failure => ⟨failure, rfl, rfl, rfl⟩⟩
  · have connected : connecting = ⟨.ok .done, client.withConnection connection, rest, reached⟩ := by
      show client.connect network = _
      rw [connect, reach]
      rfl
    obtain ⟨result, after, left, events⟩ := request_of_reach reach command
    rw [connected]
    exact ⟨fun answer _ => ⟨result, after, events, fun later => by rw [after, left]⟩, nofun⟩

/-- Where the server answers ahead of time, the answer in hand survives that the client is told to connect. -/
theorem eager_as_lazy_generous :
    let client := (Session.run ⟨{}, by decide, none⟩ [.generous] [.submit .ping]).client
    let eager := (client.connect []).client.submit (client.connect []).network (.get "k")
    client.isConnected = true ∧ (client.submit [] (.get "k")).result = eager.result ∧ eager.result = .ok (.found "old") := by
  intro client eager
  have connected : client.isConnected = true := by decide +kernel
  have keyed : (Command.get "k").WellKeyed := by decide
  obtain ⟨agree, idle⟩ := eager_as_lazy keyed client []
  have connecting : (client.connect []).result = .ok .done := congrArg Outcome.result (idle connected)
  exact ⟨connected, (agree.success _ connecting).1, by decide +kernel⟩

end Client
end LineStore
