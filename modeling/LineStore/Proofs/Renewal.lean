import LineStore.Proofs.FaultKinds

/-!
A client without a connection is as good as new. A call keeps the configuration of a client
(`Client.perform_config`), and takes a link of the network exactly when it asks for the addresses of
the host (`Session.run_network`). So once a client is closed, or a connection fault has
cost it its connection, nothing that it received, sent or connected to before has any influence:
what follows is what a new client makes of the links that are left (`Session.no_residue`).
-/
namespace LineStore

namespace Client

theorem perform_config (client : Client) (network : Network) (call : Call) :
    (client.perform network call).client.config = client.config := by
  cases call with
  | connect =>
    show (client.connect network).client.config = client.config
    unfold connect
    rcases client.reach network with ⟨fault | connection, rest, reached⟩ <;> rfl
  | close =>
    show (client.close network).client.config = client.config
    unfold close
    split <;> rfl
  | submit command =>
    show (client.submit network command).client.config = client.config
    unfold submit
    split
    · have course := client.request_course network command
      generalize client.request network command = outcome at course ⊢
      cases course <;> rfl
    · rfl

/-- Clients that are not connected are told apart by their configuration alone. -/
theorem eq_of_disconnected {first second : Client} (config : first.config = second.config)
    (firstNone : first.connection = none) (secondNone : second.connection = none) : first = second := by
  cases first
  cases second
  simp_all

/-- A call takes as many links as it asks for the addresses of the host. -/
theorem perform_network (client : Client) (network : Network) (call : Call) :
    (client.perform network call).network =
      network.drop ((client.perform network call).trace.events.countP Event.isResolve) := by
  have uncounted : ∀ {events : List Event}, (∀ event ∈ events, event.isResolve = false) →
      events.countP Event.isResolve = 0 :=
    fun unasked => List.countP_eq_zero.mpr fun event member => by simp [unasked event member]
  rcases client.perform_cases network call with ⟨result, idle⟩ | asks
  · rw [idle]
    rfl
  · cases asks with
    | nothing connected same unasked =>
      rw [uncounted unasked]
      exact same
    | addresses disconnected taken first once =>
      rw [first, List.countP_cons, uncounted once, taken]
      exact List.drop_one.symm

end Client

namespace Session

theorem run_config (client : Client) (network : Network) (calls : List Call) :
    (run client network calls).client.config = client.config := by
  induction calls generalizing client network with
  | nil => rfl
  | cons call calls ih => exact (ih _ _).trans (client.perform_config network call)

theorem run_network (client : Client) (network : Network) (calls : List Call) :
    (run client network calls).network = network.drop ((run client network calls).past.countP Event.isResolve) := by
  induction calls generalizing client network with
  | nil => rfl
  | cons call calls ih =>
    rw [past_cons, List.countP_append, ← List.drop_drop, ← client.perform_network network call, ← ih]
    rfl

end Session

/-- The client closes its connection, or loses it with a fault. -/
def Turn.Resets (turn : Turn) : Prop :=
  turn.call = .close ∨ faultKind? turn.step.result = some .connection

namespace Client

theorem disconnected_of_resets {client : Client} {network : Network} {call : Call}
    (resets : Turn.Resets ⟨call, (client.perform network call).step⟩) :
    (client.perform network call).client.connection = none := by
  rcases resets with closing | failed
  · obtain rfl : call = .close := closing
    exact client.disconnected_of_close network
  · exact disconnected_of_kind failed

end Client

namespace Session

theorem disconnected_of_resets {client : Client} {network : Network} {calls : List Call} {turn : Turn}
    (last : (turns client network calls).getLast? = some turn) (resets : turn.Resets) :
    (run client network calls).client.connection = none := by
  induction calls generalizing client network with
  | nil => simp at last
  | cons call calls ih =>
    cases calls with
    | nil =>
      obtain rfl := Option.some.inj last
      exact Client.disconnected_of_resets resets
    | cons next calls =>
      rw [turns_cons, turns_cons, List.getLast?_cons_cons, ← turns_cons] at last
      exact ih last

/-- After a call that resets the connection a session goes on as that of a new client of the same
    configuration does over the links not yet taken. -/
theorem no_residue {config : Config} {client : Client} (made : Client.ofConfig config = .ok client) {network : Network}
    {calls : List Call} {turn : Turn} (last : (turns client network calls).getLast? = some turn) (resets : turn.Resets)
    (later : List Call) :
    let before := run client network calls
    let anew := run client (network.drop (before.past.countP Event.isResolve)) later
    let whole := run client network (calls ++ later)
    whole.steps = before.steps ++ anew.steps ∧ whole.ending = anew.ending := by
  intro before anew whole
  have fresh := (Client.disconnected_of_ofConfig made).2
  have same : before.client = client :=
    Client.eq_of_disconnected (run_config client network calls) (disconnected_of_resets last resets) fresh
  have joined : whole = { anew with steps := before.steps ++ anew.steps } := by
    show run client network (calls ++ later) = _
    rw [run_append, same, run_network]
  rw [joined]
  exact ⟨rfl, rfl⟩

end Session

/-- A link that brings an answer too many. -/
def Link.generous : Link := { reads := [.delivers (Bytes.ofText "PONG\r\nVALUE old\r\n")] }

/-- The answer that nobody asked for is gone with its connection: the request made after that was
    closed is answered over the next link. -/
theorem Session.no_residue_generous :
    let whole := run ⟨{}, by decide, none⟩ [.generous, .hangingUp] [.submit .ping, .close, .submit .ping]
    let anew := run ⟨{}, by decide, none⟩ [.hangingUp] [.submit .ping]
    whole.steps.drop 2 = anew.steps ∧ anew.steps.map (·.result) = [.ok .done] := by
  intro whole anew
  have made : Client.ofConfig {} = .ok ⟨{}, by decide, none⟩ := dif_pos (by decide)
  obtain ⟨turn, last, closing⟩ : ∃ turn,
      (turns ⟨{}, by decide, none⟩ [.generous, .hangingUp] [.submit .ping, .close]).getLast? = some turn ∧
        turn.call = .close :=
    ⟨_, rfl, rfl⟩
  obtain ⟨steps, -⟩ := no_residue made last (.inl closing) [.submit .ping]
  have taken : (run ⟨{}, by decide, none⟩ [.generous, .hangingUp] [.submit .ping, .close]).past.countP
      Event.isResolve = 1 := by
    decide +kernel
  rw [taken] at steps
  exact ⟨congrArg (List.drop 2) steps, by decide +kernel⟩

end LineStore
