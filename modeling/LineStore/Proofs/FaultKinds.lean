import LineStore.Proofs.Lifecycle

/-!
What the kind of a fault tells of the connection. A validation fault is that of a call without a
key, which does nothing at all; a connection fault leaves no connection and no open socket; and
after any other end of a call the client is connected, by the socket it had if it had one
(`Client.perform_ended`). Main statement: this is so for every call that a session may come to
(`Session.kinds_tell`), and a session goes the same way without its calls that have no key.
-/
namespace LineStore

/-- The kind of the fault that a call ended with, if it failed. -/
def faultKind? : Except Fault Answer → Option FaultKind
  | .ok _ => none
  | .error fault => some fault.kind

/-! ## Calls without a key -/

/-- A call that is to name a key and names an empty one. -/
def Call.Unkeyed (call : Call) : Prop :=
  (∃ value, call = .submit (.set "" value)) ∨ call = .submit (.get "") ∨ call = .submit (.del "")

theorem Call.unkeyed_submit_iff (command : Command) : Unkeyed (.submit command) ↔ ¬ command.WellKeyed := by
  cases command <;> simp [Unkeyed, Command.WellKeyed, Command.key?]

theorem Client.perform_of_unkeyed {call : Call} (unkeyed : call.Unkeyed) (client : Client) (network : Network) :
    client.perform network call = ⟨.error .emptyKey, client, network, {}⟩ := by
  cases call with
  | connect => simp [Call.Unkeyed] at unkeyed
  | close => simp [Call.Unkeyed] at unkeyed
  | submit command => exact if_neg ((Call.unkeyed_submit_iff command).mp unkeyed)

/-! ## How the other calls end -/

/-- A line that was received is the answer to the command, or a protocol fault. -/
theorem Command.faultKind?_read (command : Command) (bytes : Bytes) :
    faultKind? (command.read bytes) = none ∨ faultKind? (command.read bytes) = some .protocol := by
  unfold read
  split
  · unfold interpret
    split
    · exact .inr rfl
    · split
      · exact .inl rfl
      · exact .inr rfl
  · exact .inr rfl

namespace Client

/-- The connection that a client had is the one it has after a call: no socket was opened or closed,
    and nothing was asked of the network but to move bytes. -/
structure SameSocket (client : Client) (network : Network) (outcome : Outcome) : Prop where
  transfers : ∀ event ∈ outcome.trace.events, event.isTransfer = true
  peer : outcome.client.peer? = client.peer?
  network : outcome.network = network

/-- How a call ends that is made in earnest: the connection is lost with it or it is there after it. -/
inductive Ended (client : Client) (network : Network) (call : Call) (outcome : Outcome) : Prop
  | lost (kind : faultKind? outcome.result = some .connection) (disconnected : outcome.client.connection = none)
  | kept (kind : faultKind? outcome.result = none ∨ faultKind? outcome.result = some .protocol)
      (connect : call = .connect → faultKind? outcome.result = none) (connected : outcome.client.isConnected = true)
      (same : client.isConnected = true → SameSocket client network outcome)

theorem reach_of_isConnected {client : Client} (connected : client.isConnected = true) (network : Network) :
    ∃ connection, client.connection = some connection ∧ client.reach network = (.ok connection, network, {}) := by
  obtain ⟨connection, same⟩ := Option.isSome_iff_exists.mp connected
  exact ⟨connection, same, reach_of_connected same network⟩

theorem connect_ended (client : Client) (network : Network) :
    Ended client network .connect (client.connect network) := by
  have failed : ∀ fault, (client.reach network).1 = .error fault → fault.kind = .connection := fun _ => reach_error
  unfold connect
  rcases reach : client.reach network with ⟨fault | connection, rest, reached⟩
  · rw [reach] at failed
    exact .lost (congrArg some (failed fault rfl)) rfl
  · refine .kept (.inl rfl) (fun _ => rfl) rfl fun connected => ?_
    obtain ⟨known, there, again⟩ := reach_of_isConnected connected network
    obtain ⟨rfl, rfl, rfl⟩ : _ ∧ _ ∧ _ := by simpa [reach] using again
    exact ⟨by simp, by simp [peer?, there], rfl⟩

theorem request_ended (client : Client) (network : Network) (command : Command) :
    Ended client network (.submit command) (client.request network command) := by
  have failed : ∀ fault, (client.reach network).1 = .error fault → fault.kind = .connection := fun _ => reach_error
  have moves := fun connection => Connection.exchange_transfers connection command.line
  have course := client.request_course network command
  generalize client.request network command = outcome at course ⊢
  cases course with
  | @unreached fault rest reached reach =>
    rw [reach] at failed
    exact .lost (congrArg some (failed fault rfl)) rfl
  | unsent reach exchange kind => exact .lost (congrArg some kind) rfl
  | unanswered reach exchange => exact .lost (congrArg some (fault_kind _)) rfl
  | @answered connection after rest reached exchanged bytes left reach exchange sent cut peer =>
    refine .kept (command.faultKind?_read bytes) nofun rfl fun connected => ?_
    -- The connection that was there is the one reached, so nothing but the exchange has happened.
    obtain ⟨known, there, again⟩ := reach_of_isConnected connected network
    obtain ⟨rfl, rfl, rfl⟩ : _ ∧ _ ∧ _ := by simpa [reach] using again
    have transfers := moves connection
    rw [exchange] at transfers
    exact ⟨by simpa [Trace.ofRecord] using transfers, by simp [peer?, there, peer], rfl⟩

/-- Every call but a closing one ends so, if it does not lack a key. -/
theorem perform_ended (client : Client) (network : Network) {call : Call} (asked : call ≠ .close)
    (keyed : ¬ call.Unkeyed) : Ended client network call (client.perform network call) := by
  cases call with
  | connect => exact client.connect_ended network
  | close => exact absurd rfl asked
  | submit command =>
    have wellKeyed : command.WellKeyed := not_not.mp (mt (Call.unkeyed_submit_iff command).mpr keyed)
    have same : client.perform network (.submit command) = client.request network command := if_pos wellKeyed
    rw [same]
    exact client.request_ended network command

theorem disconnected_of_kind {client : Client} {network : Network} {call : Call}
    (failed : faultKind? (client.perform network call).result = some .connection) :
    (client.perform network call).client.connection = none := by
  by_cases asked : call = .close
  · rw [asked]
    exact client.disconnected_of_close network
  · by_cases unkeyed : call.Unkeyed
    · rw [perform_of_unkeyed unkeyed] at failed
      simp [faultKind?, Fault.kind] at failed
    · cases client.perform_ended network asked unkeyed with
      | lost _ disconnected => exact disconnected
      | kept kind => rcases kind with kind | kind <;> simp [kind] at failed

/-- A client has no connection, and every socket that it opened in some events is closed. -/
structure Settled (client : Client) (events : List Event) : Prop where
  disconnected : client.isConnected = false
  phases : Phase.Run .closed events .closed
  closed : (opened events).length = closings events

theorem settled_of_run {client : Client} {events : List Event} (run : Phase.Run .closed events client.phase)
    (disconnected : client.connection = none) : client.Settled events := by
  rw [phase_of_disconnected disconnected] at run
  exact ⟨by rw [isConnected, disconnected]; rfl, run, run.orderly.balanced⟩

/-- What the result of a call tells of the connection, when some events have happened to the client. -/
structure Telling (past : List Event) (client : Client) (network : Network) (call : Call) (outcome : Outcome) : Prop where
  /-- The fault is one of validation just where the call lacks a key. -/
  invalid : faultKind? outcome.result = some .validation ↔ call.Unkeyed
  /-- A connection fault leaves the client without a connection, and no socket that it opened is open. -/
  lost : faultKind? outcome.result = some .connection → outcome.client.Settled (past ++ outcome.trace.events)
  /-- After success, and after a protocol fault, the client is connected. -/
  kept : faultKind? outcome.result = none ∨ faultKind? outcome.result = some .protocol →
    outcome.client.isConnected = true ∧ (client.isConnected = true → SameSocket client network outcome)
  connect : call = .connect → faultKind? outcome.result ≠ some .protocol

theorem perform_telling {past : List Event} {client : Client} (before : Phase.Run .closed past client.phase)
    (network : Network) {call : Call} (asked : call ≠ .close) :
    Telling past client network call (client.perform network call) := by
  have after := before.append (client.perform_run network call)
  by_cases unkeyed : call.Unkeyed
  · rw [perform_of_unkeyed unkeyed]
    have kind : faultKind? (.error .emptyKey) = some .validation := rfl
    exact ⟨by simp [kind, unkeyed], by simp [kind], by simp [kind], by simp [kind]⟩
  · have ended := client.perform_ended network asked unkeyed
    generalize client.perform network call = outcome at ended after ⊢
    cases ended with
    | lost kind disconnected =>
      exact ⟨by simp [kind, unkeyed], fun _ => settled_of_run after disconnected, by simp [kind], by simp [kind]⟩
    | kept kind connect connected same =>
      refine ⟨?_, ?_, fun _ => ⟨connected, same⟩, fun connecting => by simp [connect connecting]⟩
      · rcases kind with kind | kind <;> simp [kind, unkeyed]
      · rcases kind with kind | kind <;> simp [kind]

end Client

/-! ## Whole sessions -/

namespace Session

theorem length_steps (client : Client) (network : Network) (calls : List Call) :
    (run client network calls).steps.length = calls.length := by
  induction calls generalizing client network with
  | nil => rfl
  | cons call calls ih => exact congrArg (· + 1) (ih _ _)

/-- A call without a key may be left out: only its own step is missed. -/
theorem run_of_unkeyed {call : Call} (unkeyed : call.Unkeyed) (client : Client) (network : Network)
    (earlier later : List Call) :
    (run client network (earlier ++ call :: later)).steps.eraseIdx earlier.length =
        (run client network (earlier ++ later)).steps ∧
      (run client network (earlier ++ call :: later)).ending = (run client network (earlier ++ later)).ending := by
  have idle := Client.perform_of_unkeyed unkeyed (run client network earlier).client (run client network earlier).network
  rw [run_append, run_append, run, idle]
  refine ⟨?_, rfl⟩
  rw [← length_steps client network earlier, List.eraseIdx_append_of_length_le (Nat.le_refl _), Nat.sub_self]
  rfl

/-- The kind of a fault tells what has become of the connection, whatever came before; and a call
    without a key leaves no trace in its session. -/
theorem kinds_tell {config : Config} {client : Client} (made : Client.ofConfig config = .ok client) (network : Network)
    (earlier : List Call) {call : Call} (asked : call ≠ .close) :
    let before := run client network earlier
    let outcome := before.client.perform before.network call
    Client.Telling before.past before.client before.network call outcome ∧
      (call.Unkeyed → outcome.trace.events = [] ∧ outcome.trace.log = [] ∧ ∀ later,
        (run client network (earlier ++ call :: later)).steps.eraseIdx earlier.length =
            (run client network (earlier ++ later)).steps ∧
          (run client network (earlier ++ call :: later)).ending = (run client network (earlier ++ later)).ending) := by
  intro before outcome
  have reached := run_past client network earlier
  rw [Client.phase_of_disconnected (Client.disconnected_of_ofConfig made).2] at reached
  refine ⟨Client.perform_telling reached before.network asked, fun unkeyed => ?_⟩
  have idle : outcome = ⟨.error .emptyKey, before.client, before.network, {}⟩ := Client.perform_of_unkeyed unkeyed _ _
  rw [idle]
  exact ⟨rfl, rfl, run_of_unkeyed unkeyed client network earlier⟩

/-- Where the server hangs up before it answers, the socket that served the request before is lost. -/
theorem kinds_tell_hangingUp :
    let before := run ⟨{}, by decide, none⟩ [.hangingUp] [.submit .ping]
    let outcome := before.client.perform before.network (.submit (.get "k"))
    before.client.isConnected = true ∧ outcome.result = .error .serverClosed ∧ outcome.client.isConnected = false := by
  intro before outcome
  have hungUp : outcome.result = .error .serverClosed := by decide +kernel
  have made : Client.ofConfig {} = .ok ⟨{}, by decide, none⟩ := dif_pos (by decide)
  have asked : Call.submit (.get "k") ≠ .close := by decide
  obtain ⟨telling, -⟩ := kinds_tell made [.hangingUp] [.submit .ping] asked
  have lost : faultKind? outcome.result = some .connection := congrArg faultKind? hungUp
  exact ⟨by decide +kernel, hungUp, (telling.lost lost).disconnected⟩

end Session
end LineStore
