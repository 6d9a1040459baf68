import LineStore.Proofs.Story

/-!
Connections counted in the log. Every connection that is opened is logged as such, and so is its end, so
that each call logs as many of either as its client comes to have or not to have (`Balanced`). Main
statement: the log of every request is its story, and after each call of a session the log says whether
the client is connected (`Session.log_tells`).
-/
namespace LineStore

/-- A record that a connection was opened. -/
def LogRecord.opens : LogRecord → Bool
  | .connected _ => true
  | _ => false

/-- A record that a connection was closed or given up. -/
def LogRecord.ends : LogRecord → Bool
  | .closing _ | .dropping .. => true
  | _ => false

/-- A log in which as many connections are opened and ended as it takes to come from being connected or not to
    being connected or not. -/
def Balanced (before : Bool) (log : List LogRecord) (after : Bool) : Prop :=
  log.countP LogRecord.opens + before.toNat = log.countP LogRecord.ends + after.toNat

theorem Balanced.append {first second third : Bool} {earlier later : List LogRecord} (before : Balanced first earlier second)
    (behind : Balanced second later third) : Balanced first (earlier ++ later) third := by
  unfold Balanced at *
  rw [List.countP_append, List.countP_append]
  omega

/-- A log that tells neither of an opening nor of an end. -/
theorem balanced_of_untold {log : List LogRecord} (untold : ∀ record ∈ log, record.opens = false ∧ record.ends = false)
    (connected : Bool) : Balanced connected log connected := by
  have opens : log.countP LogRecord.opens = 0 := List.countP_eq_zero.mpr fun record member => by simp [untold record member]
  have ends : log.countP LogRecord.ends = 0 := List.countP_eq_zero.mpr fun record member => by simp [untold record member]
  rw [Balanced, opens, ends]

theorem mem_failures {events : List Event} {record : LogRecord} (member : record ∈ events.filterMap Event.failure?) :
    ∃ peer cause, record = .connectFailed peer cause := by
  obtain ⟨event, -, failed⟩ := List.mem_filterMap.mp member
  cases event with
  | connect peer timeout failure =>
    cases failure with
    | none => simp [Event.failure?] at failed
    | some cause => exact ⟨peer, cause, (Option.some.inj failed).symm⟩
  | _ => simp [Event.failure?] at failed

theorem balanced_failures (events : List Event) (connected : Bool) :
    Balanced connected (events.filterMap Event.failure?) connected := by
  refine balanced_of_untold (fun record member => ?_) connected
  obtain ⟨peer, cause, rfl⟩ := mem_failures member
  exact ⟨rfl, rfl⟩

theorem Connection.balanced_exchange (connection : Connection) (line : String) (connected : Bool) :
    Balanced connected (connection.exchange line).2.2.log connected := by
  cases connection.exchange_passage line with
  | lost failed kind log =>
    rw [log]
    exact balanced_of_untold (by simp) connected
  | taken read sent taken whole kept log =>
    rw [log]
    exact balanced_of_untold (by simp [LogRecord.opens, LogRecord.ends]) connected

namespace Client

theorem Approach.balanced {client : Client} {answer : Except Fault Connection} {reached : Trace}
    (approach : client.Approach answer reached) : Balanced client.isConnected reached.log answer.isOk := by
  cases approach with
  | already connected same idle =>
    rw [same, idle, isConnected, connected]
    exact balanced_of_untold (by simp) true
  | fresh disconnected logged =>
    have before : client.isConnected = false := by rw [isConnected, disconnected]; rfl
    rw [before]
    cases logged with
    | opened success fresh equipped log =>
      rw [success, log]
      exact (balanced_failures _ false).append rfl
    | failed failure unset log =>
      rw [failure, log]
      exact balanced_failures _ false

theorem request_balanced (client : Client) (network : Network) (command : Command) :
    Balanced client.isConnected (client.request network command).trace.log
      (client.request network command).client.isConnected := by
  have approach := client.reach_approach network
  have sending : Balanced client.isConnected [.sending command.summary] client.isConnected := rfl
  have quiet := fun connection => Connection.balanced_exchange connection command.line true
  have course := client.request_course network command
  generalize client.request network command = outcome at course ⊢
  cases course with
  | unreached reach =>
    rw [reach] at approach
    exact sending.append approach.balanced
  | @unsent connection after rest reached exchanged fault reach exchange =>
    have moved := quiet connection
    rw [reach] at approach
    rw [exchange] at moved
    exact ((sending.append approach.balanced).append moved).append rfl
  | @unanswered connection after rest reached exchanged reach exchange =>
    have moved := quiet connection
    rw [reach] at approach
    rw [exchange] at moved
    exact ((sending.append approach.balanced).append moved).append rfl
  | @answered connection after rest reached exchanged bytes left reach exchange =>
    have moved := quiet connection
    rw [reach] at approach
    rw [exchange] at moved
    refine ((sending.append approach.balanced).append moved).append (balanced_of_untold ?_ true)
    simp [LogRecord.opens, LogRecord.ends]

/-- Every call opens and ends as many connections in the log as its client comes to have or not to have. -/
theorem perform_balanced (client : Client) (network : Network) (call : Call) :
    Balanced client.isConnected (client.perform network call).trace.log (client.perform network call).client.isConnected := by
  cases call with
  | connect =>
    have approach := client.reach_approach network
    unfold perform connect
    rcases reach : client.reach network with ⟨fault | connection, rest, reached⟩ <;> rw [reach] at approach <;>
      exact approach.balanced
  | close =>
    unfold perform close isConnected
    dsimp only
    cases connected : client.connection with
    | none =>
      dsimp only
      rw [connected]
      rfl
    | some connection => rfl
  | submit command =>
    by_cases keyed : command.WellKeyed
    · have same : client.perform network (.submit command) = client.request network command := if_pos keyed
      rw [same]
      exact client.request_balanced network command
    · have same : client.perform network (.submit command) = ⟨.error .emptyKey, client, network, {}⟩ := if_neg keyed
      rw [same]
      exact balanced_of_untold (by simp) _

/-! ## Calls that make no request -/

/-- No line is taken by a call that makes no request, and nothing is logged in detail. -/
theorem debug_of_no_request {call : Call} (idle : ∀ command, call = .submit command → ¬ command.WellKeyed)
    (client : Client) (network : Network) : ∀ record ∈ (client.perform network call).trace.log, record.level = .debug := by
  have failures : ∀ events : List Event, ∀ record ∈ events.filterMap Event.failure?, record.level = .debug := by
    intro events record member
    obtain ⟨peer, cause, rfl⟩ := mem_failures member
    rfl
  cases call with
  | connect =>
    have approach := client.reach_approach network
    have same : (client.perform network .connect).trace = (client.reach network).2.2 := by
      unfold perform connect
      rcases client.reach network with ⟨fault | connection, rest, reached⟩ <;> rfl
    rw [same]
    cases approach with
    | already connected reached idle =>
      rw [idle]
      simp
    | fresh disconnected logged =>
      cases logged with
      | opened success fresh equipped log =>
        rw [log]
        exact List.forall_mem_append.mpr ⟨failures _, by simp [LogRecord.level]⟩
      | failed failure unset log =>
        rw [log]
        exact failures _
  | close =>
    unfold perform close
    dsimp only
    cases client.connection <;> simp [LogRecord.level]
  | submit command =>
    have same : client.perform network (.submit command) = ⟨.error .emptyKey, client, network, {}⟩ :=
      if_neg (idle command rfl)
    rw [same]
    simp

end Client

/-! ## Whole sessions -/

namespace Session

/-- The records of some steps, in their order. -/
def records (steps : List Step) : List LogRecord := (steps.map (·.trace.log)).flatten

theorem steps_balanced {client : Client} {network : Network} {calls : List Call} {before after : List Step} {step : Step}
    (same : (run client network calls).steps = before ++ step :: after) :
    Balanced client.isConnected (records (before ++ [step])) step.peer.isSome := by
  induction calls generalizing client network before with
  | nil => simp [run] at same
  | cons call calls ih =>
    have performed := client.perform_balanced network call
    rw [run] at same
    cases before with
    | nil =>
      obtain ⟨rfl, -⟩ := List.cons.inj same
      simpa [records, Client.peer?, Client.isConnected] using performed
    | cons first before =>
      obtain ⟨rfl, later⟩ := List.cons.inj same
      exact performed.append (ih later)

/-- The log of a request is its story, and the log of a session counts one connection more opened than ended
    where the client is connected, and equally many where it is not; only a request that takes a line is logged
    in detail. -/
theorem log_tells :
    (∀ (client : Client) (network : Network) (command : Command), command.WellKeyed →
        client.Story command (client.submit network command)) ∧
      (∀ (client : Client) (network : Network) (call : Call), (∀ command, call = .submit command → ¬ command.WellKeyed) →
        ∀ record ∈ (client.perform network call).trace.log, record.level = .debug) ∧
      ∀ (config : Config) (client : Client), Client.ofConfig config = .ok client →
        ∀ (network : Network) (calls : List Call) (before after : List Step) (step : Step),
          (run client network calls).steps = before ++ step :: after →
            (records (before ++ [step])).countP LogRecord.opens =
              (records (before ++ [step])).countP LogRecord.ends + if step.peer.isSome then 1 else 0 := by
  refine ⟨fun client network command keyed => ?_, fun client network call idle => ?_, ?_⟩
  · have same : client.submit network command = client.request network command := if_pos keyed
    rw [same]
    exact client.request_story network command
  · exact Client.debug_of_no_request idle client network
  · intro config client made network calls before after step same
    have fresh : client.isConnected = false := by
      rw [Client.isConnected, (Client.disconnected_of_ofConfig made).2]
      rfl
    have balanced := steps_balanced same
    rw [fresh] at balanced
    cases connected : step.peer.isSome <;> simpa [Balanced, connected] using balanced

/-- Where the server hangs up, the log says that the connection is given up with the request, and why. -/
theorem log_tells_hangingUp :
    let session := run ⟨{}, by decide, none⟩ [.hangingUp] [.submit .ping, .submit (.get "k"), .close]
    let before := run ⟨{}, by decide, none⟩ [.hangingUp] [.submit .ping]
    let outcome := before.client.submit before.network (.get "k")
    outcome.trace.log.map LogRecord.entry = [(.debug, "Sending GET k"),
        (.debug, "GET k failed, dropping connection: Connection error: server closed connection")] ∧
      before.client.Story (.get "k") outcome ∧
      (∀ record ∈ (before.client.close before.network).trace.log, record.level = .debug) ∧
      ∃ first second third, session.steps = [first, second, third] ∧ second.peer = none ∧
        (records [first, second]).countP LogRecord.opens =
          (records [first, second]).countP LogRecord.ends + if second.peer.isSome then 1 else 0 := by
  intro session before outcome
  have made : Client.ofConfig {} = .ok ⟨{}, by decide, none⟩ := dif_pos (by decide)
  obtain ⟨story, detail, counts⟩ := log_tells
  refine ⟨by decide +kernel, story _ _ _ (by decide), detail _ _ .close nofun, _, _, _, rfl, by decide +kernel, ?_⟩
  exact counts {} _ made [.hangingUp] [.submit .ping, .submit (.get "k"), .close] [_] [_] _ rfl

end Session
end LineStore
