import LineStore.Proofs.Establishment
import LineStore.Proofs.FaultKinds
import LineStore.Proofs.Receipt

/-!
What the log tells of a request. Its entries follow from the events of the call: how the client comes to
its connection (`Client.Arrival`), and what becomes of the request once it has one (`Client.Sequel`). The
bytes at hand on the connection and those delivered during the call say whether a line is received. Main
statement: the log of every request is this story (`Client.request_story`).
-/
namespace LineStore
open Framing

/-! ## Entries of the log -/

/-- A record as it is shown: how much detail it is, and its text. -/
def LogRecord.entry (record : LogRecord) : LogLevel × String := (record.level, record.text)

/-- What is logged when a command is about to be sent. The value of a setting is left out. -/
def Command.announcement : Command → String
  | .set key _ => "Sending SET " ++ key ++ " <value>"
  | command => "Sending " ++ command.line

/-- What is logged of an event: an attempt to connect that failed. -/
def Event.failureEntry? : Event → Option (LogLevel × String)
  | .connect peer _ (some cause) => some (.debug, "Connecting to " ++ peer.text ++ " failed: " ++ cause.text)
  | _ => none

/-- What is logged of the attempts to connect that failed, in their order. -/
def failureEntries (events : List Event) : List (LogLevel × String) := events.filterMap Event.failureEntry?

@[simp] theorem failureEntries_append (before after : List Event) :
    failureEntries (before ++ after) = failureEntries before ++ failureEntries after := List.filterMap_append

theorem entry_sending (command : Command) : LogRecord.entry (.sending command.summary) = (.debug, command.announcement) := by
  have spelled : "Sending " ++ "SET " = "Sending SET " := by decide
  cases command with
  | set key value =>
    show (LogLevel.debug, "Sending " ++ ("SET " ++ key ++ " <value>")) = (.debug, "Sending SET " ++ key ++ " <value>")
    rw [← String.append_assoc, ← String.append_assoc, spelled]
  | _ => rfl

theorem entries_of_failures (events : List Event) :
    (events.filterMap Event.failure?).map LogRecord.entry = failureEntries events := by
  rw [failureEntries, List.map_filterMap]
  congr 1
  funext event
  cases event with
  | connect peer timeout failure => cases failure <;> rfl
  | _ => rfl

/-- The log tells nothing of events that are no attempts to connect. -/
theorem failureEntries_eq_nil {events : List Event} (others : ∀ event ∈ events, event.isTransfer = true ∨ event = .close) :
    failureEntries events = [] := by
  refine List.filterMap_eq_nil_iff.mpr fun event member => ?_
  rcases others event member with transfer | rfl
  · cases event <;> simp_all [Event.isTransfer, Event.failureEntry?]
  · rfl

/-! ## Coming to a connection -/

/-- A socket to an address was opened in some events and was given all its options. -/
def Equipped (peer : Address) (events : List Event) : Prop :=
  ∃ reading writing later,
    Since peer (.readTimeout reading none :: .writeTimeout writing none :: .noDelay none :: later) events

theorem Equipped.append {peer : Address} {events : List Event} (equipped : Equipped peer events) (later : List Event) :
    Equipped peer (events ++ later) := by
  obtain ⟨reading, writing, moved, earlier, timeout, rfl⟩ := equipped
  exact ⟨reading, writing, moved ++ later, earlier, timeout, by simp⟩

theorem not_equipped {events : List Event} (unset : .noDelay none ∉ events) (peer : Address) : ¬ Equipped peer events := by
  rintro ⟨reading, writing, later, earlier, timeout, rfl⟩
  simp at unset

namespace Connection
variable {config : Config} {link : Link}

/-- The attempts up to the first that succeeds end with it. -/
theorem take_attempts {limit : Option Duration} {peers : List Address} {outcomes : List (Option IoError)} {i : Nat}
    {peer : Address} (here : peers[i]? = some peer) (accepted : failureAt outcomes i = none) :
    (attempts limit peers outcomes).take (i + 1) =
      (attempts limit peers outcomes).take i ++ [.connect peer limit none] := by
  have last : (attempts limit peers outcomes)[i]? = some (.connect peer limit none) := by
    simp [attempts, here, accepted]
  rw [List.take_add_one, last]
  rfl

theorem noDelay_notMem_attempts {limit : Option Duration} {peers : List Address} {outcomes : List (Option IoError)}
    (failure : Option IoError) : .noDelay failure ∉ attempts limit peers outcomes := by
  intro member
  obtain ⟨i, inside, same⟩ := List.mem_mapIdx.mp member
  simp at same

/-- How an attempt to open a connection is logged. -/
inductive Logged (answer : Except Fault Connection) (trace : Trace) : Prop
  | opened {connection : Connection} (success : answer = .ok connection) (fresh : connection.pending = [])
      (equipped : Equipped connection.peer trace.events)
      (log : trace.log = trace.events.filterMap Event.failure? ++ [.connected connection.peer])
  | failed {fault : Fault} (failure : answer = .error fault) (unset : .noDelay none ∉ trace.events)
      (log : trace.log = trace.events.filterMap Event.failure?)

theorem Outfit.failures {limit : Option Duration} {fault? : Option Fault} {set : List Event}
    (outfit : Outfit limit link fault? set) : set.filterMap Event.failure? = [] := by
  cases outfit <;> rfl

theorem Outfit.noDelay_notMem {limit : Option Duration} {fault : Fault} {set : List Event}
    (outfit : Outfit limit link (some fault) set) : .noDelay none ∉ set := by
  cases outfit <;> simp

/-- Only the attempts leave failures behind: the question for the addresses does not, nor do options. -/
theorem failures_of_attempts (tries : List Event) {later : List Event} (faultless : later.filterMap Event.failure? = []) :
    ((asking config link).events ++ tries ++ later).filterMap Event.failure? = tries.filterMap Event.failure? := by
  rw [List.filterMap_append, List.filterMap_append, faultless, List.append_nil]
  rfl

theorem establish_logged (config : Config) (link : Link) :
    Logged (establish config link).1 (establish config link).2 := by
  obtain ⟨result, way⟩ := exists_establishment config link
  rw [way.establish_eq]
  have asked : .noDelay none ∉ (asking config link).events := by simp [asking, Trace.ofEvent]
  cases way with
  | unresolved barren => exact .failed rfl asked rfl
  | unreachable resolved present failed last =>
    refine .failed rfl ?_ rfl
    simp [asked, tried, noDelay_notMem_attempts]
  | @refused ips ip i fault set resolved here accepted first outfit =>
    refine .failed rfl ?_ ?_
    · have tries : .noDelay none ∉ (attempts config.limit (peers config ips) link.connects).take (i + 1) :=
        fun member => noDelay_notMem_attempts none (List.mem_of_mem_take member)
      simp [asked, tried, tries, outfit.noDelay_notMem]
    · have faultless : (set ++ [Event.close]).filterMap Event.failure? = [] := by
        rw [List.filterMap_append, outfit.failures]
        rfl
      exact (List.append_nil _).trans (failures_of_attempts _ faultless).symm
  | @opened ips ip i set resolved here accepted first outfit =>
    refine .opened rfl rfl ?_ ?_
    · have address : (peers config ips)[i]? = some ⟨ip, config.port⟩ := by simp [peers, here]
      cases outfit with
      | whole readable writable prompt =>
        refine ⟨config.limit, config.limit, [], (asking config link).events ++
          (attempts config.limit (peers config ips) link.connects).take i, config.limit, ?_⟩
        simp [tried, take_attempts address accepted]
    · exact congrArg (· ++ [LogRecord.connected ⟨ip, config.port⟩]) (failures_of_attempts _ outfit.failures).symm

end Connection

namespace Client

/-- What is logged of how a client comes to its connection, and the bytes at hand on the connection that it
    comes to. -/
inductive Arrival (client : Client) (events : List Event) : Option Bytes → List (LogLevel × String) → Prop
  /-- The client is connected. -/
  | already {connection : Connection} (connected : client.connection = some connection)
      (untried : failureEntries events = []) (unopened : ∀ peer, ¬ Equipped peer events) :
      Arrival client events (some connection.pending) []
  /-- A connection is opened: every attempt that failed is logged, and then the address that accepted. -/
  | opened {peer : Address} (disconnected : client.connection = none) (equipped : Equipped peer events) :
      Arrival client events (some []) (failureEntries events ++ [(.debug, "Connected to " ++ peer.text)])
  /-- No connection is opened. -/
  | failed (disconnected : client.connection = none) (unopened : ∀ peer, ¬ Equipped peer events) :
      Arrival client events none (failureEntries events)

/-- How the way to the server is logged. -/
inductive Approach (client : Client) (answer : Except Fault Connection) (trace : Trace) : Prop
  | already {connection : Connection} (connected : client.connection = some connection) (reached : answer = .ok connection)
      (idle : trace = {})
  | fresh (disconnected : client.connection = none) (logged : Connection.Logged answer trace)

theorem reach_approach (client : Client) (network : Network) :
    Approach client (client.reach network).1 (client.reach network).2.2 := by
  cases connected : client.connection with
  | some connection =>
    rw [reach_of_connected connected]
    exact .already connected rfl rfl
  | none =>
    rw [reach_of_disconnected connected]
    exact .fresh connected (Connection.establish_logged client.config network.link)

/-- Once a client has its connection, nothing that follows is an attempt to connect. -/
theorem Approach.arrival {client : Client} {connection : Connection} {reached : Trace}
    (approach : Approach client (.ok connection) reached) {later : List Event}
    (others : ∀ event ∈ later, event.isTransfer = true ∨ event = .close) :
    Arrival client (reached.events ++ later) (some connection.pending) (reached.log.map LogRecord.entry) := by
  have untried := failureEntries_eq_nil others
  cases approach with
  | already connected same idle =>
    obtain rfl := Except.ok.inj same
    rw [idle]
    have unset : .noDelay none ∉ later := by
      intro member
      rcases others _ member with transfer | close
      · exact absurd transfer Bool.false_ne_true
      · simp at close
    exact .already connected untried (not_equipped unset)
  | fresh disconnected logged =>
    cases logged with
    | opened success fresh equipped log =>
      obtain rfl := Except.ok.inj success
      have arrival := Arrival.opened disconnected (equipped.append later)
      rw [failureEntries_append, untried, List.append_nil, ← entries_of_failures] at arrival
      rw [fresh, log, List.map_append]
      exact arrival
    | failed failure => simp at failure

theorem Approach.arrival_of_error {client : Client} {fault : Fault} {reached : Trace}
    (approach : Approach client (.error fault) reached) :
    Arrival client reached.events none (reached.log.map LogRecord.entry) := by
  cases approach with
  | already connected same => simp at same
  | fresh disconnected logged =>
    cases logged with
    | opened success => simp at success
    | failed failure unset log =>
      rw [log, entries_of_failures]
      exact .failed disconnected (not_equipped unset)

end Client

/-! ## What becomes of a request -/

namespace Connection

/-- How an exchange of lines is logged, told by the bytes at hand, those accepted and those delivered. -/
inductive Passage (connection : Connection) (line : String) (answer : Except Fault String) (after : Connection)
    (trace : Trace) : Prop
  /-- The line is not accepted to its end, or no line is complete with the bytes delivered. -/
  | lost {fault : Fault} (failed : answer = .error fault) (kind : fault.kind = .connection) (log : trace.log = [])
      (unanswered : trace.accepted = frame line → Unbroken (connection.pending ++ trace.delivered))
  /-- The first line of the bytes at hand and those delivered is taken, and what is behind it is kept. -/
  | taken {bytes left : Bytes} (read : answer = decode bytes) (sent : trace.accepted = frame line)
      (taken : connection.pending ++ trace.delivered = bytes ++ carriageReturn :: lineFeed :: left)
      (whole : Unbroken bytes) (kept : after.pending = left) (log : trace.log = [.leftAfterLine left.length])

theorem delivered_reads (answers : List (Except IoError Bytes)) :
    (answers.map Event.read).flatMap Event.delivered = answers.flatMap brought := by
  rw [List.flatMap_map]
  congr 1
  funext answer
  cases answer <;> rfl

theorem delivered_writes {events : List Event} (writes : ∀ event ∈ events, ∃ offered answer, event = .write offered answer) :
    events.flatMap Event.delivered = [] := by
  refine List.flatMap_eq_nil_iff.mpr fun event member => ?_
  obtain ⟨offered, answer, rfl⟩ := writes event member
  rfl

/-- An answer that ends a wait brings nothing. -/
theorem brought_of_final {answer : Except IoError Bytes} (final : ¬ GoesOn answer) : brought answer = [] := by
  cases answer with
  | ok bytes => exact not_not.mp final
  | error error => rfl

theorem exchange_passage (connection : Connection) (line : String) :
    Passage connection line (connection.exchange line).1 (connection.exchange line).2.1 (connection.exchange line).2.2 := by
  rcases Sending.offer_cases (frame line) connection.writes with ⟨fine, all⟩ | ⟨fault, stopped, kind, begins, short⟩
  · have unread := delivered_writes (Sending.offer_writes (frame line) connection.writes)
    have wait := Intake.await_wait connection.pending connection.reads
    rw [exchange_of_sent fine, receive_eq]
    simp only [sentTo]
    generalize Intake.await connection.pending connection.reads = intake at wait ⊢
    have sent : ∀ answers : List (Except IoError Bytes), ∀ log : List LogRecord,
        (({ events := (Sending.offer (frame line) connection.writes).events } : Trace) ++
          ⟨answers.map .read, log⟩).accepted = frame line := by
      intro answers log
      have nothing : (answers.map Event.read).flatMap Event.accepted = [] := by simp [Event.accepted]
      rw [Trace.accepted_append]
      exact (congrArg₂ (· ++ ·) all nothing).trans (List.append_nil _)
    have delivered : ∀ answers : List (Except IoError Bytes), ∀ log : List LogRecord,
        (({ events := (Sending.offer (frame line) connection.writes).events } : Trace) ++
          ⟨answers.map .read, log⟩).delivered = answers.flatMap brought := by
      intro answers log
      rw [Trace.delivered_append]
      exact (congrArg₂ (· ++ ·) unread (delivered_reads answers)).trans (List.nil_append _)
    cases wait with
    | @complete answers rest line left made goesOn early cut =>
      obtain ⟨taken, whole⟩ := cut?_eq_some_iff.mp cut
      refine .taken rfl (sent _ _) ?_ whole rfl rfl
      rw [delivered]
      exact taken
    | @ended answers last rest made goesOn final uncut =>
      refine .lost rfl (Client.fault_kind _) rfl fun _ => ?_
      rw [delivered, List.flatMap_append, List.flatMap_singleton, brought_of_final final, List.append_nil]
      exact cut?_eq_none_iff.mp uncut
  · rw [exchange_of_fault stopped]
    exact .lost rfl kind rfl fun all => absurd all short

end Connection

namespace Client

/-- What becomes of a request that has come to its connection with some bytes at hand, or to none, and what is
    logged of it. -/
inductive Sequel (command : Command) (outcome : Outcome) : Option Bytes → List (LogLevel × String) → Prop
  /-- There is no connection. -/
  | unreached {fault : Fault} (result : outcome.result = .error fault) (kind : fault.kind = .connection) :
      Sequel command outcome none []
  /-- The command is not sent to its end, or no line is received: the fault is logged that the call ends with. -/
  | lost {atHand : Bytes} {fault : Fault} (result : outcome.result = .error fault) (kind : fault.kind = .connection)
      (dropped : outcome.client.connection = none)
      (unanswered : outcome.trace.accepted = frame command.line → Unbroken (atHand ++ outcome.trace.delivered)) :
      Sequel command outcome (some atHand)
        [(.debug, command.verb ++ " " ++ command.key?.getD "" ++ " failed, dropping connection: " ++ fault.report.display)]
  /-- A line is received: how many bytes are left behind it is logged in detail, and the line itself. -/
  | received {atHand left : Bytes} {line : String} {connection : Connection}
      (sent : outcome.trace.accepted = frame command.line)
      (taken : atHand ++ outcome.trace.delivered = Bytes.ofText line ++ carriageReturn :: lineFeed :: left)
      (whole : Unbroken (Bytes.ofText line)) (result : outcome.result = command.interpret line)
      (connected : outcome.client.connection = some connection) (kept : connection.pending = left) :
      Sequel command outcome (some atHand)
        [(.trace, toString left.length ++ " bytes left after line"), (.debug, "Received " ++ line)]
  /-- A line is taken that is no text: that is logged in detail alone. -/
  | garbled {atHand bytes left : Bytes} {connection : Connection} (sent : outcome.trace.accepted = frame command.line)
      (taken : atHand ++ outcome.trace.delivered = bytes ++ carriageReturn :: lineFeed :: left) (whole : Unbroken bytes)
      (noText : ∀ text, bytes ≠ Bytes.ofText text) (result : outcome.result = .error .notText)
      (connected : outcome.client.connection = some connection) (kept : connection.pending = left) :
      Sequel command outcome (some atHand) [(.trace, toString left.length ++ " bytes left after line")]

/-- The story that the log tells of a request: what is about to be sent, how the client comes to its
    connection, and what becomes of the request there. -/
def Story (client : Client) (command : Command) (outcome : Outcome) : Prop :=
  ∃ atHand arrival sequel, client.Arrival outcome.trace.events atHand arrival ∧ Sequel command outcome atHand sequel ∧
    outcome.trace.log.map LogRecord.entry = (.debug, command.announcement) :: (arrival ++ sequel)

/-- A request has its bytes accepted and delivered during the exchange alone. -/
theorem moved_request {client : Client} {network rest : Network} {answer : Except Fault Connection} {reached : Trace}
    (reach : client.reach network = (answer, rest, reached)) (command : Command) (exchanged last : Trace)
    (closing : ∀ event ∈ last.events, event = .close) :
    let trace : Trace := .ofRecord (.sending command.summary) ++ reached ++ exchanged ++ last
    trace.accepted = exchanged.accepted ∧ trace.delivered = exchanged.delivered := by
  have still : ∀ event ∈ reached.events, event.isTransfer = false := by
    have events := client.reach_still network
    rwa [reach] at events
  have quiet : last.accepted = [] := by
    refine List.flatMap_eq_nil_iff.mpr fun event member => ?_
    rw [closing event member]
    rfl
  refine ⟨accepted_request reach command exchanged quiet, ?_⟩
  have silent : (Trace.ofRecord (.sending command.summary)).delivered = [] := rfl
  have before : reached.delivered = [] := by
    refine List.flatMap_eq_nil_iff.mpr fun event member => ?_
    have calm := still event member
    cases event <;> simp_all [Event.isTransfer, Event.delivered]
  have behind : last.delivered = [] := by
    refine List.flatMap_eq_nil_iff.mpr fun event member => ?_
    rw [closing event member]
    rfl
  rw [Trace.delivered_append, Trace.delivered_append, Trace.delivered_append, silent, before, behind]
  simp

/-- The story of a request that comes to a connection is told once it is known what becomes of it there. -/
theorem story_of_sequel {client : Client} {command : Command} {outcome : Outcome} {connection : Connection}
    {reached exchanged last : Trace} (approach : client.Approach (.ok connection) reached)
    (moves : ∀ event ∈ exchanged.events, event.isTransfer = true) (closing : ∀ event ∈ last.events, event = .close)
    (trace : outcome.trace = .ofRecord (.sending command.summary) ++ reached ++ exchanged ++ last)
    (sequel : Sequel command outcome (some connection.pending) ((exchanged.log ++ last.log).map LogRecord.entry)) :
    Story client command outcome := by
  refine ⟨_, reached.log.map LogRecord.entry, _, ?_, sequel, ?_⟩
  · have others : ∀ event ∈ exchanged.events ++ last.events, event.isTransfer = true ∨ event = .close := by
      intro event member
      rcases List.mem_append.mp member with member | member
      · exact .inl (moves event member)
      · exact .inr (closing event member)
    have arrival := approach.arrival others
    rw [← List.append_assoc] at arrival
    rw [trace]
    exact arrival
  · rw [trace, ← entry_sending]
    simp [Trace.ofRecord]

theorem request_story (client : Client) (network : Network) (command : Command) :
    Story client command (client.request network command) := by
  have approach := client.reach_approach network
  have failed : ∀ fault, (client.reach network).1 = .error fault → fault.kind = .connection := fun _ => reach_error
  unfold request
  rcases reach : client.reach network with ⟨fault | connection, rest, reached⟩
  · rw [reach] at approach failed
    refine ⟨none, _, [], approach.arrival_of_error, .unreached rfl (failed fault rfl), ?_⟩
    rw [← entry_sending]
    simp [Trace.ofRecord]
  · rw [reach] at approach
    have passage := connection.exchange_passage command.line
    have moves := connection.exchange_transfers command.line
    rcases exchange : connection.exchange command.line with ⟨answer, after, exchanged⟩
    simp only [exchange] at passage moves ⊢
    cases passage with
    | @lost fault failure kind log unanswered =>
      obtain rfl : answer = .error fault := failure
      have closing : ∀ event ∈ [Event.close], event = .close := by simp
      obtain ⟨accepted, delivered⟩ := moved_request reach command exchanged
        ⟨[.close], [.dropping command.verb (command.key?.getD "") fault.report]⟩ closing
      simp only [kind, if_true]
      refine story_of_sequel approach moves closing rfl ?_
      rw [log]
      refine .lost rfl kind rfl ?_
      rw [accepted, delivered]
      exact unanswered
    | @taken bytes left read sent taken whole kept log =>
      have closing : ∀ event ∈ ([] : List Event), event = .close := by simp
      obtain ⟨accepted, delivered⟩ := moved_request reach command exchanged
        ⟨[], (Bytes.text? bytes).toList.map .received⟩ closing
      unfold decode at read
      cases spelled : Bytes.text? bytes with
      | some line =>
        rw [spelled] at read accepted delivered
        obtain rfl : answer = .ok line := read
        obtain rfl := Bytes.text?_eq_some_iff.mp spelled
        refine story_of_sequel approach moves closing rfl ?_
        rw [log]
        refine .received (accepted.trans sent) ?_ whole rfl rfl kept
        exact (congrArg (connection.pending ++ ·) delivered).trans taken
      | none =>
        rw [spelled] at read accepted delivered
        obtain rfl : answer = .error .notText := read
        have noText : ∀ text, bytes ≠ Bytes.ofText text := by
          rintro text rfl
          simp [Bytes.text?_ofText] at spelled
        have protocol : ¬ Fault.notText.kind = .connection := by decide
        simp only [if_neg protocol]
        rw [← Trace.append_nil (_ ++ exchanged)]
        refine story_of_sequel approach moves closing rfl ?_
        rw [log]
        refine .garbled (accepted.trans sent) ?_ whole noText rfl rfl kept
        exact (congrArg (connection.pending ++ ·) delivered).trans taken

end Client

end LineStore
