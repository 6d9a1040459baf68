import LineStore.Proofs.Lifecycle
import LineStore.Proofs.Receipt

/-!
What a connection fault says of its cause. Each event that fails has words of its own
(`Event.complaint?`); a write or a read that was interrupted is made again (`Resumed`), and every
other failure of a write, a read or a socket option ends the attempt it belongs to (`Fate`). Main
statement: the message of a connection fault is in the words of the last thing that was asked of the
network, closing aside; and no failure that ends an attempt goes unreported (`Client.fault_named`).
-/
namespace LineStore
open Framing

/-! ## The words for a failure -/

/-- Why a stage of the conversation was not passed: the time was up, or the system's own words. -/
def IoError.words (error : IoError) (stage : String) : String :=
  if error.kind = .timedOut ∨ error.kind = .wouldBlock then stage ++ " timed out"
  else stage ++ " failed: " ++ error.text

theorem IoError.words_eq_stage (error : IoError) (stage : String) : error.words stage = Fault.stage stage error := by
  unfold words Fault.stage
  by_cases late : error.isTimeout = true
  · rw [if_pos late, if_pos (error.isTimeout_iff.mp late)]
  · rw [if_neg late, if_neg (mt error.isTimeout_iff.mpr late)]

namespace Event

/-- What is said of a failed event to one who wanted to reach a server. -/
def complaint? (config : Config) : Event → Option String
  | .resolve .. => some ("failed to resolve hostname: " ++ config.host)
  | .connect _ _ failure =>
    failure.map (·.words ("connect to " ++ config.host ++ ":" ++ toString config.port.toNat))
  | .readTimeout _ failure | .writeTimeout _ failure => failure.map (·.words "set socket timeout")
  | .noDelay failure => failure.map (·.words "configure socket")
  | .write _ (.error error) => some (error.words "send")
  | .write _ (.ok count) => if count = 0 then some "send failed: connection closed" else none
  | .read (.error error) => some (error.words "receive")
  | .read (.ok bytes) => if bytes = [] then some "server closed connection" else none
  | .close => none

/-- A write or a read that was interrupted. -/
def isInterrupted : Event → Bool
  | .write _ (.error error) | .read (.error error) => error.isInterruption
  | _ => false

/-- A socket option that was refused, a write or a read that failed and was not interrupted, a write that
    accepted nothing, or the end of the stream. -/
def isFatal : Event → Bool
  | .readTimeout _ failure | .writeTimeout _ failure | .noDelay failure => failure.isSome
  | .write _ (.error error) | .read (.error error) => !error.isInterruption
  | .write _ (.ok count) => count = 0
  | .read (.ok bytes) => bytes = []
  | _ => false

/-- Two events that ask the same: that the same bytes be accepted, or that some be delivered. -/
inductive Again : Event → Event → Prop
  | write {offered : Bytes} {first second : Except IoError Nat} : Again (.write offered first) (.write offered second)
  | read {first second : Except IoError Bytes} : Again (.read first) (.read second)

end Event

/-- The last thing that was asked of the network, other than to close a socket. -/
def lastAsked (events : List Event) : Option Event := (events.filter (!·.isClose)).getLast?

theorem lastAsked_concat (before : List Event) {event : Event} (asks : event.isClose = false) :
    lastAsked (before ++ [event]) = some event := by
  simp [lastAsked, asks]

theorem lastAsked_close (events : List Event) : lastAsked (events ++ [.close]) = lastAsked events := by
  simp [lastAsked, Event.isClose]

/-! ## What is made again -/

/-- Every write or read that was interrupted is made again at once. -/
def Resumed (events : List Event) : Prop :=
  ∀ before event after, events = before ++ event :: after → event.isInterrupted = true →
    ∃ next later, after = next :: later ∧ event.Again next

theorem resumed_cons_iff {event : Event} {events : List Event} : Resumed (event :: events) ↔
    (event.isInterrupted = true → ∃ next later, events = next :: later ∧ event.Again next) ∧ Resumed events := by
  constructor
  · intro resumed
    refine ⟨resumed [] event events rfl, ?_⟩
    rintro before other after rfl
    exact resumed (event :: before) other after rfl
  · rintro ⟨first, rest⟩ before other after same
    cases before with
    | nil =>
      obtain ⟨rfl, rfl⟩ := List.cons.inj same
      exact first
    | cons _ before => exact rest before other after (List.cons.inj same).2

theorem resumed_nil : Resumed [] := by
  intro before event after same
  simp at same

theorem Resumed.append {first second : List Event} (earlier : Resumed first) (later : Resumed second) :
    Resumed (first ++ second) := by
  induction first with
  | nil => exact later
  | cons event first ih =>
    obtain ⟨here, rest⟩ := resumed_cons_iff.mp earlier
    refine resumed_cons_iff.mpr ⟨fun interrupted => ?_, ih rest⟩
    obtain ⟨next, after, rfl, again⟩ := here interrupted
    exact ⟨next, after ++ second, rfl, again⟩

theorem resumed_of_calm {events : List Event} (calm : ∀ event ∈ events, event.isInterrupted = false) :
    Resumed events := by
  rintro before event after rfl interrupted
  rw [calm event (by simp)] at interrupted
  exact absurd interrupted (by decide)

/-! ## What ends an attempt -/

/-- How an attempt goes, told by its events and the connection fault it ended with: none of the events
    is fatal, or the last one is and the fault says so. -/
inductive Fate (config : Config) : List Event → Option Fault → Prop
  | passed {events : List Event} (harmless : ∀ event ∈ events, event.isFatal = false) (resumed : Resumed events) :
      Fate config events none
  | failed {before : List Event} {event : Event} {fault : Fault} (harmless : ∀ event ∈ before, event.isFatal = false)
      (fatal : event.isFatal = true) (resumed : Resumed (before ++ [event])) (kind : fault.kind = .connection)
      (told : event.complaint? config = some fault.message) : Fate config (before ++ [event]) (some fault)

theorem Fate.after {config : Config} {first second : List Event} {fault? : Option Fault} (earlier : Fate config first none)
    (later : Fate config second fault?) : Fate config (first ++ second) fault? := by
  cases earlier with
  | passed quiet before =>
    cases later with
    | passed harmless resumed =>
      refine .passed (fun event member => ?_) (before.append resumed)
      exact (List.mem_append.mp member).elim (quiet event) (harmless event)
    | failed harmless fatal resumed kind told =>
      rw [← List.append_assoc]
      refine .failed (fun event member => ?_) fatal ?_ kind told
      · exact (List.mem_append.mp member).elim (quiet event) (harmless event)
      · rw [List.append_assoc]
        exact before.append resumed

/-- An attempt that passed by an event which did no harm. -/
theorem Fate.cons {config : Config} {event : Event} {events : List Event} {fault? : Option Fault}
    (harmless : event.isFatal = false) (again : event.isInterrupted = true → ∃ next later, events = next :: later ∧ event.Again next)
    (rest : Fate config events fault?) : Fate config (event :: events) fault? := by
  cases rest with
  | passed others resumed =>
    exact .passed (List.forall_mem_cons.mpr ⟨harmless, others⟩) (resumed_cons_iff.mpr ⟨again, resumed⟩)
  | @failed before last fault others fatal resumed kind told =>
    have whole : Resumed ((event :: before) ++ [last]) := resumed_cons_iff.mpr ⟨again, resumed⟩
    exact .failed (List.forall_mem_cons.mpr ⟨harmless, others⟩) fatal whole kind told

/-- An attempt that passed by an event which did no harm and was not interrupted. -/
theorem Fate.pass {config : Config} {event : Event} {events : List Event} {fault? : Option Fault}
    (harmless : event.isFatal = false) (calm : event.isInterrupted = false) (rest : Fate config events fault?) :
    Fate config (event :: events) fault? :=
  .cons harmless (fun interrupted => absurd (calm.symm.trans interrupted) Bool.false_ne_true) rest

/-- An attempt that ends with its first event. -/
theorem Fate.of_fatal {config : Config} {event : Event} {fault : Fault} (fatal : event.isFatal = true)
    (calm : event.isInterrupted = false) (kind : fault.kind = .connection)
    (told : event.complaint? config = some fault.message) : Fate config [event] (some fault) :=
  Fate.failed (List.forall_mem_nil _) fatal (resumed_of_calm (by simpa using calm)) kind told

theorem Fate.nil (config : Config) : Fate config [] none := .passed (by simp) resumed_nil

/-- The connection fault that something ended with, if it did. -/
def lost? {α : Type} : Except Fault α → Option Fault
  | .ok _ => none
  | .error fault => if fault.kind = .connection then some fault else none

theorem lost?_error {α : Type} {fault : Fault} (kind : fault.kind = .connection) :
    lost? (.error fault : Except Fault α) = some fault := if_pos kind

theorem Fate.kind {config : Config} {events : List Event} {fault : Fault} (fate : Fate config events (some fault)) :
    fault.kind = .connection := by
  cases fate with
  | failed harmless fatal resumed kind told => exact kind

/-! ## Sending and receiving -/

theorem Sending.offer_fate (config : Config) (left : Bytes) (writes : List WriteOutcome) :
    Fate config (offer left writes).events (offer left writes).fault := by
  fun_induction offer left writes with
  | case1 => exact .nil config
  | case2 left more => exact .pass (by simpa [Event.isFatal] using more) rfl (.nil config)
  | case3 => exact .nil config
  | case4 left writes more => exact .of_fatal rfl rfl rfl rfl
  | case5 left writes more count stalled ih =>
    have nonempty : 0 < left.length := List.length_pos_iff.mpr more
    have positive : 0 < count := Nat.pos_of_ne_zero fun zero => stalled (by rw [zero])
    refine .pass ?_ rfl ih
    simp only [Event.isFatal, decide_eq_false_iff_not]
    omega
  | case6 left writes more error again ih =>
    obtain ⟨answer, later, first⟩ := offer_offers more writes
    exact .cons (by simp [Event.isFatal, again]) (fun _ => ⟨_, later, first, .write⟩) ih
  | case7 left writes more error final =>
    refine .of_fatal (by simpa [Event.isFatal] using final) (by simpa [Event.isInterrupted] using final) rfl ?_
    rw [Event.complaint?, IoError.words_eq_stage]
    rfl

/-- Where no line is at hand a read is made. -/
theorem Intake.await_asks {pending : Bytes} (uncut : cut? pending = none) (reads : List ReadOutcome) :
    ∃ answer later, (await pending reads).events = .read answer :: later := by
  rw [await.eq_def, uncut]
  dsimp only
  split
  · exact ⟨_, _, rfl⟩
  · split
    · exact ⟨_, _, rfl⟩
    · exact ⟨_, _, rfl⟩
  · exact ⟨_, _, rfl⟩
  · exact ⟨_, _, rfl⟩

theorem Intake.await_fate (config : Config) (pending : Bytes) (reads : List ReadOutcome) :
    Fate config (await pending reads).events (lost? (await pending reads).line) := by
  have told : ∀ error : IoError,
      (Event.read (.error error)).complaint? config = some (Fault.receiveFailed error).message := by
    intro error
    rw [Event.complaint?, IoError.words_eq_stage]
    rfl
  fun_induction await pending reads with
  | case1 => exact .nil config
  | case2 pending uncut => exact .of_fatal rfl rfl rfl (told _)
  | case3 pending uncut error rest again ih =>
    obtain ⟨answer, later, first⟩ := await_asks uncut rest
    exact .cons (by simp [Event.isFatal, again]) (fun _ => ⟨_, later, first, .read⟩) ih
  | case4 pending uncut error rest final =>
    exact .of_fatal (by simpa [Event.isFatal] using final) (by simpa [Event.isInterrupted] using final) rfl (told _)
  | case5 pending uncut rest => exact .of_fatal rfl rfl rfl rfl
  | case6 pending uncut bytes rest present ih =>
    have nonempty := take_readSize_ne_nil present
    exact .pass (by simpa [Event.isFatal] using nonempty) rfl ih

namespace Connection

theorem receive_fate (config : Config) (connection : Connection) :
    Fate config connection.receive.2.2.events (lost? connection.receive.1) := by
  have fate := Intake.await_fate config connection.pending connection.reads
  rw [receive_eq]
  dsimp only
  cases result : (Intake.await connection.pending connection.reads).line with
  | error fault => rwa [result] at fate
  | ok bytes =>
    have kept : lost? (decode bytes) = none := by
      unfold decode
      cases Bytes.text? bytes <;> rfl
    rw [result] at fate
    dsimp only [Except.bind]
    rwa [kept]

theorem exchange_fate (config : Config) (connection : Connection) (line : String) :
    Fate config (connection.exchange line).2.2.events (lost? (connection.exchange line).1) := by
  have sending := Sending.offer_fate config (frame line) connection.writes
  cases stopped : (Sending.offer (frame line) connection.writes).fault with
  | some fault =>
    rw [stopped] at sending
    rw [exchange_of_fault stopped, lost?_error sending.kind]
    exact sending
  | none =>
    rw [stopped] at sending
    rw [exchange_of_sent stopped]
    exact sending.after ((connection.sentTo line).receive_fate config)

/-! ## Opening a connection -/

theorem configure_fate (config : Config) (timeout : Option Duration) (link : Link) :
    Fate config (configure timeout link).2 (configure timeout link).1 := by
  have readable : ∀ cause : IoError,
      (Event.readTimeout timeout (some cause)).complaint? config = some (Fault.timeoutNotSet cause).message :=
    fun cause => congrArg some (cause.words_eq_stage _)
  have prompt : ∀ cause : IoError,
      (Event.noDelay (some cause)).complaint? config = some (Fault.notConfigured cause).message :=
    fun cause => congrArg some (cause.words_eq_stage _)
  unfold configure
  cases link.readTimeout with
  | some cause => exact .of_fatal rfl rfl rfl (readable cause)
  | none =>
    cases link.writeTimeout with
    | some cause => exact .pass rfl rfl (.of_fatal rfl rfl rfl (readable cause))
    | none =>
      refine .pass rfl rfl (.pass rfl rfl ?_)
      cases link.noDelay with
      | some cause => exact .of_fatal rfl rfl rfl (prompt cause)
      | none => exact .pass rfl rfl (.nil config)

/-- An address that did not accept. -/
def refusal (timeout : Option Duration) (peer : Address) (cause : IoError) : Event := .connect peer timeout (some cause)

/-- Where no address accepts, all of them were tried, and the failure is that of the last. -/
theorem dial_error {timeout : Option Duration} {peers : List Address} {outcomes : List (Option IoError)}
    {last? : Option IoError} {tried : Trace} (failed : dial timeout peers outcomes = (.error last?, tried)) :
    ∃ causes : List IoError, causes.length = peers.length ∧ causes.getLast? = last? ∧
      tried.events = peers.zipWith (refusal timeout) causes := by
  induction peers generalizing outcomes last? tried with
  | nil =>
    obtain ⟨rfl, rfl⟩ : none = last? ∧ ({} : Trace) = tried := by simpa [dial] using failed
    exact ⟨[], rfl, rfl, rfl⟩
  | cons peer others ih =>
    rw [dial] at failed
    split at failed
    · simp at failed
    · rename_i cause _
      rcases rest : dial timeout others outcomes.tail with ⟨answer, trace⟩
      rw [rest] at failed
      cases answer with
      | ok found => simp at failed
      | error later? =>
        obtain ⟨causes, each, last, events⟩ := ih rest
        obtain ⟨rfl, rfl⟩ : some (later?.getD cause) = last? ∧
            ⟨[refusal timeout peer cause], [.connectFailed peer cause]⟩ ++ trace = tried := by
          cases later? <;> simpa [refusal] using failed
        refine ⟨cause :: causes, congrArg (· + 1) each, by rw [List.getLast?_cons, last], ?_⟩
        rw [Trace.events_append, events]
        rfl

/-- To dial is nothing but to try addresses. -/
theorem dial_connects (timeout : Option Duration) (peers : List Address) (outcomes : List (Option IoError)) :
    ∀ event ∈ (dial timeout peers outcomes).2.events, ∃ peer failure, event = .connect peer timeout failure := by
  induction peers generalizing outcomes with
  | nil => simp [dial]
  | cons peer others ih =>
    rw [dial]
    split
    · simp [Trace.ofEvent]
    · have later := ih outcomes.tail
      split <;> rename_i same <;> rw [same] at later <;> simpa using later

/-- How a call goes, told by its events and the connection fault it ended with: it passed, the server could not
    be reached, or a socket was given up. -/
inductive Told (config : Config) : List Event → Option Fault → Prop
  | passed {events : List Event} (fate : Fate config events none) : Told config events none
  | unresolved {answer : Except IoError (List String)} (barren : ∀ ips, answer = .ok ips → ips = []) :
      Told config [.resolve config.host config.port answer] (some (.unresolved config.host))
  | unreachable {ips : List String} {causes : List IoError} {cause : IoError} (each : causes.length = ips.length)
      (last : causes.getLast? = some cause) :
      Told config
        (.resolve config.host config.port (.ok ips) :: (peers config ips).zipWith (refusal config.socketTimeout) causes)
        (some (.unreachable config.host config.port cause))
  | failed {events : List Event} {fault : Fault} (fate : Fate config events (some fault)) :
      Told config (events ++ [.close]) (some fault)

theorem Told.fate {config : Config} {events : List Event} (told : Told config events none) : Fate config events none := by
  cases told with
  | passed fate => exact fate

theorem asking_fate (config : Config) (link : Link) : Fate config (asking config link).events none :=
  .pass rfl rfl (.nil config)

theorem dial_fate (config : Config) (timeout : Option Duration) (peers : List Address) (outcomes : List (Option IoError)) :
    Fate config (dial timeout peers outcomes).2.events none := by
  have connects := dial_connects timeout peers outcomes
  refine .passed (fun event member => ?_) (resumed_of_calm fun event member => ?_)
  · obtain ⟨peer, failure, rfl⟩ := connects event member
    rfl
  · obtain ⟨peer, failure, rfl⟩ := connects event member
    rfl

theorem establish_told (config : Config) (link : Link) :
    Told config (establish config link).2.events (lost? (establish config link).1) := by
  have way := establish_opening config link
  have asked := asking_fate config link
  have dials := fun ips => dial_fate config config.socketTimeout (peers config ips) link.connects
  have options := configure_fate config config.socketTimeout link
  generalize establish config link = result at way ⊢
  cases way with
  | @unresolved error resolved =>
    refine .unresolved fun ips same => ?_
    simp [resolved] at same
  | @homeless ips tried resolved dialled =>
    obtain ⟨causes, each, last, events⟩ := dial_error dialled
    obtain rfl := List.getLast?_eq_none_iff.mp last
    have addressless : ips = [] := by simpa [peers, eq_comm] using each
    have silent : tried.events = [] := by rw [events, List.zipWith_nil_right]
    rw [Trace.events_append, silent, List.append_nil]
    refine .unresolved fun others same => ?_
    obtain rfl : ips = others := by simpa [resolved] using same
    exact addressless
  | @unreachable ips tried cause resolved dialled =>
    obtain ⟨causes, each, last, events⟩ := dial_error dialled
    rw [Trace.events_append, events, asking, resolved]
    exact .unreachable (by simpa [peers] using each) last
  | @refused ips tried peer fault set resolved dialled configured =>
    have tries := dials ips
    rw [dialled] at tries
    rw [configured] at options
    have whole := (asked.after tries).after options
    rw [lost?_error options.kind, Trace.events_append, Trace.events_append, ← List.append_assoc]
    exact .failed whole
  | @opened ips tried peer set resolved dialled configured =>
    have tries := dials ips
    rw [dialled] at tries
    rw [configured] at options
    exact .passed ((asked.after tries).after options)

end Connection

/-! ## Calls -/

namespace Client
open Connection (Told)

theorem reach_told (client : Client) (network : Network) :
    Told client.config (client.reach network).2.2.events (lost? (client.reach network).1) := by
  cases connected : client.connection with
  | some connection =>
    rw [reach_of_connected connected]
    exact .passed (.nil _)
  | none =>
    rw [reach_of_disconnected connected]
    exact Connection.establish_told client.config network.link

theorem connect_told (client : Client) (network : Network) :
    Told client.config (client.connect network).trace.events (lost? (client.connect network).result) := by
  have told := client.reach_told network
  unfold connect
  rcases reach : client.reach network with ⟨fault | connection, rest, reached⟩ <;> rw [reach] at told <;> exact told

theorem close_told (client : Client) (network : Network) :
    Told client.config (client.close network).trace.events (lost? (client.close network).result) := by
  unfold close
  cases client.connection with
  | none => exact .passed (.nil _)
  | some connection => exact .passed (.pass rfl rfl (.nil _))

/-- What a line says is no connection fault. -/
theorem lost?_interpret (command : Command) (line : String) : lost? (command.interpret line) = none := by
  unfold Command.interpret
  split
  · rfl
  · split <;> rfl

theorem request_told (client : Client) (network : Network) (command : Command) :
    Told client.config (client.request network command).trace.events (lost? (client.request network command).result) := by
  have told := client.reach_told network
  unfold request
  rcases reach : client.reach network with ⟨fault | connection, rest, reached⟩
  · rw [reach] at told
    exact told
  · rw [reach] at told
    have before : Fate client.config reached.events none := told.fate
    have whole := before.after (connection.exchange_fate client.config command.line)
    rcases exchange : connection.exchange command.line with ⟨fault | line, after, exchanged⟩
    · rw [exchange] at whole
      simp only [exchange]
      by_cases kind : fault.kind = .connection
      · rw [lost?_error kind] at whole
        rw [if_pos kind, lost?_error kind]
        simpa [Trace.ofRecord] using Told.failed whole
      · have kept : lost? (.error fault : Except Fault String) = none := if_neg kind
        rw [kept] at whole
        rw [if_neg kind, lost?, if_neg kind]
        exact .passed whole
    · rw [exchange] at whole
      simp only [exchange]
      rw [lost?_interpret]
      simpa [Trace.ofRecord] using Told.passed whole

theorem perform_told (client : Client) (network : Network) (call : Call) :
    Told client.config (client.perform network call).trace.events (lost? (client.perform network call).result) := by
  cases call with
  | connect => exact client.connect_told network
  | close => exact client.close_told network
  | submit command =>
    show Told client.config (client.submit network command).trace.events (lost? (client.submit network command).result)
    unfold submit
    split
    · exact client.request_told network command
    · exact .passed (.nil _)

end Client

/-! ## What a fault says -/

/-- A message that names the cause of a connection fault, told by the events of the call that failed. -/
structure Names (config : Config) (events : List Event) (message : String) : Prop where
  /-- The message is in the words of the last thing that was asked of the network. -/
  last : ∃ event, lastAsked events = some event ∧ event.complaint? config = some message
  /-- If that was for the addresses of the host, there were none, and nothing else was asked. -/
  resolve : ∀ host port answer, lastAsked events = some (.resolve host port answer) →
    events = [.resolve config.host config.port answer] ∧ ∀ ips, answer = .ok ips → ips = []
  /-- If it was to connect, all addresses were tried in their order, and none accepted. -/
  connect : ∀ peer timeout failure, lastAsked events = some (.connect peer timeout failure) →
    ∃ ips causes, causes.length = ips.length ∧
      events = .resolve config.host config.port (.ok ips) ::
        (Connection.peers config ips).zipWith (Connection.refusal config.socketTimeout) causes

/-- What becomes of the failures of a call: some are made good at once, and all others that end an
    attempt end the call with a fault that says so. -/
structure Reported (config : Config) (outcome : Client.Outcome) : Prop where
  resumed : Resumed outcome.trace.events
  fatal : ∀ before event after, outcome.trace.events = before ++ event :: after → event.isFatal = true →
    after = [.close] ∧ ∃ fault, outcome.result = .error fault ∧ fault.kind = .connection ∧
      event.complaint? config = some fault.message

theorem lost?_eq_some {result : Except Fault Answer} {fault : Fault} (lost : lost? result = some fault) :
    result = .error fault ∧ fault.kind = .connection := by
  cases result with
  | ok answer => simp [lost?] at lost
  | error other =>
    by_cases kind : other.kind = .connection
    · rw [lost?_error kind] at lost
      obtain rfl := Option.some.inj lost
      exact ⟨rfl, kind⟩
    · simp [lost?, kind] at lost

namespace Connection

/-- The last of the attempts that were made in vain is at the last address. -/
theorem lastAsked_refusals {config : Config} {ips : List String} {causes : List IoError} {cause : IoError}
    (each : causes.length = ips.length) (last : causes.getLast? = some cause) (asked : Event) :
    ∃ peer, lastAsked (asked :: (peers config ips).zipWith (refusal config.socketTimeout) causes) =
      some (refusal config.socketTimeout peer cause) := by
  rcases List.eq_nil_or_concat causes with rfl | ⟨before, final, rfl⟩
  · simp at last
  obtain rfl : final = cause := by simpa using last
  rcases List.eq_nil_or_concat ips with rfl | ⟨others, ip, rfl⟩
  · simp at each
  refine ⟨⟨ip, config.port⟩, ?_⟩
  have size : (peers config others).length = before.length := by simpa [peers, eq_comm] using each
  have added : peers config (others ++ [ip]) = peers config others ++ [⟨ip, config.port⟩] := List.map_append
  rw [List.concat_eq_append, List.concat_eq_append, added, List.zipWith_append size, ← List.cons_append]
  exact lastAsked_concat _ rfl

/-- Attempts that were made in vain are not made again, and none of them is the last by itself. -/
theorem calm_refusals (timeout : Option Duration) (peers : List Address) (causes : List IoError) :
    ∀ event ∈ peers.zipWith (refusal timeout) causes, event.isFatal = false ∧ event.isInterrupted = false := by
  induction peers generalizing causes with
  | nil => simp
  | cons peer others ih =>
    cases causes with
    | nil => simp
    | cons cause causes => exact List.forall_mem_cons.mpr ⟨⟨rfl, rfl⟩, ih causes⟩

theorem Told.resumed {config : Config} {events : List Event} {fault? : Option Fault} (told : Told config events fault?) :
    Resumed events := by
  cases told with
  | passed fate =>
    cases fate with
    | passed harmless resumed => exact resumed
  | unresolved barren => exact resumed_of_calm (by simp [Event.isInterrupted])
  | @unreachable ips causes cause each last =>
    refine resumed_of_calm (List.forall_mem_cons.mpr ⟨rfl, fun event member => ?_⟩)
    exact (calm_refusals _ _ causes event member).2
  | failed fate =>
    cases fate with
    | failed harmless fatal resumed => exact resumed.append (resumed_of_calm (by simp [Event.isInterrupted]))

theorem Told.names {config : Config} {events : List Event} {fault : Fault} (told : Told config events (some fault)) :
    Names config events fault.message := by
  cases told with
  | unresolved barren =>
    refine ⟨⟨_, rfl, rfl⟩, ?_, nofun⟩
    rintro host port answer same
    obtain ⟨-, -, rfl⟩ := Event.resolve.inj (Option.some.inj same)
    exact ⟨rfl, barren⟩
  | @unreachable ips causes cause each last =>
    obtain ⟨peer, final⟩ := lastAsked_refusals each last (.resolve config.host config.port (.ok ips))
    refine ⟨⟨_, final, ?_⟩, ?_, fun _ _ _ _ => ⟨ips, causes, each, rfl⟩⟩
    · exact congrArg some (cause.words_eq_stage _)
    · rintro host port answer same
      rw [final] at same
      simp [refusal] at same
  | @failed started _ fate =>
    cases fate with
    | @failed before event _ harmless fatal resumed kind said =>
      have final : lastAsked (before ++ [event] ++ [.close]) = some event := by
        rw [lastAsked_close]
        refine lastAsked_concat before ?_
        cases event <;> first | rfl | simp [Event.isFatal] at fatal
      refine ⟨⟨event, final, said⟩, ?_, ?_⟩
      · rintro host port answer same
        obtain rfl : event = .resolve host port answer := Option.some.inj (final.symm.trans same)
        simp [Event.isFatal] at fatal
      · rintro peer timeout failure same
        obtain rfl : event = .connect peer timeout failure := Option.some.inj (final.symm.trans same)
        simp [Event.isFatal] at fatal

/-- Among events that did no harm but for the last, and the closing behind them, that one alone is fatal. -/
theorem eq_last_of_isFatal {started before after : List Event} {last event : Event}
    (harmless : ∀ event ∈ started, event.isFatal = false) (same : started ++ [last, .close] = before ++ event :: after)
    (fatal : event.isFatal = true) : last = event ∧ after = [.close] := by
  induction started generalizing before with
  | nil =>
    match before with
    | [] =>
      obtain ⟨rfl, rfl⟩ := List.cons.inj same
      exact ⟨rfl, rfl⟩
    | [_] =>
      obtain ⟨rfl, -⟩ := List.cons.inj (List.cons.inj same).2
      exact absurd fatal Bool.false_ne_true
    | _ :: _ :: more => simp at same
  | cons first started ih =>
    obtain ⟨here, others⟩ := List.forall_mem_cons.mp harmless
    cases before with
    | nil =>
      obtain ⟨rfl, -⟩ := List.cons.inj same
      exact absurd (here.symm.trans fatal) Bool.false_ne_true
    | cons _ before => exact ih others (List.cons.inj same).2

/-- An event that ends an attempt comes last of all but the closing, and the fault is in its words. -/
theorem Told.ends {config : Config} {events : List Event} {fault? : Option Fault} (told : Told config events fault?)
    {before after : List Event} {event : Event} (same : events = before ++ event :: after) (fatal : event.isFatal = true) :
    after = [.close] ∧ ∃ fault, fault? = some fault ∧ event.complaint? config = some fault.message := by
  have absent : ∀ {calm : List Event}, (∀ event ∈ calm, event.isFatal = false) → event ∉ calm := by
    intro calm harmless member
    rw [harmless event member] at fatal
    exact absurd fatal (by decide)
  have member : event ∈ events := by simp [same]
  cases told with
  | passed fate =>
    cases fate with
    | passed harmless => exact absurd member (absent harmless)
  | unresolved => exact absurd member (absent (by simp [Event.isFatal]))
  | @unreachable ips causes cause each last =>
    have calm := fun event member => (calm_refusals config.socketTimeout (peers config ips) causes event member).1
    exact absurd member (absent (List.forall_mem_cons.mpr ⟨rfl, calm⟩))
  | @failed _ fault fate =>
    cases fate with
    | @failed earlier final _ harmless last resumed kind said =>
      rw [List.append_assoc] at same
      obtain ⟨rfl, closed⟩ := eq_last_of_isFatal harmless same fatal
      exact ⟨closed, fault, rfl, said⟩

end Connection

/-- The message of a connection fault is in the words of the last thing that was asked of the network,
    closing aside; an interrupted write or read is made again, and any other failure of one, or of a
    socket option, is reported. -/
theorem Client.fault_named (client : Client) (network : Network) (call : Call) :
    (∀ fault, (client.perform network call).result = .error fault → fault.kind = .connection →
        Names client.config (client.perform network call).trace.events fault.message) ∧
      Reported client.config (client.perform network call) := by
  have told := client.perform_told network call
  refine ⟨fun fault failed kind => ?_, told.resumed, fun before event after same fatal => ?_⟩
  · rw [failed, lost?_error kind] at told
    exact told.names
  · obtain ⟨closed, fault, lost, said⟩ := told.ends same fatal
    obtain ⟨failed, kind⟩ := lost?_eq_some lost
    exact ⟨closed, fault, failed, kind, said⟩

/-- A link on which one address refuses and the other is interrupted. -/
def Link.unlucky : Link :=
  { addresses := .ok ["10.0.0.1", "10.0.0.2"],
    connects := [some .nobodyListens, some ⟨.interrupted, "Interrupted system call (os error 4)"⟩] }

/-- The last address tried gives the cause, and to connect is not tried again when it is interrupted. -/
theorem Client.fault_named_unlucky :
    let outcome := Client.perform ⟨{}, by decide, none⟩ [.unlucky] (.submit .ping)
    outcome.result.mapError Fault.report =
        .error ⟨.connection, "connect to 127.0.0.1:7379 failed: Interrupted system call (os error 4)"⟩ ∧
      Names {} outcome.trace.events "connect to 127.0.0.1:7379 failed: Interrupted system call (os error 4)" := by
  intro outcome
  have failed : outcome.result =
      .error (.unreachable "127.0.0.1" 7379 ⟨.interrupted, "Interrupted system call (os error 4)"⟩) := by
    decide +kernel
  obtain ⟨names, -⟩ := fault_named ⟨{}, by decide, none⟩ [.unlucky] (.submit .ping)
  have named := names _ failed rfl
  rw [failed]
  have message : (Fault.unreachable "127.0.0.1" 7379 ⟨.interrupted, "Interrupted system call (os error 4)"⟩).message =
      "connect to 127.0.0.1:7379 failed: Interrupted system call (os error 4)" := by
    decide +kernel
  rw [message] at named
  exact ⟨by decide +kernel, named⟩

end LineStore
