import LineStore.Connection.Basic
import LineStore.Proofs.Acceptance

/-!
What opening a connection does and does not. There are five ways it may go (`Opening`), and
`establish_opening` says that it always goes one of them. It asks for the addresses of the host
first and only once, and moves no bytes (`establish_events`); the connection it gives has received
nothing and has the link's writes and reads before it (`establish_ok`); and it never looks at them
(`establish_scripts`). It succeeds on a link where one of the attempts does and no option is
refused (`establish_of_opens`).
-/
namespace LineStore

namespace Event

/-- Asks for the addresses of the host. -/
def isResolve : Event → Bool
  | .resolve .. => true
  | _ => false

/-- Moves bytes, or tries to. -/
def isTransfer : Event → Bool
  | .write .. | .read _ => true
  | _ => false

/-- Tries an address, or sets an option of a new socket. -/
def isSetup : Event → Bool
  | .connect .. | .readTimeout .. | .writeTimeout .. | .noDelay _ => true
  | _ => false

theorem not_resolve_of_setup {event : Event} (setup : event.isSetup = true) : event.isResolve = false := by
  cases event <;> simp_all [isSetup, isResolve]

theorem not_transfer_of_setup {event : Event} (setup : event.isSetup = true) : event.isTransfer = false := by
  cases event <;> simp_all [isSetup, isTransfer]

theorem not_resolve_of_transfer {event : Event} (transfer : event.isTransfer = true) : event.isResolve = false := by
  cases event <;> simp_all [isTransfer, isResolve]

theorem accepted_of_not_transfer {event : Event} (still : event.isTransfer = false) : event.accepted = [] := by
  cases event <;> simp_all [isTransfer, accepted]

end Event

theorem Trace.accepted_eq_nil {trace : Trace} (still : ∀ event ∈ trace.events, event.isTransfer = false) :
    trace.accepted = [] :=
  List.flatMap_eq_nil_iff.mpr fun event member => Event.accepted_of_not_transfer (still event member)

/-- An attempt to connect succeeds and no option is refused. -/
def Link.Opens (link : Link) : Prop :=
  ∃ ips, link.addresses = .ok ips ∧ ∃ i < ips.length, link.connects[i]?.join = none ∧
    link.readTimeout = none ∧ link.writeTimeout = none ∧ link.noDelay = none

namespace Connection

/-! ## The steps of opening -/

theorem dial_events (timeout : Option Duration) (peers : List Address) (outcomes : List (Option IoError)) :
    ∀ event ∈ (dial timeout peers outcomes).2.events, event.isSetup = true := by
  induction peers generalizing outcomes with
  | nil => simp [dial]
  | cons peer others ih =>
    rw [dial]
    split
    · simp [Trace.ofEvent, Event.isSetup]
    · have later := ih outcomes.tail
      split <;> rename_i same <;> rw [same] at later <;> simpa [Event.isSetup] using later

/-- An attempt that succeeds, if all before it are made, gives a connection. -/
theorem dial_ok {timeout : Option Duration} {peers : List Address} {outcomes : List (Option IoError)} {i : Nat}
    (inside : i < peers.length) (success : outcomes[i]?.join = none) :
    ∃ peer, (dial timeout peers outcomes).1 = .ok peer := by
  induction peers generalizing outcomes i with
  | nil => simp at inside
  | cons peer others ih =>
    rw [dial]
    split
    · exact ⟨peer, rfl⟩
    · rename_i failure first
      cases i with
      | zero => simp_all [List.head?_eq_getElem?]
      | succ i =>
        have later : outcomes.tail[i]?.join = none := by rw [List.getElem?_tail]; exact success
        obtain ⟨found, dialled⟩ := ih (by simpa using inside) later
        rcases rest : dial timeout others outcomes.tail with ⟨answer, trace⟩
        rw [rest] at dialled
        obtain rfl : answer = .ok found := dialled
        exact ⟨found, rfl⟩

theorem configure_events (timeout : Option Duration) (link : Link) :
    ∀ event ∈ (configure timeout link).2, event.isSetup = true := by
  unfold configure
  split
  · simp [Event.isSetup]
  · dsimp only
    split <;> simp [Event.isSetup]

theorem configure_fault {timeout : Option Duration} {link : Link} {fault : Fault}
    (refused : (configure timeout link).1 = some fault) : fault.kind = .connection := by
  unfold configure at refused
  split at refused
  · obtain rfl := Option.some.inj refused
    rfl
  · dsimp only at refused
    split at refused
    · obtain rfl := Option.some.inj refused
      rfl
    · obtain ⟨cause, -, rfl⟩ := Option.map_eq_some_iff.mp refused
      rfl

/-! ## The ways of opening -/

/-- The first event of an opening. -/
def asking (config : Config) (link : Link) : Trace := .ofEvent (.resolve config.host config.port link.addresses)

/-- The addresses of a configured server. -/
def peers (config : Config) (ips : List String) : List Address := ips.map (⟨·, config.port⟩)

/-- How opening a connection may go. -/
inductive Opening (config : Config) (link : Link) : Except Fault Connection × Trace → Prop
  | unresolved {error : IoError} (resolved : link.addresses = .error error) :
      Opening config link (.error (.unresolved config.host), asking config link)
  | homeless {ips : List String} {tried : Trace} (resolved : link.addresses = .ok ips)
      (dialled : dial config.socketTimeout (peers config ips) link.connects = (.error none, tried)) :
      Opening config link (.error (.unresolved config.host), asking config link ++ tried)
  | unreachable {ips : List String} {tried : Trace} {cause : IoError} (resolved : link.addresses = .ok ips)
      (dialled : dial config.socketTimeout (peers config ips) link.connects = (.error (some cause), tried)) :
      Opening config link (.error (.unreachable config.host config.port cause), asking config link ++ tried)
  | refused {ips : List String} {tried : Trace} {peer : Address} {fault : Fault} {set : List Event}
      (resolved : link.addresses = .ok ips)
      (dialled : dial config.socketTimeout (peers config ips) link.connects = (.ok peer, tried))
      (configured : configure config.socketTimeout link = (some fault, set)) :
      Opening config link (.error fault, asking config link ++ tried ++ ⟨set ++ [.close], []⟩)
  | opened {ips : List String} {tried : Trace} {peer : Address} {set : List Event} (resolved : link.addresses = .ok ips)
      (dialled : dial config.socketTimeout (peers config ips) link.connects = (.ok peer, tried))
      (configured : configure config.socketTimeout link = (none, set)) :
      Opening config link
        (.ok { peer, writes := link.writes, reads := link.reads }, asking config link ++ tried ++ ⟨set, [.connected peer]⟩)

theorem establish_opening (config : Config) (link : Link) : Opening config link (establish config link) := by
  unfold establish
  cases resolved : link.addresses with
  | error error =>
    have asked : asking config link = .ofEvent (.resolve config.host config.port (.error error)) := by rw [asking, resolved]
    rw [← asked]
    exact .unresolved resolved
  | ok ips =>
    have asked : asking config link = .ofEvent (.resolve config.host config.port (.ok ips)) := by rw [asking, resolved]
    dsimp only
    rw [← asked]
    rcases dialled : dial config.socketTimeout (ips.map (⟨·, config.port⟩)) link.connects with ⟨(_ | cause) | peer, tried⟩
    · exact .homeless resolved dialled
    · exact .unreachable resolved dialled
    · rcases configured : configure config.socketTimeout link with ⟨_ | fault, set⟩
      · exact .opened resolved dialled configured
      · exact .refused resolved dialled configured

/-! ## What all the ways have in common -/

variable {config : Config} {link : Link}

/-- What is asked of the network to open a connection: the addresses first and only once, and no
    bytes are moved. -/
theorem establish_events (config : Config) (link : Link) :
    ∃ later, (establish config link).2.events = .resolve config.host config.port link.addresses :: later ∧
      ∀ event ∈ later, event.isResolve = false ∧ event.isTransfer = false := by
  have way := establish_opening config link
  generalize establish config link = result at way ⊢
  have plain : ∀ {events : List Event}, (∀ event ∈ events, event.isSetup = true) →
      ∀ event ∈ events, event.isResolve = false ∧ event.isTransfer = false := fun setup event member =>
    ⟨Event.not_resolve_of_setup (setup event member), Event.not_transfer_of_setup (setup event member)⟩
  have dialled := fun ips => plain (dial_events config.socketTimeout (peers config ips) link.connects)
  have options := plain (configure_events config.socketTimeout link)
  cases way with
  | unresolved resolved => exact ⟨[], rfl, by simp⟩
  | @homeless ips tried resolved same => exact ⟨tried.events, rfl, by simpa [same] using dialled ips⟩
  | @unreachable ips tried cause resolved same => exact ⟨tried.events, rfl, by simpa [same] using dialled ips⟩
  | @refused ips tried peer fault set resolved same configured =>
    refine ⟨tried.events ++ (set ++ [.close]), by simp [asking, Trace.ofEvent], ?_⟩
    have tries := dialled ips
    rw [same] at tries
    rw [configured] at options
    intro event member
    simp only [List.mem_append, List.mem_singleton] at member
    rcases member with member | member | rfl
    · exact tries event member
    · exact options event member
    · exact ⟨rfl, rfl⟩
  | @opened ips tried peer set resolved same configured =>
    refine ⟨tried.events ++ set, by simp [asking, Trace.ofEvent], ?_⟩
    have tries := dialled ips
    rw [same] at tries
    rw [configured] at options
    intro event member
    rcases List.mem_append.mp member with member | member
    · exact tries event member
    · exact options event member

/-- A connection that was opened has received nothing, and the link's writes and reads are to come. -/
theorem establish_ok {connection : Connection} (success : (establish config link).1 = .ok connection) :
    connection.writes = link.writes ∧ connection.reads = link.reads ∧ connection.pending = [] := by
  have way := establish_opening config link
  generalize establish config link = result at way success
  cases way with
  | opened resolved dialled configured =>
    obtain rfl := Except.ok.inj success
    exact ⟨rfl, rfl, rfl⟩
  | _ => simp at success

/-- A connection that was opened was not closed on the way. -/
theorem close_notMem_establish {connection : Connection} (success : (establish config link).1 = .ok connection) :
    .close ∉ (establish config link).2.events := by
  have way := establish_opening config link
  generalize establish config link = result at way success ⊢
  cases way with
  | @opened ips tried peer set resolved same configured =>
    have tries := dial_events config.socketTimeout (peers config ips) link.connects
    have options := configure_events config.socketTimeout link
    rw [same] at tries
    rw [configured] at options
    intro member
    simp only [asking, Trace.ofEvent, Trace.events_append, List.mem_append, List.mem_singleton, reduceCtorEq, false_or] at member
    rcases member with member | member
    · exact absurd (tries _ member) (by decide)
    · exact absurd (options _ member) (by decide)
  | _ => simp at success

/-- Whatever keeps a connection from being opened is a connection fault. -/
theorem establish_error {fault : Fault} (failed : (establish config link).1 = .error fault) :
    fault.kind = .connection := by
  have way := establish_opening config link
  generalize establish config link = result at way failed
  cases way with
  | unresolved resolved => obtain rfl := Except.error.inj failed; rfl
  | homeless resolved dialled => obtain rfl := Except.error.inj failed; rfl
  | unreachable resolved dialled => obtain rfl := Except.error.inj failed; rfl
  | refused resolved dialled configured =>
    obtain rfl := Except.error.inj failed
    exact configure_fault (by rw [configured])
  | opened resolved dialled configured => simp at failed

/-- Opening does not look at what will become of the writes and reads. -/
theorem establish_scripts (config : Config) (link : Link) (writes : List WriteOutcome) (reads : List ReadOutcome) :
    establish config { link with writes, reads } =
      ((establish config link).1.map fun connection => { connection with writes, reads }, (establish config link).2) := by
  have same : configure config.socketTimeout { link with writes, reads } = configure config.socketTimeout link := rfl
  unfold establish
  rw [same]
  rcases configure config.socketTimeout link with ⟨_ | fault, set⟩
  all_goals
    cases link.addresses with
    | error _ => rfl
    | ok ips =>
      dsimp only
      rcases dial config.socketTimeout (ips.map (⟨·, config.port⟩)) link.connects with ⟨(_ | cause) | peer, tried⟩ <;> rfl

theorem establish_of_opens (config : Config) (opens : link.Opens) :
    ∃ connection, (establish config link).1 = .ok connection := by
  obtain ⟨ips, resolved, i, inside, success, readable, writable, prompt⟩ := opens
  obtain ⟨peer, dialled⟩ : ∃ peer, (dial config.socketTimeout (ips.map (⟨·, config.port⟩)) link.connects).1 = .ok peer :=
    dial_ok (by simpa using inside) success
  have configured : (configure config.socketTimeout link).1 = none := by simp [configure, readable, writable, prompt]
  rcases found : dial config.socketTimeout (ips.map (⟨·, config.port⟩)) link.connects with ⟨answer, tried⟩
  rcases options : configure config.socketTimeout link with ⟨refused, set⟩
  rw [found] at dialled
  rw [options] at configured
  obtain rfl : answer = .ok peer := dialled
  obtain rfl : refused = none := configured
  unfold establish
  simp only [resolved, found, options]
  exact ⟨_, rfl⟩

end Connection
end LineStore
