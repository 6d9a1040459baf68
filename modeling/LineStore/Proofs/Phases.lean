import LineStore.Proofs.Opening

/-!
The phases of a socket, as the network sees them. Each event leads from one phase to the next
(`Phase.Step`): addresses are asked for and tried in their order, the options of a new socket are
set, bytes are moved, and the socket is closed. Main statement: events that lead so from no socket
to no socket (`Phase.Run`) are in order (`Phase.Run.orderly`); there is never more than one socket,
every socket is closed once, and bytes are moved only over a socket that is open and has its options.
Where the addresses are asked for once, one socket is opened at most (`Phase.Run.oneSocket`).
-/
namespace LineStore

/-! ## The phases of a socket -/

/-- How far a client has come with a socket. -/
inductive Phase where
  /-- There is no socket. -/
  | closed
  /-- The addresses are known, and the next of them is to be tried. -/
  | dialling (next : Address) (others : List Address)
  /-- There is a socket, and none of its options is set. -/
  | dialled (peer : Address)
  /-- The timeout of reads is set. -/
  | readTimed (peer : Address)
  /-- Both timeouts are set. -/
  | bothTimed (peer : Address)
  /-- An option was refused, and the socket is to be closed. -/
  | refused (peer : Address)
  /-- The socket has all its options. -/
  | ready (peer : Address)
  deriving DecidableEq, Repr

namespace Phase

/-- The phase in which addresses are to be tried, if there are any. -/
def trying : List Address → Phase
  | [] => .closed
  | next :: others => .dialling next others

/-- The phase of a client that is connected to an address or to none. -/
def ofPeer? : Option Address → Phase
  | none => .closed
  | some peer => .ready peer

/-- What may happen in each phase, and the phase that it leads to. -/
inductive Step : Phase → Event → Phase → Prop
  | unresolved {host : String} {port : UInt16} {error : IoError} : Step .closed (.resolve host port (.error error)) .closed
  | resolved {host : String} {port : UInt16} {ips : List String} :
      Step .closed (.resolve host port (.ok ips)) (trying (ips.map (⟨·, port⟩)))
  | failed {peer : Address} {others : List Address} {timeout : Option Duration} {error : IoError} :
      Step (.dialling peer others) (.connect peer timeout (some error)) (trying others)
  | connected {peer : Address} {others : List Address} {timeout : Option Duration} :
      Step (.dialling peer others) (.connect peer timeout none) (.dialled peer)
  | readTimeout {peer : Address} {timeout : Option Duration} :
      Step (.dialled peer) (.readTimeout timeout none) (.readTimed peer)
  | readTimeoutRefused {peer : Address} {timeout : Option Duration} {error : IoError} :
      Step (.dialled peer) (.readTimeout timeout (some error)) (.refused peer)
  | writeTimeout {peer : Address} {timeout : Option Duration} :
      Step (.readTimed peer) (.writeTimeout timeout none) (.bothTimed peer)
  | writeTimeoutRefused {peer : Address} {timeout : Option Duration} {error : IoError} :
      Step (.readTimed peer) (.writeTimeout timeout (some error)) (.refused peer)
  | noDelay {peer : Address} : Step (.bothTimed peer) (.noDelay none) (.ready peer)
  | noDelayRefused {peer : Address} {error : IoError} : Step (.bothTimed peer) (.noDelay (some error)) (.refused peer)
  | givenUp {peer : Address} : Step (.refused peer) .close .closed
  | write {peer : Address} {offered : Bytes} {answer : Except IoError Nat} :
      Step (.ready peer) (.write offered answer) (.ready peer)
  | read {peer : Address} {answer : Except IoError Bytes} : Step (.ready peer) (.read answer) (.ready peer)
  | close {peer : Address} : Step (.ready peer) .close .closed

/-- Events that happen one after another, each in the phase that the one before leads to. -/
inductive Run : Phase → List Event → Phase → Prop
  | nil {phase : Phase} : Run phase [] phase
  | cons {first second last : Phase} {event : Event} {events : List Event} (step : Step first event second)
      (later : Run second events last) : Run first (event :: events) last

theorem Run.append {first second last : Phase} {before after : List Event} (earlier : Run first before second)
    (later : Run second after last) : Run first (before ++ after) last := by
  induction earlier with
  | nil => exact later
  | cons step _ ih => exact .cons step (ih later)

theorem Run.of_append {first last : Phase} {before after : List Event} (run : Run first (before ++ after) last) :
    ∃ second, Run first before second ∧ Run second after last := by
  induction before generalizing first with
  | nil => exact ⟨first, .nil, run⟩
  | cons event before ih =>
    cases run with
    | cons step later =>
      obtain ⟨second, earlier, rest⟩ := ih later
      exact ⟨second, .cons step earlier, rest⟩

theorem Step.unique {first second other : Phase} {event : Event} (step : Step first event second)
    (again : Step first event other) : other = second := by
  cases step <;> cases again <;> rfl

/-- Events lead to one phase at most. -/
theorem Run.unique {first last other : Phase} {events : List Event} (run : Run first events last)
    (again : Run first events other) : other = last := by
  induction run with
  | nil =>
    cases again
    rfl
  | cons step _ ih =>
    cases again with
    | cons other later =>
      obtain rfl := step.unique other
      exact ih later

theorem run_of_transfers {events : List Event} (transfers : ∀ event ∈ events, event.isTransfer = true) (peer : Address) :
    Run (.ready peer) events (.ready peer) := by
  induction events with
  | nil => exact .nil
  | cons event events ih =>
    obtain ⟨first, rest⟩ := List.forall_mem_cons.mp transfers
    cases event with
    | write => exact .cons .write (ih rest)
    | read => exact .cons .read (ih rest)
    | _ => simp [Event.isTransfer] at first

end Phase

/-! ## Sockets counted -/

/-- The address to which an event opens a socket, if it does. -/
def Event.opened? : Event → Option Address
  | .connect peer _ none => some peer
  | _ => none

def Event.isClose : Event → Bool
  | .close => true
  | _ => false

theorem Event.eq_close_of_isClose (event : Event) (closes : event.isClose = true) : event = .close := by
  cases event <;> simp_all [isClose]

/-- The addresses of the sockets that are opened in some events, in order. -/
def opened (events : List Event) : List Address := events.filterMap Event.opened?

/-- How many sockets are closed in some events. -/
def closings (events : List Event) : Nat := events.countP Event.isClose

@[simp] theorem opened_append (before after : List Event) : opened (before ++ after) = opened before ++ opened after :=
  List.filterMap_append

@[simp] theorem closings_append (before after : List Event) :
    closings (before ++ after) = closings before + closings after :=
  List.countP_append

theorem opened_cons (event : Event) (events : List Event) : opened (event :: events) = opened [event] ++ opened events :=
  opened_append [event] events

theorem closings_cons (event : Event) (events : List Event) :
    closings (event :: events) = closings [event] + closings events :=
  closings_append [event] events

theorem opened_of_transfers {events : List Event} (transfers : ∀ event ∈ events, event.isTransfer = true) :
    opened events = [] := by
  refine List.filterMap_eq_nil_iff.mpr fun event member => ?_
  have transfer := transfers event member
  cases event <;> simp_all [Event.isTransfer, Event.opened?]

namespace Phase

/-- How many sockets there are. -/
def sockets : Phase → Nat
  | .closed | .dialling .. => 0
  | .dialled _ | .readTimed _ | .bothTimed _ | .refused _ | .ready _ => 1

theorem sockets_le_one (phase : Phase) : phase.sockets ≤ 1 := by
  cases phase <;> simp [sockets]

theorem sockets_trying (peers : List Address) : (trying peers).sockets = 0 := by
  cases peers <;> rfl

theorem Step.sockets {first second : Phase} {event : Event} (step : Step first event second) :
    first.sockets + (opened [event]).length = second.sockets + closings [event] := by
  cases step with
  | resolved => rw [sockets_trying]; rfl
  | failed => rw [sockets_trying]; rfl
  | _ => rfl

/-- There are as many sockets more as are opened, and as many less as are closed. -/
theorem Run.sockets {first last : Phase} {events : List Event} (run : Run first events last) :
    first.sockets + (opened events).length = last.sockets + closings events := by
  induction run with
  | nil => rfl
  | @cons first second last event events step _ ih =>
    have one := step.sockets
    rw [opened_cons, closings_cons, List.length_append]
    omega

/-- A socket that is there and in the end is not was closed, and no other was opened before that. -/
theorem Run.exists_close {first last : Phase} {events : List Event} (run : Run first events last)
    (there : first.sockets = 1) (gone : last.sockets = 0) :
    ∃ during rest, events = during ++ .close :: rest ∧ opened during = [] ∧ closings during = 0 := by
  induction run with
  | nil => omega
  | @cons first second last event events step _ ih =>
    have one := step.sockets
    have most := second.sockets_le_one
    by_cases closes : event.isClose = true
    · obtain rfl := event.eq_close_of_isClose closes
      exact ⟨[], events, rfl, rfl, rfl⟩
    · -- There is no room for a second socket, so the event leaves the one that there is.
      have unclosed : closings [event] = 0 := by simp [closings, closes]
      have unopened : opened [event] = [] := List.length_eq_zero_iff.mp (by omega)
      have kept : second.sockets = 1 := by omega
      obtain ⟨during, rest, rfl, quiet, still⟩ := ih kept gone
      refine ⟨event :: during, rest, rfl, ?_, ?_⟩
      · rw [opened_cons, unopened, quiet, List.append_nil]
      · rw [closings_cons, unclosed, still]

end Phase

/-! ## What has come before -/

/-- The last socket that was opened in some events leads to an address, and such events came after it. -/
def Since (peer : Address) (later events : List Event) : Prop :=
  ∃ earlier timeout, events = earlier ++ .connect peer timeout none :: later

/-- The last socket that was opened in some events was given all its options, and nothing but bytes
    were moved over it since. -/
def Configured (peer : Address) (events : List Event) : Prop :=
  ∃ reading writing moved,
    Since peer (.readTimeout reading none :: .writeTimeout writing none :: .noDelay none :: moved) events ∧
      ∀ event ∈ moved, event.isTransfer = true

theorem Since.snoc {peer : Address} {later events : List Event} (since : Since peer later events) (event : Event) :
    Since peer (later ++ [event]) (events ++ [event]) := by
  obtain ⟨earlier, timeout, rfl⟩ := since
  exact ⟨earlier, timeout, by simp⟩

theorem Configured.snoc {peer : Address} {events : List Event} (configured : Configured peer events) {event : Event}
    (transfer : event.isTransfer = true) : Configured peer (events ++ [event]) := by
  obtain ⟨reading, writing, moved, since, transfers⟩ := configured
  refine ⟨reading, writing, moved ++ [event], since.snoc event, ?_⟩
  simpa [or_imp, forall_and, transfer] using transfers

/-- The socket that is open is the last one that was opened. -/
theorem Configured.getLast?_opened {peer : Address} {events : List Event} (configured : Configured peer events) :
    (opened events).getLast? = some peer := by
  obtain ⟨reading, writing, moved, ⟨earlier, timeout, rfl⟩, transfers⟩ := configured
  have options : opened (.connect peer timeout none :: .readTimeout reading none :: .writeTimeout writing none ::
      .noDelay none :: moved) = peer :: opened moved := rfl
  rw [opened_append, options, opened_of_transfers transfers, List.getLast?_concat]

namespace Phase

/-- What must have happened for a socket to be in a phase. -/
def Reached : Phase → List Event → Prop
  | .closed, _ | .dialling .., _ | .refused _, _ => True
  | .dialled peer, events => Since peer [] events
  | .readTimed peer, events => ∃ reading, Since peer [.readTimeout reading none] events
  | .bothTimed peer, events =>
    ∃ reading writing, Since peer [.readTimeout reading none, .writeTimeout writing none] events
  | .ready peer, events => Configured peer events

theorem reached_trying (peers : List Address) (events : List Event) : Reached (trying peers) events := by
  cases peers <;> trivial

theorem Step.reached {first second : Phase} {event : Event} (step : Step first event second) {events : List Event}
    (before : first.Reached events) : second.Reached (events ++ [event]) := by
  cases step with
  | unresolved | readTimeoutRefused | writeTimeoutRefused | noDelayRefused | givenUp | close => trivial
  | resolved => exact reached_trying _ _
  | failed => exact reached_trying _ _
  | connected => exact ⟨events, _, rfl⟩
  | readTimeout => exact ⟨_, Since.snoc before _⟩
  | writeTimeout =>
    obtain ⟨reading, since⟩ := before
    exact ⟨reading, _, since.snoc _⟩
  | noDelay =>
    obtain ⟨reading, writing, since⟩ := before
    exact ⟨reading, writing, [], since.snoc _, by simp⟩
  | write => exact Configured.snoc before rfl
  | read => exact Configured.snoc before rfl

/-- What must have happened for a phase has happened once events have led to it. -/
theorem Run.reached {first last : Phase} {events : List Event} (run : Run first events last) {past : List Event}
    (before : first.Reached past) : last.Reached (past ++ events) := by
  induction run generalizing past with
  | nil => simpa using before
  | cons step _ ih =>
    have later := ih (step.reached before)
    rwa [List.append_assoc] at later

theorem Run.reached_of_closed {last : Phase} {events : List Event} (run : Run .closed events last) :
    last.Reached events := by
  have reached : last.Reached ([] ++ events) := run.reached trivial
  rwa [List.nil_append] at reached

/-- Only a socket that is ready moves bytes. -/
theorem Step.ready_of_transfer {first second : Phase} {event : Event} (step : Step first event second)
    (transfer : event.isTransfer = true) : ∃ peer, first = .ready peer := by
  cases step with
  | write => exact ⟨_, rfl⟩
  | read => exact ⟨_, rfl⟩
  | _ => simp [Event.isTransfer] at transfer

end Phase

/-! ## From no socket to no socket -/

/-- Events in which sockets are used one after another and as they should be. -/
structure Orderly (events : List Event) : Prop where
  phases : Phase.Run .closed events .closed
  /-- Up to any point at most one of the sockets opened is not yet closed, and none is closed twice. -/
  single : ∀ past, past <+: events →
    closings past ≤ (opened past).length ∧ (opened past).length ≤ closings past + 1
  /-- Every socket that is opened is closed, and no other is opened before that. -/
  matched : ∀ past peer timeout later, events = past ++ .connect peer timeout none :: later →
    ∃ during rest, later = during ++ .close :: rest ∧ opened during = [] ∧ closings during = 0
  /-- In the end as many sockets are closed as were opened. -/
  balanced : (opened events).length = closings events
  /-- Bytes are moved only over the last socket opened, once it has its options and until it is closed. -/
  configured : ∀ past event, past ++ [event] <+: events → event.isTransfer = true → ∃ peer, Configured peer past

theorem Phase.Run.orderly {events : List Event} (run : Run .closed events .closed) : Orderly events where
  phases := run
  single := by
    rintro past ⟨later, rfl⟩
    obtain ⟨phase, earlier, -⟩ := run.of_append
    have count : 0 + (opened past).length = phase.sockets + closings past := earlier.sockets
    have one := phase.sockets_le_one
    omega
  matched := by
    rintro past peer timeout later rfl
    obtain ⟨phase, -, rest⟩ := run.of_append
    cases rest with
    | cons step after =>
      cases step with
      | connected => exact after.exists_close rfl rfl
  balanced := by
    have count : 0 + (opened events).length = 0 + closings events := run.sockets
    omega
  configured := by
    rintro past event ⟨later, rfl⟩ transfer
    rw [List.append_assoc] at run
    obtain ⟨phase, earlier, rest⟩ := run.of_append
    cases rest with
    | cons step _ =>
      obtain ⟨peer, rfl⟩ := step.ready_of_transfer transfer
      exact ⟨peer, earlier.reached_of_closed⟩

/-! ## Events that ask for the addresses once -/

/-- In some events no socket is opened, or one is, and no bytes are moved before it is there. -/
inductive OneSocket (events : List Event) : Prop
  | unopened (same : opened events = [])
  | opens {before after : List Event} {peer : Address} {timeout : Option Duration}
      (split : events = before ++ .connect peer timeout none :: after) (first : opened before = [])
      (only : opened after = []) (still : ∀ event ∈ before, event.isTransfer = false)

theorem OneSocket.cons {event : Event} {events : List Event} (one : OneSocket events) (idle : opened [event] = [])
    (quiet : event.isTransfer = false) : OneSocket (event :: events) := by
  cases one with
  | unopened same => exact .unopened (by rw [opened_cons, idle, same]; rfl)
  | @opens before after peer timeout split first only still =>
    have longer : event :: events = (event :: before) ++ .connect peer timeout none :: after := by
      rw [split]
      rfl
    refine .opens longer ?_ only (List.forall_mem_cons.mpr ⟨quiet, still⟩)
    rw [opened_cons, idle, first]
    rfl

theorem Event.idle_of_resolve {event : Event} (asks : event.isResolve = true) :
    opened [event] = [] ∧ event.isTransfer = false := by
  cases event with
  | resolve => exact ⟨rfl, rfl⟩
  | _ => simp [isResolve] at asks

namespace Phase

/-- Where there is a socket, no other is opened, and it stays until it is closed. -/
theorem Step.of_socket {first second : Phase} {event : Event} (step : Step first event second) (there : first.sockets = 1) :
    opened [event] = [] ∧ (second = .closed ∨ second.sockets = 1) := by
  cases step with
  | unresolved | resolved | failed | connected => simp [Phase.sockets] at there
  | givenUp | close => exact ⟨rfl, .inl rfl⟩
  | _ => exact ⟨rfl, .inr rfl⟩

/-- Without a socket nothing happens before the addresses are asked for. -/
theorem Run.eq_nil_of_closed {last : Phase} {events : List Event} (run : Run .closed events last)
    (unasked : ∀ event ∈ events, event.isResolve = false) : events = [] := by
  cases run with
  | nil => rfl
  | cons step later =>
    have first := unasked _ List.mem_cons_self
    cases step <;> simp [Event.isResolve] at first

theorem Run.opened_of_socket {first last : Phase} {events : List Event} (run : Run first events last)
    (there : first.sockets = 1) (unasked : ∀ event ∈ events, event.isResolve = false) : opened events = [] := by
  induction run with
  | nil => rfl
  | @cons first second last event events step later ih =>
    obtain ⟨-, rest⟩ := List.forall_mem_cons.mp unasked
    obtain ⟨idle, rfl | still⟩ := step.of_socket there
    · rw [later.eq_nil_of_closed rest, idle]
    · rw [opened_cons, idle, ih still rest]
      rfl

/-- Where the addresses are known or a socket is there, one socket more is opened at most. -/
theorem Run.oneSocket_of_unasked {first last : Phase} {events : List Event} (run : Run first events last)
    (unasked : ∀ event ∈ events, event.isResolve = false) : OneSocket events := by
  induction run with
  | nil => exact .unopened rfl
  | @cons first second last event events step later ih =>
    obtain ⟨asks, rest⟩ := List.forall_mem_cons.mp unasked
    by_cases there : first.sockets = 1
    · exact .unopened ((Run.cons step later).opened_of_socket there unasked)
    · cases step with
      | unresolved | resolved => simp [Event.isResolve] at asks
      | failed => exact (ih rest).cons rfl rfl
      | connected => exact .opens (List.nil_append _).symm rfl (later.opened_of_socket rfl rest) (by simp)
      | _ => exact absurd rfl there

/-- Where the addresses are asked for at the beginning or not at all, one socket is opened at most. -/
theorem Run.oneSocket {first last : Phase} {events : List Event} (run : Run first events last)
    (once : ∀ event ∈ events.tail, event.isResolve = false) : OneSocket events := by
  cases run with
  | nil => exact .unopened rfl
  | @cons _ second _ event events step later =>
    have rest : OneSocket events := later.oneSocket_of_unasked once
    cases asks : event.isResolve with
    | true =>
      obtain ⟨idle, quiet⟩ := Event.idle_of_resolve asks
      exact rest.cons idle quiet
    | false => exact (Run.cons step later).oneSocket_of_unasked (List.forall_mem_cons.mpr ⟨asks, once⟩)

end Phase
end LineStore
