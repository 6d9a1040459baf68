import LineStore.Proofs.Turns
import Mathlib.Data.List.Forall2

/-!
How a socket cuts what it moves is invisible. Where two networks differ only in the pieces that
writes accept and reads deliver (`Link.Alike`), two clients of one configuration get the same
results from the same calls, are connected to the same addresses, cause the same events but for
the writes and reads, have the same bytes accepted and log the same records but for mere detail
(`Session.fragmentation_invisible`). The simulation keeps two connections that await the same stream
(`Connection.Alike`); their scripts and the bytes at hand may differ.
-/
namespace LineStore
open Framing

/-- The events of a trace that move no bytes. -/
def Trace.still (trace : Trace) : List Event := trace.events.filter (!·.isTransfer)

@[simp] theorem Trace.still_append (first second : Trace) : (first ++ second).still = first.still ++ second.still := by
  simp [still]

@[simp] theorem Trace.debugLog_append (first second : Trace) :
    (first ++ second).debugLog = first.debugLog ++ second.debugLog := by
  simp [debugLog]

/-! ## What two sessions have in common -/

/-- Two traces that differ only in how bytes are moved, and in the detail that is logged of it. -/
structure Trace.Alike (first second : Trace) : Prop where
  still : first.still = second.still
  accepted : first.accepted = second.accepted
  debugLog : first.debugLog = second.debugLog

/-- Two links that differ only in the pieces that their sockets accept and deliver. -/
structure Link.Alike (first second : Link) : Prop where
  opening : { first with writes := [], reads := [] } = { second with writes := [], reads := [] }
  firstHarmless : ∀ write ∈ first.writes, write.Harmless
  secondHarmless : ∀ write ∈ second.writes, write.Harmless
  delivery : Delivery.ofReads first.reads = Delivery.ofReads second.reads

/-- Two connections to one address that await the same stream. -/
structure Connection.Alike (first second : Connection) : Prop where
  peer : first.peer = second.peer
  firstHarmless : ∀ write ∈ first.writes, write.Harmless
  secondHarmless : ∀ write ∈ second.writes, write.Harmless
  stream : first.stream = second.stream

structure Client.Alike (first second : Client) : Prop where
  config : first.config = second.config
  connection : Option.Rel Connection.Alike first.connection second.connection

/-- Two steps that look the same to a caller, to the log and to the other side. -/
structure Step.Alike (first second : Step) : Prop where
  result : first.result = second.result
  peer : first.peer = second.peer
  trace : Trace.Alike first.trace second.trace

structure Client.Outcome.Alike (first second : Client.Outcome) : Prop where
  result : first.result = second.result
  client : Client.Alike first.client second.client
  network : List.Forall₂ Link.Alike first.network second.network
  trace : Trace.Alike first.trace second.trace

/-! ## One call -/

namespace Trace.Alike

theorem refl (trace : Trace) : Alike trace trace := ⟨rfl, rfl, rfl⟩

theorem append {first second third fourth : Trace} (before : Alike first second) (later : Alike third fourth) :
    Alike (first ++ third) (second ++ fourth) := by
  constructor
  · rw [still_append, still_append, before.still, later.still]
  · rw [accepted_append, accepted_append, before.accepted, later.accepted]
  · rw [debugLog_append, debugLog_append, before.debugLog, later.debugLog]

/-- Two exchanges are alike once the same bytes are accepted in them. -/
theorem of_transfers {first second : Trace} {bytes : Bytes} (firstMoves : ∀ event ∈ first.events, event.isTransfer = true)
    (secondMoves : ∀ event ∈ second.events, event.isTransfer = true) (firstSent : first.accepted = bytes)
    (secondSent : second.accepted = bytes) (firstDetail : first.debugLog = []) (secondDetail : second.debugLog = []) :
    Alike first second := by
  have unstill : ∀ {trace : Trace}, (∀ event ∈ trace.events, event.isTransfer = true) → trace.still = [] := fun moves =>
    List.filter_eq_nil_iff.mpr fun event member => by simp [moves event member]
  exact ⟨(unstill firstMoves).trans (unstill secondMoves).symm, firstSent.trans secondSent.symm, firstDetail.trans secondDetail.symm⟩

end Trace.Alike

theorem Link.alike_dead : Alike .dead .dead := ⟨rfl, nofun, nofun, rfl⟩

theorem Network.link_alike {before after : Network} (networks : List.Forall₂ Link.Alike before after) :
    Link.Alike before.link after.link ∧ List.Forall₂ Link.Alike before.rest after.rest := by
  cases networks with
  | nil => exact ⟨Link.alike_dead, .nil⟩
  | cons links rest => exact ⟨links, rest⟩

namespace Client.Alike
variable {first second : Client} (clients : Alike first second)
include clients

theorem connections : (first.connection = none ∧ second.connection = none) ∨
    ∃ one other, first.connection = some one ∧ second.connection = some other ∧ Connection.Alike one other := by
  have related := clients.connection
  generalize first.connection = one at related ⊢
  generalize second.connection = other at related ⊢
  cases related with
  | none => exact .inl ⟨rfl, rfl⟩
  | some connections => exact .inr ⟨_, _, rfl, rfl, connections⟩

theorem peer? : first.peer? = second.peer? := by
  unfold Client.peer?
  rcases clients.connections with ⟨firstNone, secondNone⟩ | ⟨one, other, firstIs, secondIs, connections⟩
  · rw [firstNone, secondNone]
  · rw [firstIs, secondIs, Option.map_some, Option.map_some, connections.peer]

theorem disconnected : Alike first.disconnected second.disconnected := ⟨clients.config, .none⟩

theorem connected {one other : Connection} (connections : Connection.Alike one other) :
    Alike { first with connection := some one } { second with connection := some other } :=
  ⟨clients.config, .some connections⟩

end Client.Alike

/-- How two clients reach the server: both in vain and for one reason, or both with a connection. -/
inductive Client.ReachAlike : Except Fault Connection × Network × Trace → Except Fault Connection × Network × Trace → Prop
  | failed {fault : Fault} {before after : Network} {reached : Trace} (networks : List.Forall₂ Link.Alike before after) :
      ReachAlike (.error fault, before, reached) (.error fault, after, reached)
  | reached {one other : Connection} {before after : Network} {reached : Trace} (connections : Connection.Alike one other)
      (networks : List.Forall₂ Link.Alike before after) : ReachAlike (.ok one, before, reached) (.ok other, after, reached)

/-- Two links that are alike open their connections in one way. -/
theorem Connection.establish_alike (config : Config) {first second : Link} (links : Link.Alike first second) :
    (∃ fault reached, establish config first = (.error fault, reached) ∧ establish config second = (.error fault, reached)) ∨
      ∃ one other reached, establish config first = (.ok one, reached) ∧ establish config second = (.ok other, reached) ∧
        Connection.Alike one other := by
  have same : second = { first with writes := second.writes, reads := second.reads } := by
    have opening := links.opening
    cases first
    cases second
    simp only [Link.mk.injEq] at opening ⊢
    simp [opening]
  have scripts := establish_scripts config first second.writes second.reads
  rw [← same] at scripts
  rcases opened : establish config first with ⟨fault | connection, reached⟩
  · rw [opened] at scripts
    exact .inl ⟨fault, reached, rfl, scripts⟩
  · rw [opened] at scripts
    have success : (establish config first).1 = .ok connection := by rw [opened]
    obtain ⟨writes, reads, pending⟩ := establish_ok success
    refine .inr ⟨connection, _, reached, rfl, scripts, rfl, ?_, links.secondHarmless, ?_⟩
    · rw [writes]
      exact links.firstHarmless
    · show (Delivery.ofReads connection.reads).behind connection.pending =
        (Delivery.ofReads second.reads).behind connection.pending
      rw [reads, links.delivery]

namespace Client
variable {first second : Client} {before after : Network}

theorem reach_alike (clients : Alike first second) (networks : List.Forall₂ Link.Alike before after) :
    ReachAlike (first.reach before) (second.reach after) := by
  rcases clients.connections with ⟨firstNone, secondNone⟩ | ⟨one, other, firstIs, secondIs, connections⟩
  · obtain ⟨links, rest⟩ := Network.link_alike networks
    rw [reach_of_disconnected firstNone, reach_of_disconnected secondNone, ← clients.config]
    rcases Connection.establish_alike first.config links with ⟨fault, reached, one, other⟩ | ⟨_, _, reached, one, other, connections⟩
    · rw [one, other]
      exact .failed rest
    · rw [one, other]
      exact .reached connections rest
  · rw [reach_of_connected firstIs, reach_of_connected secondIs]
    exact .reached connections networks

theorem connect_alike (clients : Alike first second) (networks : List.Forall₂ Link.Alike before after) :
    Outcome.Alike (first.connect before) (second.connect after) := by
  have reaches := reach_alike clients networks
  unfold connect
  generalize first.reach before = one at reaches ⊢
  generalize second.reach after = other at reaches ⊢
  cases reaches with
  | failed rest => exact ⟨rfl, clients.disconnected, rest, .refl _⟩
  | reached connections rest => exact ⟨rfl, clients.connected connections, rest, .refl _⟩

theorem close_alike (clients : Alike first second) (networks : List.Forall₂ Link.Alike before after) :
    Outcome.Alike (first.close before) (second.close after) := by
  unfold close
  rcases clients.connections with ⟨firstNone, secondNone⟩ | ⟨one, other, firstIs, secondIs, connections⟩
  · rw [firstNone, secondNone]
    exact ⟨rfl, clients, networks, .refl _⟩
  · simp only [firstIs, secondIs, connections.peer]
    exact ⟨rfl, clients.disconnected, networks, .refl _⟩

/-- Requests on connections that are alike get one answer, and leave connections that are alike. -/
theorem request_alike (clients : Alike first second) (networks : List.Forall₂ Link.Alike before after) (command : Command) :
    Outcome.Alike (first.request before command) (second.request after command) := by
  have reaches := reach_alike clients networks
  generalize firstReach : first.reach before = one at reaches
  generalize secondReach : second.reach after = other at reaches
  cases reaches with
  | failed rest =>
    unfold request
    rw [firstReach, secondReach]
    exact ⟨rfl, clients.disconnected, rest, .refl _⟩
  | @reached one other _ _ reached connections rest =>
    have firstSmooth := request_smooth firstReach connections.firstHarmless command
    have secondSmooth := request_smooth secondReach connections.secondHarmless command
    -- The streams are one, so both hold a line or neither does.
    have awaited := connections.stream
    generalize first.request before command = firstOutcome at firstSmooth ⊢
    generalize second.request after command = secondOutcome at secondSmooth ⊢
    cases firstSmooth with
    | unanswered firstMoves firstDetail firstSent uncut =>
      rw [awaited] at uncut ⊢
      cases secondSmooth with
      | unanswered secondMoves secondDetail secondSent again =>
        have exchanges := Trace.Alike.of_transfers firstMoves secondMoves firstSent secondSent firstDetail secondDetail
        exact ⟨rfl, clients.disconnected, rest, ((Trace.Alike.refl _).append exchanges).append (.refl _)⟩
      | answered secondMoves secondDetail secondSent cut =>
        rw [uncut] at cut
        simp at cut
    | answered firstMoves firstDetail firstSent cut firstPeer firstStream firstHarmless =>
      rw [awaited] at cut firstStream
      cases secondSmooth with
      | unanswered secondMoves secondDetail secondSent uncut =>
        rw [uncut] at cut
        simp at cut
      | answered secondMoves secondDetail secondSent again secondPeer secondStream secondHarmless =>
        obtain ⟨rfl, rfl⟩ : _ ∧ _ := by simpa [cut] using again
        have exchanges := Trace.Alike.of_transfers firstMoves secondMoves firstSent secondSent firstDetail secondDetail
        have kept : Connection.Alike _ _ := ⟨(firstPeer.trans connections.peer).trans secondPeer.symm, firstHarmless,
          secondHarmless, firstStream.trans secondStream.symm⟩
        exact ⟨rfl, clients.connected kept, rest, ((Trace.Alike.refl _).append exchanges).append (.refl _)⟩

/-- Two clients that are alike stay so, whatever is asked of them. -/
theorem perform_alike (clients : Alike first second) (networks : List.Forall₂ Link.Alike before after) (call : Call) :
    Outcome.Alike (first.perform before call) (second.perform after call) := by
  cases call with
  | connect => exact connect_alike clients networks
  | close => exact close_alike clients networks
  | submit command =>
    show Outcome.Alike (first.submit before command) (second.submit after command)
    unfold submit
    split
    · exact request_alike clients networks command
    · exact ⟨rfl, clients, networks, .refl _⟩

end Client

/-! ## Whole sessions -/

namespace Session

/-- Sessions of two clients that are alike go the same way to their end. -/
theorem run_alike {first second : Client} {before after : Network} (clients : Client.Alike first second)
    (networks : List.Forall₂ Link.Alike before after) (calls : List Call) :
    List.Forall₂ Step.Alike (run first before calls).steps (run second after calls).steps ∧
      (run first before calls).ending = (run second after calls).ending := by
  induction calls generalizing first second before after with
  | nil =>
    have connected : first.isConnected = second.isConnected := by
      have peers := congrArg Option.isSome clients.peer?
      simpa [Client.peer?, Client.isConnected] using peers
    refine ⟨.nil, ?_⟩
    show first.release = second.release
    rw [Client.release, Client.release, connected]
  | cons call calls ih =>
    have outcomes := Client.perform_alike clients networks call
    obtain ⟨steps, endings⟩ := ih outcomes.client outcomes.network
    exact ⟨.cons ⟨outcomes.result, outcomes.client.peer?, outcomes.trace⟩ steps, endings⟩

/-- How writes and reads are cut into pieces changes nothing that a caller, the log or the other
    side gets to see of a session. -/
theorem fragmentation_invisible {client : Client} {first second : Network} (fresh : client.connection = none)
    (networks : List.Forall₂ Link.Alike first second) (calls : List Call) :
    List.Forall₂ Step.Alike (run client first calls).steps (run client second calls).steps ∧
      (run client first calls).ending = (run client second calls).ending :=
  run_alike ⟨rfl, by rw [fresh]; exact .none⟩ networks calls

end Session

/-- A link that brings two answers at once. -/
def Link.atOnce : Link := { reads := [.delivers (Bytes.ofText "PONG\r\nOK\r\n")] }

/-- A link that brings them in pieces, and takes what is sent in pieces. -/
def Link.inPieces : Link :=
  { writes := [.accepts 1, .fails ⟨.interrupted, "again"⟩, .accepts 4],
    reads := [.delivers (Bytes.ofText "PONG\r"), .fails ⟨.interrupted, "again"⟩, .delivers (Bytes.ofText "\nOK\r"),
      .delivers (Bytes.ofText "\n")] }

/-- A ping and a removal are answered alike over either link. -/
theorem Session.fragmentation_invisible_inPieces :
    List.Forall₂ Step.Alike
      (run ⟨{}, by decide, none⟩ [.atOnce] [.submit .ping, .submit (.del "k")]).steps
      (run ⟨{}, by decide, none⟩ [.inPieces] [.submit .ping, .submit (.del "k")]).steps := by
  have links : Link.Alike .atOnce .inPieces := ⟨rfl, by decide, by decide, by decide +kernel⟩
  exact (fragmentation_invisible rfl (.cons links .nil) _).1

end LineStore
