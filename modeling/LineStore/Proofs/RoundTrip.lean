import LineStore.Proofs.Acceptance
import LineStore.Proofs.Delivery

/-!
Lines that are sent and read back. Lines may be sent one after another over a connection
(`Connection.sendAll`) and received one after another (`Connection.receiveAll`). Main statement: what the
sending of texts writes is received as those texts, in order and to the last byte, however it is cut
into pieces, as long as none of them holds the terminator; and texts that were received give back the
bytes they were made of when they are sent again (`Connection.framing_round_trip`).
-/
namespace LineStore
open Framing

namespace Connection

/-! ## Sending and receiving many lines -/

/-- Sends lines one after another, and no more of them once one has failed. -/
def sendAll (connection : Connection) : List String → Option Fault × Connection × Trace
  | [] => (none, connection, {})
  | line :: lines =>
    match connection.send line with
    | (some fault, connection, sent) => (some fault, connection, sent)
    | (none, connection, sent) =>
      let (fault?, connection, later) := connection.sendAll lines
      (fault?, connection, sent ++ later)

/-- Makes so many attempts to receive a line, one after another. -/
def receiveAll (connection : Connection) : Nat → List (Except Fault String) × Connection × Trace
  | 0 => ([], connection, {})
  | count + 1 =>
    let (line, connection, received) := connection.receive
    let (lines, connection, later) := connection.receiveAll count
    (line :: lines, connection, received ++ later)

theorem sendAll_of_fault {connection : Connection} {line : String} {fault : Fault} (lines : List String)
    (stopped : (connection.send line).1 = some fault) : (connection.sendAll (line :: lines)).1 = some fault := by
  rw [sendAll]
  rcases sending : connection.send line with ⟨fault?, after, sent⟩
  rw [sending] at stopped
  obtain rfl : fault? = some fault := stopped
  rfl

theorem sendAll_of_sent {connection : Connection} {line : String} (lines : List String)
    (fine : (connection.send line).1 = none) :
    connection.sendAll (line :: lines) =
      (((connection.send line).2.1.sendAll lines).1, ((connection.send line).2.1.sendAll lines).2.1,
        (connection.send line).2.2 ++ ((connection.send line).2.1.sendAll lines).2.2) := by
  rw [sendAll]
  rcases sending : connection.send line with ⟨fault?, after, sent⟩
  rw [sending] at fine
  obtain rfl : fault? = none := fine
  rfl

theorem receiveAll_succ (connection : Connection) (count : Nat) :
    connection.receiveAll (count + 1) =
      (connection.receive.1 :: (connection.receive.2.1.receiveAll count).1, (connection.receive.2.1.receiveAll count).2.1,
        connection.receive.2.2 ++ (connection.receive.2.1.receiveAll count).2.2) := rfl

/-- Lines that were sent to the end have had just their frames accepted. -/
theorem accepted_sendAll {connection : Connection} {lines : List String} (fine : (connection.sendAll lines).1 = none) :
    (connection.sendAll lines).2.2.accepted = lines.flatMap frame := by
  induction lines generalizing connection with
  | nil => rfl
  | cons line lines ih =>
    have first : (connection.send line).1 = none := by
      cases stopped : (connection.send line).1 with
      | none => rfl
      | some fault => rw [sendAll_of_fault lines stopped] at fine; simp at fine
    rw [sendAll_of_sent lines first] at fine ⊢
    have accepted : (connection.send line).2.2.accepted = frame line := by
      rcases Sending.offer_cases (frame line) connection.writes with ⟨-, all⟩ | ⟨fault, stopped, -⟩
      · exact all
      · exact absurd (first.symm.trans stopped) (by simp)
    rw [Trace.accepted_append, accepted, ih fine, List.flatMap_cons]

/-- Harmless writes bring all lines to their end. -/
theorem sendAll_of_harmless {connection : Connection} (harmless : ∀ write ∈ connection.writes, write.Harmless)
    (lines : List String) : (connection.sendAll lines).1 = none := by
  induction lines generalizing connection with
  | nil => rfl
  | cons line lines ih =>
    obtain ⟨fine, kept⟩ := @Sending.offer_of_harmless (frame line) _ harmless
    rw [sendAll_of_sent lines fine]
    exact ih kept

/-! ## Bytes and the lines made of them -/

theorem decode_eq_ok_iff {bytes : Bytes} {text : String} : decode bytes = .ok text ↔ bytes = Bytes.ofText text := by
  rw [← Bytes.text?_eq_some_iff]
  unfold decode
  cases Bytes.text? bytes <;> simp

/-- The line that was received stood first in the stream, and the rest is awaited. -/
theorem stream_of_receive {connection : Connection} {text : String} (received : connection.receive.1 = .ok text) :
    OneLine text ∧ connection.stream.bytes = frame text ++ connection.receive.2.1.stream.bytes := by
  cases cut : cut? connection.stream.bytes with
  | none =>
    rw [receive_of_uncut cut] at received
    simp at received
  | some pair =>
    obtain ⟨line, left⟩ := pair
    obtain ⟨read, rest⟩ := receive_of_cut cut
    obtain rfl : line = Bytes.ofText text := decode_eq_ok_iff.mp (read.symm.trans received)
    obtain ⟨same, whole⟩ := cut?_eq_some_iff.mp cut
    refine ⟨unbroken_ofText_iff.mp whole, ?_⟩
    rw [rest, same, frame, List.append_assoc]
    rfl

/-- Where the lines of the stream are texts they are received one after another, and no line is left then. -/
theorem receiveAll_of_lines {connection : Connection} {texts : List String}
    (spelled : lines connection.stream.bytes = texts.map Bytes.ofText) :
    (connection.receiveAll texts.length).1 = texts.map .ok ∧
      cut? (connection.receiveAll texts.length).2.1.stream.bytes = none := by
  induction texts generalizing connection with
  | nil =>
    refine ⟨rfl, ?_⟩
    show cut? connection.stream.bytes = none
    cases cut : cut? connection.stream.bytes with
    | none => rfl
    | some pair =>
      rw [lines_of_cut cut] at spelled
      simp at spelled
  | cons text texts ih =>
    cases cut : cut? connection.stream.bytes with
    | none =>
      rw [lines_of_uncut cut] at spelled
      simp at spelled
    | some pair =>
      obtain ⟨line, left⟩ := pair
      rw [lines_of_cut cut, List.map_cons] at spelled
      obtain ⟨rfl, others⟩ := List.cons.inj spelled
      obtain ⟨read, rest⟩ := receive_of_cut cut
      obtain ⟨later, uncut⟩ := @ih connection.receive.2.1 (by rw [rest]; exact others)
      rw [List.length_cons, receiveAll_succ, List.map_cons, read, decode_eq_ok_iff.mpr rfl, later]
      exact ⟨rfl, uncut⟩

/-- Lines that were received stood first in the stream, each with its terminator. -/
theorem stream_of_receiveAll {connection : Connection} {texts : List String}
    (received : (connection.receiveAll texts.length).1 = texts.map .ok) :
    connection.stream.bytes = texts.flatMap frame ++ (connection.receiveAll texts.length).2.1.stream.bytes := by
  induction texts generalizing connection with
  | nil => rfl
  | cons text texts ih =>
    rw [List.length_cons, receiveAll_succ, List.map_cons] at received
    obtain ⟨first, later⟩ := List.cons.inj received
    obtain ⟨-, taken⟩ := stream_of_receive first
    rw [List.length_cons, receiveAll_succ, taken, ih later, List.flatMap_cons, List.append_assoc]

theorem oneLine_of_receiveAll {connection : Connection} {count : Nat} {text : String}
    (received : .ok text ∈ (connection.receiveAll count).1) : OneLine text := by
  induction count generalizing connection with
  | zero => simp [receiveAll] at received
  | succ count ih =>
    rw [receiveAll_succ] at received
    rcases List.mem_cons.mp received with first | later
    · exact (stream_of_receive first.symm).1
    · exact ih later

/-! ## There and back -/

/-- What the lines that one connection sends have to do with those that another receives. -/
structure RoundTrip (sender receiver : Connection) (texts : List String) : Prop where
  sendable : (∀ write ∈ sender.writes, write.Harmless) → (sender.sendAll texts).1 = none
  /-- Where the bytes that were accepted are delivered, in whatever pieces, the texts are read back in order,
      and no byte is left over. -/
  back : (∀ text ∈ texts, OneLine text) → (sender.sendAll texts).1 = none → receiver.pending = [] →
    (Delivery.ofReads receiver.reads).bytes = (sender.sendAll texts).2.2.accepted →
    (receiver.receiveAll texts.length).1 = texts.map .ok ∧ (receiver.receiveAll texts.length).2.1.pending = []
  /-- A stream whose lines are texts is received line by line, until there is no terminator left in it. -/
  whole : lines receiver.stream.bytes = texts.map Bytes.ofText → (receiver.receiveAll texts.length).1 = texts.map .ok ∧
    Unbroken (receiver.receiveAll texts.length).2.1.stream.bytes
  /-- Texts that were received give back, when they are sent, the stream up to the end of the last of them. -/
  forth : (receiver.receiveAll texts.length).1 = texts.map .ok → (sender.sendAll texts).1 = none →
    receiver.stream.bytes = (sender.sendAll texts).2.2.accepted ++ (receiver.receiveAll texts.length).2.1.stream.bytes
  /-- A text that holds the terminator is never received. -/
  broken : ∀ text, ¬ OneLine text → ∀ count, .ok text ∉ (receiver.receiveAll count).1

/-- Texts that hold no terminator are received as they were sent, and what was received is sent as it came. -/
theorem framing_round_trip (sender receiver : Connection) (texts : List String) : RoundTrip sender receiver texts where
  sendable harmless := sendAll_of_harmless harmless texts
  back oneLine sent fresh delivered := by
    have awaited : receiver.stream.bytes = texts.flatMap frame := by
      rw [stream, fresh, Delivery.behind_nil, delivered, accepted_sendAll sent]
    have spelled : lines receiver.stream.bytes = texts.map Bytes.ofText := by
      rw [awaited, ← List.append_nil (texts.flatMap frame)]
      exact lines_frames oneLine rfl
    obtain ⟨received, -⟩ := receiveAll_of_lines spelled
    have nothing : (receiver.receiveAll texts.length).2.1.stream.bytes = [] :=
      List.self_eq_append_right.mp (awaited.symm.trans (stream_of_receiveAll received))
    exact ⟨received, (List.append_eq_nil_iff.mp nothing).1⟩
  whole spelled := by
    obtain ⟨received, uncut⟩ := receiveAll_of_lines spelled
    exact ⟨received, cut?_eq_none_iff.mp uncut⟩
  forth received sent := by
    rw [accepted_sendAll sent]
    exact stream_of_receiveAll received
  broken _ holds _ received := holds (oneLine_of_receiveAll received)

/-- A connection that takes what is sent in pieces, and one that gets it in others. -/
def scattering : Connection :=
  { peer := ⟨"10.0.0.1", 7379⟩, writes := [.accepts 1, .fails ⟨.interrupted, "again"⟩, .accepts 3], reads := [] }

def gathering : Connection :=
  { peer := ⟨"10.0.0.1", 7379⟩, writes := [],
    reads := [.delivers [13], .fails ⟨.interrupted, "again"⟩, .delivers [10, 97, 13, 13], .delivers [10, 10, 195],
      .delivers [159, 13, 10]] }

/-- An empty line, one that ends with a carriage return and one that begins with a line feed. -/
theorem framing_round_trip_gathering :
    (gathering.receiveAll 3).1 = [.ok "", .ok "a\r", .ok "\nß"] ∧ (gathering.receiveAll 3).2.1.pending = [] ∧
      gathering.stream.bytes = (scattering.sendAll ["", "a\r", "\nß"]).2.2.accepted := by
  have trip := framing_round_trip scattering gathering ["", "a\r", "\nß"]
  have sent : (scattering.sendAll ["", "a\r", "\nß"]).1 = none := trip.sendable (by decide)
  obtain ⟨received, left⟩ := trip.back (by decide +kernel) sent rfl (by decide +kernel)
  have nothing : (gathering.receiveAll 3).2.1.stream.bytes = [] := by decide +kernel
  have again : gathering.stream.bytes = (scattering.sendAll ["", "a\r", "\nß"]).2.2.accepted ++
      (gathering.receiveAll 3).2.1.stream.bytes := trip.forth received sent
  rw [nothing, List.append_nil] at again
  exact ⟨received, left, again⟩

end Connection
end LineStore
