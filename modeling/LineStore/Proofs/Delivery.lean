import LineStore.Connection.Receive
import LineStore.Proofs.Lines

/-!
What a socket delivers, told apart from the pieces it comes in: the bytes of its reads up to the
first outcome that ends them, and that outcome (`Delivery.ofReads`). A connection awaits the
stream of the bytes at hand and those still to come (`Connection.stream`). Main statements: a
line is received exactly when the stream holds one, it is then the first, and the rest of the
stream is awaited next (`receive_of_cut`); otherwise the end of the stream is the fault
(`receive_of_uncut`).
-/
namespace LineStore

/-- How a stream ends: the other side closes it, or a read fails and is not repeated. -/
inductive Ending where
  | closed
  | failed (error : IoError)
  deriving DecidableEq, Repr

/-- The fault of waiting past the end of a stream. -/
def Ending.fault : Ending → Fault
  | .closed => .serverClosed
  | .failed error => .receiveFailed error

structure Delivery where
  bytes : Bytes
  ending : Ending
  deriving DecidableEq, Repr

/-- The bytes delivered by the reads of a trace, in order. -/
def Trace.delivered (trace : Trace) : Bytes := trace.events.flatMap Event.delivered

@[simp] theorem Trace.delivered_append (first second : Trace) :
    (first ++ second).delivered = first.delivered ++ second.delivered := by
  simp [delivered]

namespace Delivery

/-- A delivery behind bytes that came earlier. -/
def behind (earlier : Bytes) (delivery : Delivery) : Delivery := ⟨earlier ++ delivery.bytes, delivery.ending⟩

/-- What reads deliver before the first outcome that ends them. -/
def ofReads : List ReadOutcome → Delivery
  | [] => ⟨[], .failed .nothingToRead⟩
  | .delivers [] :: _ => ⟨[], .closed⟩
  | .delivers (byte :: bytes) :: reads => (ofReads reads).behind (byte :: bytes)
  | .fails error :: reads => if error.isInterruption then ofReads reads else ⟨[], .failed error⟩

@[simp] theorem behind_nil (delivery : Delivery) : delivery.behind [] = delivery := rfl

theorem behind_behind (first second : Bytes) (delivery : Delivery) :
    (delivery.behind second).behind first = delivery.behind (first ++ second) := by
  simp [behind, List.append_assoc]

theorem ofReads_delivers {bytes : Bytes} (present : bytes ≠ []) (reads : List ReadOutcome) :
    ofReads (.delivers bytes :: reads) = (ofReads reads).behind bytes := by
  cases bytes with
  | nil => exact absurd rfl present
  | cons byte bytes => rfl

/-- A read takes a piece off a delivery and loses nothing. -/
theorem ofReads_unread {bytes : Bytes} (present : bytes ≠ []) (reads : List ReadOutcome) :
    (ofReads (Intake.unread bytes reads)).behind (bytes.take readSize) = ofReads (.delivers bytes :: reads) := by
  rw [ofReads_delivers present, Intake.unread]
  by_cases fits : bytes.length ≤ readSize
  · rw [if_pos fits, List.take_of_length_le fits]
  · have more : bytes.drop readSize ≠ [] := by
      rw [ne_eq, List.drop_eq_nil_iff]
      omega
    rw [if_neg fits, ofReads_delivers more, behind_behind, List.take_append_drop]

end Delivery

namespace Intake
open Delivery Framing

theorem events_after (event : Event) (intake : Intake) : (intake.after event).events = event :: intake.events := rfl

/-- Waiting gives the first line of the stream and keeps what is behind it. -/
theorem await_of_cut {pending line left : Bytes} {reads : List ReadOutcome}
    (cut : cut? ((ofReads reads).behind pending).bytes = some (line, left)) :
    (await pending reads).line = .ok line ∧
      (ofReads (await pending reads).reads).behind (await pending reads).pending = ⟨left, (ofReads reads).ending⟩ := by
  fun_induction await pending reads with
  | case1 pending reads first rest here =>
    have same := cut?_append here (ofReads reads).bytes
    rw [behind] at cut
    rw [same] at cut
    simp only [Option.some.injEq, Prod.mk.injEq] at cut
    obtain ⟨rfl, rfl⟩ := cut
    exact ⟨rfl, rfl⟩
  | case2 pending unended => simp [behind, ofReads, unended] at cut
  | case3 pending unended error rest again ih =>
    rw [ofReads, if_pos again] at cut ⊢
    exact ih cut
  | case4 pending unended error rest final => simp [behind, ofReads, unended, final] at cut
  | case5 pending unended rest => simp [behind, ofReads, unended] at cut
  | case6 pending unended bytes rest present ih =>
    have same := ofReads_unread present rest
    rw [← same, behind_behind] at cut
    obtain ⟨line, stream⟩ := ih cut
    refine ⟨line, ?_⟩
    rw [← same]
    exact stream

/-- Where the stream holds no line, its end is the fault. -/
theorem await_of_uncut {pending : Bytes} {reads : List ReadOutcome}
    (uncut : cut? ((ofReads reads).behind pending).bytes = none) :
    (await pending reads).line = .error (ofReads reads).ending.fault := by
  fun_induction await pending reads with
  | case1 pending reads first rest here => rw [behind, cut?_append here] at uncut; simp at uncut
  | case2 pending unended => rfl
  | case3 pending unended error rest again ih =>
    rw [ofReads, if_pos again] at uncut ⊢
    exact ih uncut
  | case4 pending unended error rest final => rw [ofReads, if_neg final]; rfl
  | case5 pending unended rest => rfl
  | case6 pending unended bytes rest present ih =>
    have same := ofReads_unread present rest
    rw [← same, behind_behind] at uncut
    rw [← same]
    exact ih uncut

theorem await_reads (pending : Bytes) (reads : List ReadOutcome) :
    ∀ event ∈ (await pending reads).events, ∃ answer, event = .read answer := by
  fun_induction await pending reads with
  | case1 => simp
  | case2 => simp
  | case3 pending unended error rest again ih => simpa [events_after] using ih
  | case4 => simp
  | case5 => simp
  | case6 pending unended bytes rest present ih => simpa [events_after] using ih

end Intake

def Framing.decode (bytes : Bytes) : Except Fault String :=
  match Bytes.text? bytes with
  | some text => .ok text
  | none => .error .notText

namespace Connection
open Framing

/-- What a connection awaits: the bytes at hand and those its reads deliver. -/
def stream (connection : Connection) : Delivery := (Delivery.ofReads connection.reads).behind connection.pending

theorem receive_of_cut {connection : Connection} {line left : Bytes}
    (cut : cut? connection.stream.bytes = some (line, left)) :
    connection.receive.1 = decode line ∧ connection.receive.2.1.stream = ⟨left, connection.stream.ending⟩ := by
  obtain ⟨taken, rest⟩ := Intake.await_of_cut cut
  unfold receive decode
  simp only [taken]
  cases Bytes.text? line with
  | some text => exact ⟨rfl, rest⟩
  | none => exact ⟨rfl, rest⟩

theorem receive_of_uncut {connection : Connection} (uncut : cut? connection.stream.bytes = none) :
    connection.receive.1 = .error connection.stream.ending.fault := by
  have fault := Intake.await_of_uncut uncut
  unfold receive
  simp only [fault]
  rfl

/-- Receiving keeps the socket and what it does with writes. -/
theorem receive_frame (connection : Connection) :
    connection.receive.2.1.peer = connection.peer ∧ connection.receive.2.1.writes = connection.writes := by
  unfold receive
  dsimp only
  split
  · exact ⟨rfl, rfl⟩
  · split <;> exact ⟨rfl, rfl⟩

theorem receive_reads (connection : Connection) : ∀ event ∈ connection.receive.2.2.events, ∃ answer, event = .read answer := by
  have reads := Intake.await_reads connection.pending connection.reads
  unfold receive
  dsimp only
  split
  · exact reads
  · split <;> exact reads

/-- The only record of a receipt is mere detail. -/
theorem receive_debugLog (connection : Connection) : connection.receive.2.2.debugLog = [] := by
  unfold receive
  dsimp only
  split
  · rfl
  · split <;> rfl

end Connection
end LineStore
