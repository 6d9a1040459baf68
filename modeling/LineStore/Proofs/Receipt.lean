import LineStore.Proofs.InStep

/-!
How a line is received, read by read. Each read is answered as the script of the socket has it
(`Answers`); an answer that brings bytes, or that says the read was interrupted, lets the wait go on
(`GoesOn`), and every other one ends it. Main statement: reads are made until the bytes at hand hold
a terminator or an answer ends the wait, and not one more; in the first case the line goes up to the
first place where a terminator stands, and what is behind it is kept, every byte of it
(`Connection.received_exactly`).
-/
namespace LineStore
open Framing

/-! ## Where a terminator stands -/

namespace Framing

/-- A terminator stands at a place among some bytes. -/
def TerminatorAt (bytes : Bytes) (place : Nat) : Prop :=
  bytes[place]? = some carriageReturn ∧ bytes[place + 1]? = some lineFeed

theorem terminatorAt_length (line left : Bytes) :
    TerminatorAt (line ++ carriageReturn :: lineFeed :: left) line.length := by
  constructor
  · rw [List.getElem?_append_right (Nat.le_refl _), Nat.sub_self]
    rfl
  · rw [List.getElem?_append_right (Nat.le_succ _), Nat.succ_sub (Nat.le_refl _), Nat.sub_self]
    rfl

/-- What stands before and behind a terminator. -/
theorem TerminatorAt.split {bytes : Bytes} {place : Nat} (stands : TerminatorAt bytes place) :
    bytes = bytes.take place ++ carriageReturn :: lineFeed :: bytes.drop (place + 2) := by
  obtain ⟨first, second⟩ := stands
  obtain ⟨inside, here⟩ := List.getElem?_eq_some_iff.mp first
  obtain ⟨next, there⟩ := List.getElem?_eq_some_iff.mp second
  conv => lhs; rw [← List.take_append_drop place bytes]
  rw [List.drop_eq_getElem_cons inside, List.drop_eq_getElem_cons next, here, there]

theorem unbroken_iff {bytes : Bytes} : Unbroken bytes ↔ ∀ place, ¬ TerminatorAt bytes place := by
  constructor
  · intro whole place stands
    exact whole _ _ stands.split
  · rintro unbroken before after rfl
    exact unbroken before.length (terminatorAt_length before after)

/-- No terminator stands before the end of the first line. -/
theorem not_terminatorAt_of_lt {line : Bytes} (whole : Unbroken line) (left : Bytes) {place : Nat}
    (before : place < line.length) : ¬ TerminatorAt (line ++ carriageReturn :: lineFeed :: left) place := by
  rintro ⟨first, second⟩
  rw [List.getElem?_append_left before] at first
  by_cases inside : place + 1 < line.length
  · rw [List.getElem?_append_left inside] at second
    exact unbroken_iff.mp whole place ⟨first, second⟩
  · -- The line feed would have to be the carriage return that ends the line.
    have ends : place + 1 = line.length := by omega
    rw [ends, (terminatorAt_length line left).1] at second
    exact absurd second (by decide)

end Framing

/-! ## Reads and their answers -/

/-- How the next read ends, and the outcomes of the reads after it. -/
def nextRead : List ReadOutcome → Except IoError Bytes × List ReadOutcome
  | [] => (.error .nothingToRead, [])
  | .fails error :: reads => (.error error, reads)
  | .delivers bytes :: reads => (.ok (bytes.take readSize), Intake.unread bytes reads)

/-- Reads made one after another, their answers, and the outcomes of the reads after them. -/
inductive Answers : List ReadOutcome → List (Except IoError Bytes) → List ReadOutcome → Prop
  | nil {reads : List ReadOutcome} : Answers reads [] reads
  | cons {reads rest : List ReadOutcome} {answers : List (Except IoError Bytes)}
      (later : Answers (nextRead reads).2 answers rest) : Answers reads ((nextRead reads).1 :: answers) rest

/-- An answer after which another read may be made: bytes have come, or the read was interrupted. -/
def GoesOn : Except IoError Bytes → Prop
  | .ok bytes => bytes ≠ []
  | .error error => error.isInterruption = true

/-- A read that can bring bytes brings some. -/
theorem take_readSize_ne_nil {bytes : Bytes} (present : bytes ≠ []) : bytes.take readSize ≠ [] :=
  fun nothing => (List.take_eq_nil_iff.mp nothing).elim (by decide) present

/-- The bytes that an answer brings. -/
def brought : Except IoError Bytes → Bytes
  | .ok bytes => bytes
  | .error _ => []

/-- How a stream ends with an answer after which no read is made. -/
def Ending.ofAnswer : Except IoError Bytes → Ending
  | .ok _ => .closed
  | .error error => .failed error

/-- How the wait for a line may go: a line is complete with the last answer and not before, or
    the last answer ends the wait before a line is complete. -/
inductive Wait (pending : Bytes) (reads : List ReadOutcome) : Intake → Prop
  | complete {answers : List (Except IoError Bytes)} {rest : List ReadOutcome} {line left : Bytes}
      (made : Answers reads answers rest) (goesOn : ∀ answer ∈ answers, GoesOn answer)
      (early : ∀ first, first <+: answers → first ≠ answers → cut? (pending ++ first.flatMap brought) = none)
      (cut : cut? (pending ++ answers.flatMap brought) = some (line, left)) :
      Wait pending reads ⟨.ok line, left, rest, answers.map .read⟩
  | ended {answers : List (Except IoError Bytes)} {last : Except IoError Bytes} {rest : List ReadOutcome}
      (made : Answers reads (answers ++ [last]) rest) (goesOn : ∀ answer ∈ answers, GoesOn answer)
      (final : ¬ GoesOn last) (uncut : cut? (pending ++ answers.flatMap brought) = none) :
      Wait pending reads
        ⟨.error (Ending.ofAnswer last).fault, pending ++ answers.flatMap brought, rest, (answers ++ [last]).map .read⟩

namespace Intake

/-- A wait goes on behind a read that does not end it. -/
theorem wait_after {pending : Bytes} {reads : List ReadOutcome} {intake : Intake} (unended : cut? pending = none)
    (goesOn : GoesOn (nextRead reads).1) (later : Wait (pending ++ brought (nextRead reads).1) (nextRead reads).2 intake) :
    Wait pending reads (intake.after (.read (nextRead reads).1)) := by
  cases later with
  | @complete answers rest line left made each early cut =>
    refine .complete (.cons made) (List.forall_mem_cons.mpr ⟨goesOn, each⟩) ?_ ?_
    · intro first begins short
      cases first with
      | nil => simpa using unended
      | cons answer first =>
        obtain ⟨rfl, rest⟩ := List.cons_prefix_cons.mp begins
        have sooner := early first rest fun same => short (by rw [same])
        rwa [List.append_assoc] at sooner
    · rwa [List.append_assoc] at cut
  | @ended answers last rest made each final uncut =>
    have gathered : pending ++ brought (nextRead reads).1 ++ answers.flatMap brought =
        pending ++ ((nextRead reads).1 :: answers).flatMap brought := by
      rw [List.append_assoc, List.flatMap_cons]
    rw [gathered] at uncut ⊢
    exact .ended (.cons made) (List.forall_mem_cons.mpr ⟨goesOn, each⟩) final uncut

/-- A wait is over with the first read if its answer ends it. -/
theorem wait_of_final {pending : Bytes} {reads : List ReadOutcome} (uncut : cut? pending = none)
    (final : ¬ GoesOn (nextRead reads).1) :
    Wait pending reads
      ⟨.error (Ending.ofAnswer (nextRead reads).1).fault, pending, (nextRead reads).2, [.read (nextRead reads).1]⟩ := by
  have made : Answers reads ([] ++ [(nextRead reads).1]) (nextRead reads).2 := .cons .nil
  simpa using Wait.ended made (by simp) final (by simpa using uncut)

theorem await_wait (pending : Bytes) (reads : List ReadOutcome) : Wait pending reads (await pending reads) := by
  fun_induction await pending reads with
  | case1 pending reads line left here =>
    refine .complete .nil (by simp) ?_ (by simpa using here)
    rintro first begins short
    exact absurd (List.prefix_nil.mp begins) short
  | case2 pending uncut =>
    have final : ¬ GoesOn (nextRead []).1 := Bool.false_ne_true
    exact wait_of_final uncut final
  | case3 pending uncut error rest again ih =>
    have goesOn : GoesOn (nextRead (.fails error :: rest)).1 := again
    exact wait_after uncut goesOn (by simpa [brought, nextRead] using ih)
  | case4 pending uncut error rest final =>
    have ends : ¬ GoesOn (nextRead (.fails error :: rest)).1 := final
    exact wait_of_final uncut ends
  | case5 pending uncut rest =>
    have ends : ¬ GoesOn (nextRead (.delivers [] :: rest)).1 := fun more => more rfl
    exact wait_of_final uncut ends
  | case6 pending uncut bytes rest present ih =>
    have goesOn : GoesOn (nextRead (.delivers bytes :: rest)).1 := take_readSize_ne_nil present
    exact wait_after uncut goesOn ih

end Intake

/-! ## Receiving a line -/

/-- How a line may be received, told by the bytes at hand and the answers to the reads made. -/
inductive Receipt (connection : Connection) : Except Fault String × Connection × Trace → Prop
  /-- The line is complete with the last of the reads and not before: it goes up to the first place where
      a terminator stands, and all that is behind it is kept. -/
  | line {answers : List (Except IoError Bytes)} {rest : List ReadOutcome} {line left : Bytes} {result : Except Fault String}
      (made : Answers connection.reads answers rest) (goesOn : ∀ answer ∈ answers, GoesOn answer)
      (early : ∀ first, first <+: answers → first ≠ answers →
        Unbroken (connection.pending ++ first.flatMap brought))
      (taken : connection.pending ++ answers.flatMap brought = line ++ carriageReturn :: lineFeed :: left)
      (whole : Unbroken line)
      (least : ∀ place < line.length, ¬ TerminatorAt (connection.pending ++ answers.flatMap brought) place)
      (told : result.mapError Fault.report = match Bytes.text? line with
        | some text => .ok text
        | none => .error ⟨.protocol, "response is not valid UTF-8"⟩) :
      Receipt connection
        (result, { connection with pending := left, reads := rest }, ⟨answers.map .read, [.leftAfterLine left.length]⟩)
  /-- The last of the reads ended the wait before any line was complete. -/
  | ended {answers : List (Except IoError Bytes)} {last : Except IoError Bytes} {rest : List ReadOutcome} {fault : Fault}
      (made : Answers connection.reads (answers ++ [last]) rest) (goesOn : ∀ answer ∈ answers, GoesOn answer)
      (final : ¬ GoesOn last) (unbroken : Unbroken (connection.pending ++ answers.flatMap brought))
      (told : fault.report = (Ending.ofAnswer last).report) :
      Receipt connection
        (.error fault, { connection with pending := connection.pending ++ answers.flatMap brought, reads := rest },
          ⟨(answers ++ [last]).map .read, []⟩)

namespace Connection

/-- What comes of receiving a line, once the wait for it is over. -/
theorem receive_eq (connection : Connection) :
    let intake := Intake.await connection.pending connection.reads
    connection.receive =
      (intake.line.bind decode, { connection with pending := intake.pending, reads := intake.reads },
        ⟨intake.events, match intake.line with
          | .ok _ => [.leftAfterLine intake.pending.length]
          | .error _ => []⟩) := by
  unfold receive decode
  dsimp only
  cases (Intake.await connection.pending connection.reads).line with
  | error fault => rfl
  | ok bytes =>
    dsimp only [Except.bind]
    cases Bytes.text? bytes <;> rfl

theorem report_decode (bytes : Bytes) :
    (decode bytes).mapError Fault.report = match Bytes.text? bytes with
      | some text => .ok text
      | none => .error ⟨.protocol, "response is not valid UTF-8"⟩ := by
  unfold decode
  cases Bytes.text? bytes <;> rfl

/-- A line is received exactly up to the first terminator of the bytes at hand and those read, by no
    more reads than it takes; where a read ends the wait before, its answer is the fault. -/
theorem received_exactly (connection : Connection) :
    Receipt connection connection.receive ∧
      (¬ Unbroken connection.pending → connection.receive.2.2.events = []) := by
  have wait := Intake.await_wait connection.pending connection.reads
  rw [receive_eq]
  generalize Intake.await connection.pending connection.reads = intake at wait ⊢
  cases wait with
  | @complete answers rest line left made goesOn early cut =>
    obtain ⟨taken, whole⟩ := cut?_eq_some_iff.mp cut
    have sooner := fun first begins short => cut?_eq_none_iff.mp (early first begins short)
    constructor
    · refine .line made goesOn sooner taken whole ?_ (report_decode line)
      intro place before
      rw [taken]
      exact not_terminatorAt_of_lt whole left before
    · intro atHand
      cases answers with
      | nil => rfl
      | cons answer answers =>
        have unbroken := sooner [] (List.nil_prefix) (by simp)
        rw [List.flatMap_nil, List.append_nil] at unbroken
        exact absurd unbroken atHand
  | @ended answers last rest made goesOn final uncut =>
    have unbroken := cut?_eq_none_iff.mp uncut
    refine ⟨.ended made goesOn final unbroken (Ending.report_fault _), fun atHand => absurd ?_ atHand⟩
    rintro before after same
    exact unbroken before (after ++ answers.flatMap brought) (by rw [same]; simp)

end Connection
end LineStore
