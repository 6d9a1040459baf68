import LineStore.Proofs.Replies
import LineStore.Proofs.Turns

/-!
Requests and replies stay in step. A connection answers its requests with the lines of its stream,
one line each and in order, whatever the requests and however the lines come
(`Life.in_step`). So over a whole session the `i`-th request sent on a socket gets the `i`-th line
that the socket delivers, or the end of the stream where there is no such line
(`Session.answered_in_order`).
-/
namespace LineStore
open Framing

/-- What a caller gets to know who waits past the end of a stream. -/
def Ending.report : Ending → Report
  | .closed => ⟨.connection, "server closed connection"⟩
  | .failed error =>
    ⟨.connection, if error.kind = .timedOut ∨ error.kind = .wouldBlock then "receive timed out"
      else "receive failed: " ++ error.text⟩

/-- What a caller gets to know of a call. -/
def Step.outcome (step : Step) : Except Report Answer := step.result.mapError Fault.report

/-- The request of a turn and what came of it, if its line was accepted to the end. -/
def Turn.sent? (turn : Turn) : Option (Command × Step) :=
  match turn.call with
  | .submit command => if turn.accepted = frame command.line then some (command, turn.step) else none
  | _ => none

/-- What comes of a request that gets a certain line of a stream: the line answers it and the
    connection is kept, or there is no such line and the connection is lost with the stream. -/
def Answered (stream : Delivery) (i : Nat) (command : Command) (step : Step) : Prop :=
  match (lines stream.bytes)[i]? with
  | none => step.outcome = .error stream.ending.report ∧ Turn.Drops ⟨.submit command, step⟩
  | some bytes =>
    Turn.Keeps ⟨.submit command, step⟩ ∧
      match Bytes.text? bytes with
      | none => step.outcome = .error ⟨.protocol, "response is not valid UTF-8"⟩
      | some line => command.Tells line step.outcome

theorem IoError.isTimeout_iff (error : IoError) :
    error.isTimeout = true ↔ error.kind = .timedOut ∨ error.kind = .wouldBlock := by
  simp [isTimeout]

theorem Ending.report_fault (ending : Ending) : ending.fault.report = ending.report := by
  cases ending with
  | closed => rfl
  | failed error =>
    have broken : "receive" ++ " failed: " = "receive failed: " := by decide
    by_cases late : error.isTimeout = true
    · rw [report, if_pos (error.isTimeout_iff.mp late)]
      show Report.mk _ (Fault.stage "receive" error) = _
      rw [Fault.stage, if_pos late]
      rfl
    · rw [report, if_neg (mt error.isTimeout_iff.mpr late)]
      show Report.mk _ (Fault.stage "receive" error) = _
      rw [Fault.stage, if_neg late, broken]
      rfl

theorem Turn.sent?_of_silent {turn : Turn} (silent : turn.Silent) : turn.sent? = none := by
  unfold sent?
  split
  · rw [accepted_of_silent silent, if_neg (frame_ne_nil _).symm]
  · rfl

theorem Turn.sent?_submit (command : Command) (step : Step) :
    sent? ⟨.submit command, step⟩ =
      if step.trace.accepted = frame command.line then some (command, step) else none := rfl

theorem filterMap_sent?_of_silent {turns : List Turn} (silent : ∀ turn ∈ turns, turn.Silent) :
    turns.filterMap Turn.sent? = [] :=
  List.filterMap_eq_nil_iff.mpr fun turn member => Turn.sent?_of_silent (silent turn member)

theorem answered_of_uncut {stream : Delivery} {command : Command} {step : Step}
    (result : step.result = .error stream.ending.fault) (uncut : cut? stream.bytes = none)
    (drops : Turn.Drops ⟨.submit command, step⟩) : Answered stream 0 command step := by
  unfold Answered
  rw [lines_of_uncut uncut]
  refine ⟨?_, drops⟩
  rw [Step.outcome, result, ← Ending.report_fault]
  rfl

theorem answered_of_cut {stream : Delivery} {command : Command} {step : Step} {bytes left : Bytes}
    (result : step.result = command.read bytes) (cut : cut? stream.bytes = some (bytes, left))
    (keeps : Turn.Keeps ⟨.submit command, step⟩) : Answered stream 0 command step := by
  unfold Answered
  rw [lines_of_cut cut]
  refine ⟨keeps, ?_⟩
  rw [Step.outcome, result, Command.read]
  cases Bytes.text? bytes with
  | none => rfl
  | some line => exact command.tells_interpret line

/-- Once a line is taken, the next one comes first. -/
theorem answered_succ {stream : Delivery} {bytes left : Bytes} (cut : cut? stream.bytes = some (bytes, left)) (i : Nat)
    (command : Command) (step : Step) :
    Answered stream (i + 1) command step ↔ Answered ⟨left, stream.ending⟩ i command step := by
  unfold Answered
  rw [lines_of_cut cut, List.getElem?_cons_succ]

/-- The requests of a connection get the lines of its stream in order. -/
theorem Life.in_step {stream : Delivery} {turns : List Turn} (life : Life stream turns) {i : Nat} {command : Command}
    {step : Step} (sent : (turns.filterMap Turn.sent?)[i]? = some (command, step)) : Answered stream i command step := by
  induction life generalizing i with
  | quiet silent => simp [filterMap_sent?_of_silent silent] at sent
  | idle silent later ih =>
    rw [List.filterMap_cons_none (Turn.sent?_of_silent silent)] at sent
    exact ih sent
  | unsent result kind wrote part begins short drops silent =>
    rw [List.filterMap_cons_none (by rw [Turn.sent?_submit, part, if_neg short]), filterMap_sent?_of_silent silent] at sent
    simp at sent
  | unanswered result all uncut drops silent =>
    rw [List.filterMap_cons_some (by rw [Turn.sent?_submit, if_pos all]), filterMap_sent?_of_silent silent] at sent
    cases i with
    | zero =>
      obtain ⟨rfl, rfl⟩ : _ ∧ _ := by simpa using sent
      exact answered_of_uncut result uncut drops
    | succ i => simp at sent
  | answered result all cut keeps later ih =>
    rw [List.filterMap_cons_some (by rw [Turn.sent?_submit, if_pos all])] at sent
    cases i with
    | zero =>
      obtain ⟨rfl, rfl⟩ : _ ∧ _ := by simpa using sent
      exact answered_of_cut result cut keeps
    | succ i => exact (answered_succ cut i command step).mpr (ih sent)

/-- Over a whole session the `i`-th request that is sent on a socket gets the `i`-th line of what
    that socket delivers before its stream ends; where there is no such line the request fails with
    the end of the stream, and the socket is closed. -/
theorem Session.answered_in_order {client : Client} {network : Network} {calls : List Call} {k i : Nat}
    {command : Command} {step : Step}
    (sent : ((spell client network calls k).filterMap Turn.sent?)[i]? = some (command, step)) :
    Answered (Delivery.ofReads (network.nth k).reads) i command step :=
  (life_of_spell client network calls k).in_step sent

/-- A link that brings an error in two pieces, a line that is no text, and half a line. -/
def Link.ragged : Link :=
  { reads := [.delivers (Bytes.ofText "ERROR no\r"), .fails ⟨.interrupted, "again"⟩, .delivers [10, 255, 13, 10, 80, 79]] }

/-- The requests sent on it: the first is rejected, the second gets no text, the third nothing. -/
def Session.sentOverRagged : List (Command × Step) :=
  (spell ⟨{}, by decide, none⟩ [.ragged] [.submit (.set "k" "v"), .submit (.get "k"), .submit .ping] 0).filterMap Turn.sent?

theorem Session.answered_in_order_ragged :
    ∃ step, sentOverRagged[2]? = some (.ping, step) ∧
      Answered (Delivery.ofReads (Network.nth [.ragged] 0).reads) 2 .ping step := by
  have third : sentOverRagged[2]?.map Prod.fst = some .ping := by decide +kernel
  obtain ⟨⟨_, step⟩, sent, rfl⟩ := Option.map_eq_some_iff.mp third
  exact ⟨step, sent, answered_in_order sent⟩

end LineStore
