import LineStore.Proofs.Requests

/-!
A value that is set is seen by nobody but the server. Two commands that differ only in such a value,
and are of one length, are told apart by nothing but the bytes offered to the socket
(`Command.Masks`): neither by the log, nor by a fault, nor by what the client asks of the network.
Main statement: two sessions whose calls differ only in this go the same way, once the bytes of
their writes are blotted out (`Session.values_hidden`). The length has to be the same, since it
decides how many writes it takes to send a line.
-/
namespace LineStore
open Framing

/-! ## Blotted traces -/

/-- As many bytes as there are, but none of them. -/
def Bytes.blotted (bytes : Bytes) : Bytes := bytes.map fun _ => 0

theorem Bytes.blotted_eq_iff {first second : Bytes} : first.blotted = second.blotted ↔ first.length = second.length := by
  unfold blotted
  rw [List.map_const', List.map_const']
  constructor
  · intro same
    simpa using congrArg List.length same
  · intro size
    rw [size]

/-- An event without the bytes of a write; how many were offered, and what became of them, remains. -/
def Event.blotted : Event → Event
  | .write offered answer => .write (Bytes.blotted offered) answer
  | event => event

def Trace.blotted (trace : Trace) : Trace := { trace with events := trace.events.map Event.blotted }

def Step.blotted (step : Step) : Step := { step with trace := step.trace.blotted }

def Client.Outcome.blotted (outcome : Client.Outcome) : Client.Outcome :=
  { outcome with trace := outcome.trace.blotted }

@[simp] theorem Trace.blotted_append (first second : Trace) :
    (first ++ second).blotted = first.blotted ++ second.blotted := by
  show Trace.mk _ _ = Trace.mk _ _
  rw [Trace.events_append, List.map_append]
  rfl

/-! ## Commands that are told apart by a value alone -/

/-- Two commands that are logged, answered and refused alike and are sent as lines of one length. -/
structure Command.Masks (first second : Command) : Prop where
  verb : first.verb = second.verb
  key? : first.key? = second.key?
  summary : first.summary = second.summary
  interpret : first.interpret = second.interpret
  size : (frame first.line).length = (frame second.line).length

theorem Command.masks_set (key : String) {first second : String}
    (size : (Bytes.ofText (Value.toWire first)).length = (Bytes.ofText (Value.toWire second)).length) :
    Masks (.set key first) (.set key second) where
  verb := rfl
  key? := rfl
  summary := rfl
  interpret := by
    funext line
    unfold interpret answer?
    cases Reply.ofLine line <;> rfl
  size := by simp [frame, line, Bytes.ofText_append, size]

/-- Two calls that are the same, or set one key to values whose written forms have equally many bytes. -/
inductive Call.SameSize : Call → Call → Prop
  | same (call : Call) : SameSize call call
  | set (key : String) {first second : String}
      (size : (Bytes.ofText (Value.toWire first)).length = (Bytes.ofText (Value.toWire second)).length) :
      SameSize (.submit (.set key first)) (.submit (.set key second))

/-! ## Sending them -/

def Sending.blotted (sending : Sending) : Sending := { sending with events := sending.events.map Event.blotted }

/-- How writes go depends on how many bytes there are to be sent, and not on which. -/
theorem Sending.offer_blotted (left : Bytes) (writes : List WriteOutcome) :
    offer (Bytes.blotted left) writes = (offer left writes).blotted := by
  have filled : ∀ {bytes : Bytes}, bytes ≠ [] → Bytes.blotted bytes ≠ [] := by simp [Bytes.blotted]
  have size : ∀ bytes : Bytes, (Bytes.blotted bytes).length = bytes.length := by simp [Bytes.blotted]
  fun_induction offer left writes with
  | case1 => rfl
  | case2 left more =>
    rw [offer, if_neg (filled more), size]
    rfl
  | case3 => rfl
  | case4 left writes more =>
    rw [offer, if_neg (filled more)]
    rfl
  | case5 left writes more count stalled ih =>
    have rest : (Bytes.blotted left).drop count = Bytes.blotted (left.drop count) := List.map_drop.symm
    rw [offer, if_neg (filled more), rest, ih, size]
    · rfl
    · exact stalled
  | case6 left writes more error again ih =>
    rw [offer, if_neg (filled more), if_pos again, ih]
    rfl
  | case7 left writes more error final =>
    rw [offer, if_neg (filled more), if_neg final]
    rfl

namespace Connection

theorem exchange_masked (connection : Connection) {first second : String}
    (size : (frame first).length = (frame second).length) :
    (connection.exchange first).1 = (connection.exchange second).1 ∧
      (connection.exchange first).2.1 = (connection.exchange second).2.1 ∧
      (connection.exchange first).2.2.blotted = (connection.exchange second).2.2.blotted := by
  have offers : (Sending.offer (frame first) connection.writes).blotted =
      (Sending.offer (frame second) connection.writes).blotted := by
    rw [← Sending.offer_blotted, ← Sending.offer_blotted, Bytes.blotted_eq_iff.mpr size]
  obtain ⟨faults, writes, events⟩ : _ ∧ _ ∧ _ := by simpa [Sending.blotted] using offers
  have same : connection.sentTo first = connection.sentTo second := by rw [sentTo, sentTo, writes]
  have sent : ({ events := (Sending.offer (frame first) connection.writes).events } : Trace).blotted =
      ({ events := (Sending.offer (frame second) connection.writes).events } : Trace).blotted := by
    rw [Trace.blotted, Trace.blotted, events]
  cases stopped : (Sending.offer (frame first) connection.writes).fault with
  | some fault =>
    rw [exchange_of_fault stopped, exchange_of_fault (faults ▸ stopped), same]
    exact ⟨rfl, rfl, sent⟩
  | none =>
    rw [exchange_of_sent stopped, exchange_of_sent (faults ▸ stopped), same, Trace.blotted_append, Trace.blotted_append,
      sent]
    exact ⟨rfl, rfl, rfl⟩

end Connection

namespace Client

theorem request_masked {first second : Command} (masks : first.Masks second) (client : Client) (network : Network) :
    (client.request network first).blotted = (client.request network second).blotted := by
  unfold request
  rw [masks.verb, masks.key?, masks.summary]
  rcases client.reach network with ⟨fault | connection, rest, reached⟩
  · rfl
  · obtain ⟨answers, afters, exchanges⟩ := connection.exchange_masked masks.size
    rcases firstIs : connection.exchange first.line with ⟨answer, after, exchanged⟩
    rcases secondIs : connection.exchange second.line with ⟨said, kept, other⟩
    rw [firstIs, secondIs] at answers afters exchanges
    obtain rfl : answer = said := answers
    obtain rfl : after = kept := afters
    replace exchanges : exchanged.blotted = other.blotted := exchanges
    simp only [firstIs, secondIs]
    cases answer with
    | ok line => simp [Outcome.blotted, exchanges, masks.interpret]
    | error fault =>
      by_cases lost : fault.kind = .connection
      · simp [lost, Outcome.blotted, exchanges]
      · simp [lost, Outcome.blotted, exchanges]

theorem perform_masked {first second : Call} (sizes : first.SameSize second) (client : Client) (network : Network) :
    (client.perform network first).blotted = (client.perform network second).blotted := by
  cases sizes with
  | same call => rfl
  | @set key first second size =>
    show (client.submit network (.set key first)).blotted = (client.submit network (.set key second)).blotted
    have masks := Command.masks_set key size
    have keyed : (Command.set key first).WellKeyed ↔ (Command.set key second).WellKeyed := by
      rw [Command.WellKeyed, Command.WellKeyed, masks.key?]
    unfold submit
    by_cases named : (Command.set key first).WellKeyed
    · rw [if_pos named, if_pos (keyed.mp named)]
      exact client.request_masked masks network
    · rw [if_neg named, if_neg (mt keyed.mpr named)]

end Client

/-! ## Whole sessions -/

namespace Session

/-- What is set leaves no mark on a session but in the bytes sent: the results, the addresses
    connected to, the records of the log and the other events are those of any values of the same
    sizes, and so is the state that the client is left in. -/
theorem values_hidden {first second : List Call} (sizes : List.Forall₂ Call.SameSize first second) (client : Client)
    (network : Network) :
    (run client network first).steps.map Step.blotted = (run client network second).steps.map Step.blotted ∧
      (run client network first).client = (run client network second).client ∧
      (run client network first).ending = (run client network second).ending := by
  induction sizes generalizing client network with
  | nil => exact ⟨rfl, rfl, rfl⟩
  | @cons call other first second size sizes ih =>
    have outcomes := client.perform_masked size network
    obtain ⟨result, after, rest, trace⟩ : _ ∧ _ ∧ _ ∧ _ := by simpa [Client.Outcome.blotted] using outcomes
    obtain ⟨steps, last, ending⟩ := ih (client.perform network other).client (client.perform network other).network
    simp only [run, List.map_cons, Step.blotted, result, after, rest, trace]
    exact ⟨congrArg _ steps, last, ending⟩

end Session

/-- A link that takes a line in pieces, and on which the server refuses what it is told. -/
def Link.refusing : Link :=
  { writes := [.accepts 3, .fails ⟨.interrupted, "again"⟩], reads := [.delivers (Bytes.ofText "ERROR full\r\n")] }

/-- Two values are told apart by the bytes accepted, and by nothing else. -/
theorem Session.values_hidden_refusing :
    let empty := run ⟨{}, by decide, none⟩ [.refusing] [.submit (.set "k" "")]
    let other := run ⟨{}, by decide, none⟩ [.refusing] [.submit (.set "k" "ab")]
    empty.steps.map Step.blotted = other.steps.map Step.blotted ∧
      empty.steps.map (·.trace.accepted) ≠ other.steps.map (·.trace.accepted) := by
  intro empty other
  have sizes : List.Forall₂ Call.SameSize [.submit (.set "k" "")] [.submit (.set "k" "ab")] :=
    .cons (.set "k" (by decide +kernel)) .nil
  exact ⟨(values_hidden sizes _ _).1, by decide +kernel⟩

end LineStore
