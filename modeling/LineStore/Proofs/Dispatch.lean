import LineStore.Proofs.Causes

/-!
How a line is sent, write by write. Each write is answered as the script of the socket has it
(`writeAnswer`), and an answer either lets the sending go on or ends it with a fault (`halting?`). Main
statement: every write offers just the bytes that are not yet accepted; writes are made until none are
left or an answer ends the sending, and not one more; and a write that was interrupted adds itself to
the writes and changes nothing else (`Connection.sent_exactly`).
-/
namespace LineStore
open Framing

/-! ## Writes and their answers -/

/-- How a write is answered that offers some bytes: as the script has it, and behind the end of the
    script all of them are accepted. -/
def writeAnswer (offered : Bytes) : Option WriteOutcome → Except IoError Nat
  | none => .ok offered.length
  | some (.accepts count) => .ok (min count offered.length)
  | some (.fails error) => .error error

/-- The fault that an answer ends a sending with: nothing was accepted, or the write failed and was not
    interrupted. -/
def halting? : Except IoError Nat → Option Fault
  | .ok count => if count = 0 then some .sendStalled else none
  | .error error => if error.isInterruption then none else some (.sendFailed error)

theorem kind_of_halting {answer : Except IoError Nat} {fault : Fault} (halts : halting? answer = some fault) :
    fault.kind = .connection := by
  cases answer with
  | ok count =>
    obtain ⟨-, rfl⟩ : count = 0 ∧ .sendStalled = fault := by simpa [halting?] using halts
    rfl
  | error error =>
    obtain ⟨-, rfl⟩ : error.isInterruption = false ∧ .sendFailed error = fault := by simpa [halting?] using halts
    rfl

/-- An answer that ends a sending accepts nothing. -/
theorem accepted_of_halting {left : Bytes} {answer : Except IoError Nat} (halts : halting? answer ≠ none) :
    (Event.write left answer).accepted = [] := by
  cases answer with
  | error error => rfl
  | ok count =>
    have nothing : count = 0 := by
      by_contra nonzero
      exact halts (if_neg nonzero)
    rw [nothing]
    rfl

theorem accepted_writeAnswer (left : Bytes) (outcome : Option WriteOutcome) :
    (Event.write left (writeAnswer left outcome)).accepted <+: left := by
  rcases outcome with _ | count | error
  · exact List.take_prefix _ _
  · exact List.take_prefix _ _
  · exact List.nil_prefix

/-- Writes made one after another, none of which ends the sending, with the bytes left to be sent and the
    script before and after them. -/
inductive Progress : Bytes → List WriteOutcome → List Event → Bytes → List WriteOutcome → Prop
  | nil {left : Bytes} {writes : List WriteOutcome} : Progress left writes [] left writes
  | cons {left rest last : Bytes} {writes after : List WriteOutcome} {events : List Event} (more : left ≠ [])
      (goesOn : halting? (writeAnswer left writes.head?) = none)
      (split : left = (Event.write left (writeAnswer left writes.head?)).accepted ++ rest)
      (later : Progress rest writes.tail events last after) :
      Progress left writes (.write left (writeAnswer left writes.head?) :: events) last after

namespace Progress
variable {bytes left : Bytes} {writes rest : List WriteOutcome} {events : List Event}

theorem accepted (progress : Progress bytes writes events left rest) :
    bytes = events.flatMap Event.accepted ++ left := by
  induction progress with
  | nil => rfl
  | cons _ _ split _ ih => rw [List.flatMap_cons, List.append_assoc, ← ih, ← split]

theorem script (progress : Progress bytes writes events left rest) : rest = writes.drop events.length := by
  induction progress with
  | nil => rfl
  | cons _ _ _ _ ih => rw [ih, List.length_cons, List.drop_tail]

theorem of_append {before after : List Event} (progress : Progress bytes writes (before ++ after) left rest) :
    ∃ middle between, Progress bytes writes before middle between ∧ Progress middle between after left rest := by
  induction before generalizing bytes writes with
  | nil => exact ⟨bytes, writes, .nil, progress⟩
  | cons event before ih =>
    cases progress with
    | cons more goesOn split later =>
      obtain ⟨middle, between, earlier, rest⟩ := ih later
      exact ⟨middle, between, .cons more goesOn split earlier, rest⟩

end Progress

/-- How a sending may go: all is accepted before an answer ends it, or an answer does while bytes are left. -/
inductive Sent (bytes : Bytes) (writes : List WriteOutcome) : Sending → Prop
  | whole {events : List Event} {rest : List WriteOutcome} (progress : Progress bytes writes events [] rest) :
      Sent bytes writes ⟨none, rest, events⟩
  | halted {events : List Event} {left : Bytes} {rest : List WriteOutcome} {fault : Fault}
      (progress : Progress bytes writes events left rest) (more : left ≠ [])
      (halts : halting? (writeAnswer left rest.head?) = some fault) :
      Sent bytes writes ⟨some fault, rest.tail, events ++ [.write left (writeAnswer left rest.head?)]⟩

theorem Sent.at_once {left : Bytes} {writes : List WriteOutcome} {fault : Fault} (more : left ≠ [])
    (halts : halting? (writeAnswer left writes.head?) = some fault) :
    Sent left writes ⟨some fault, writes.tail, [.write left (writeAnswer left writes.head?)]⟩ := by
  have first : Progress left writes [] left writes := .nil
  exact .halted first more halts

/-- A sending goes on behind a write that does not end it. -/
theorem Sent.after {left rest : Bytes} {writes : List WriteOutcome} {sending : Sending} (more : left ≠ [])
    (goesOn : halting? (writeAnswer left writes.head?) = none)
    (split : left = (Event.write left (writeAnswer left writes.head?)).accepted ++ rest)
    (later : Sent rest writes.tail sending) :
    Sent left writes (sending.after (.write left (writeAnswer left writes.head?))) := by
  cases later with
  | whole progress => exact .whole (.cons more goesOn split progress)
  | halted progress rest halts => exact .halted (.cons more goesOn split progress) rest halts

theorem Sending.offer_sent (left : Bytes) (writes : List WriteOutcome) : Sent left writes (offer left writes) := by
  fun_induction offer left writes with
  | case1 => exact .whole .nil
  | case2 left more =>
    have goesOn : halting? (writeAnswer left ([] : List WriteOutcome).head?) = none := if_neg (by simpa using more)
    exact Sent.after more goesOn (by simp [writeAnswer, Event.accepted]) (.whole .nil)
  | case3 => exact .whole .nil
  | case4 left writes more => exact .at_once more rfl
  | case5 left writes more count stalled ih =>
    have nonempty : 0 < left.length := List.length_pos_iff.mpr more
    have positive : 0 < count := Nat.pos_of_ne_zero fun zero => stalled (by rw [zero])
    have goesOn : halting? (writeAnswer left (WriteOutcome.accepts count :: writes).head?) = none := if_neg (by omega)
    refine Sent.after more goesOn ?_ ih
    rw [List.head?_cons, writeAnswer, accepted_write, List.take_append_drop]
  | case6 left writes more error again ih =>
    have goesOn : halting? (writeAnswer left (WriteOutcome.fails error :: writes).head?) = none := if_pos again
    exact Sent.after more goesOn rfl ih
  | case7 left writes more error final =>
    have halts : halting? (writeAnswer left (WriteOutcome.fails error :: writes).head?) = some (.sendFailed error) :=
      if_neg final
    exact .at_once more halts

/-! ## The bytes that are offered -/

/-- How bytes are sent, told by the writes that are made. -/
structure Dispatch (bytes : Bytes) (writes : List WriteOutcome) (sending : Sending) : Prop where
  /-- Every write offers what is not yet accepted, which is never nothing, and gets the answer that is next
      in the script. -/
  offers : ∀ before event after, sending.events = before ++ event :: after → ∃ left, left ≠ [] ∧
    bytes = before.flatMap Event.accepted ++ left ∧ event = .write left (writeAnswer left writes[before.length]?)
  script : sending.writes = writes.drop sending.events.length
  /-- After every write the bytes accepted are a beginning of those to be sent. -/
  begins : ∀ first, first <+: sending.events → first.flatMap Event.accepted <+: bytes
  /-- Once all of them are accepted no write is made. -/
  enough : ∀ first, first <+: sending.events → first.flatMap Event.accepted = bytes → first = sending.events
  /-- No write is made after an answer that ends the sending. -/
  final : ∀ before left answer after, sending.events = before ++ .write left answer :: after →
    halting? answer ≠ none → after = []
  fine : sending.fault = none ↔ sending.events.flatMap Event.accepted = bytes
  /-- A sending fails with the fault that the last answer ends it with, and that is a connection fault. -/
  fails : ∀ fault, sending.fault = some fault ↔
    ∃ before left answer, sending.events = before ++ [.write left answer] ∧ halting? answer = some fault
  kind : ∀ fault, sending.fault = some fault → fault.kind = .connection

/-- What a write offers that is made on the way, and how it is answered. -/
theorem Progress.offers {bytes last : Bytes} {writes rest : List WriteOutcome} {before after : List Event} {event : Event}
    (progress : Progress bytes writes (before ++ event :: after) last rest) :
    ∃ left, left ≠ [] ∧ bytes = before.flatMap Event.accepted ++ left ∧
      event = .write left (writeAnswer left writes[before.length]?) ∧
      halting? (writeAnswer left writes[before.length]?) = none := by
  obtain ⟨left, script, earlier, later⟩ := progress.of_append
  have next : script.head? = writes[before.length]? := by rw [earlier.script, List.head?_drop]
  cases later with
  | cons more goesOn split later =>
    rw [next] at goesOn ⊢
    exact ⟨left, more, earlier.accepted, rfl, goesOn⟩

/-- A member of a list is the last one, or one of those before it. -/
theorem eq_or_eq_of_concat {α : Type} {list before after : List α} {last member : α}
    (same : list ++ [last] = before ++ member :: after) :
    (before = list ∧ member = last ∧ after = []) ∨ ∃ others, list = before ++ member :: others := by
  rcases List.eq_nil_or_concat after with rfl | ⟨others, final, rfl⟩
  · obtain ⟨rfl, ends⟩ := List.append_inj' same rfl
    obtain rfl : last = member := by simpa using ends
    exact .inl ⟨rfl, rfl, rfl⟩
  · rw [List.concat_eq_append, ← List.cons_append, ← List.append_assoc] at same
    exact .inr ⟨others, (List.append_inj' same rfl).1⟩

namespace Sent
variable {bytes : Bytes} {writes : List WriteOutcome} {sending : Sending} (way : Sent bytes writes sending)
include way

theorem offers {before after : List Event} {event : Event} (same : sending.events = before ++ event :: after) :
    ∃ left, left ≠ [] ∧ bytes = before.flatMap Event.accepted ++ left ∧
      event = .write left (writeAnswer left writes[before.length]?) ∧
      (halting? (writeAnswer left writes[before.length]?) ≠ none → after = [] ∧
        sending.fault = halting? (writeAnswer left writes[before.length]?)) := by
  cases way with
  | whole progress =>
    obtain rfl := same
    obtain ⟨left, more, split, asked, goesOn⟩ := progress.offers
    exact ⟨left, more, split, asked, fun halts => absurd goesOn halts⟩
  | @halted events left rest fault progress more halts =>
    -- The write is the one that ended the sending, or one on the way to it.
    rcases eq_or_eq_of_concat same with ⟨rfl, rfl, rfl⟩ | ⟨others, rfl⟩
    · have next : rest.head? = writes[before.length]? := by rw [progress.script, List.head?_drop]
      rw [next] at halts ⊢
      exact ⟨left, more, progress.accepted, rfl, fun _ => ⟨rfl, halts.symm⟩⟩
    · obtain ⟨left, more, split, asked, goesOn⟩ := progress.offers
      exact ⟨left, more, split, asked, fun halts => absurd goesOn halts⟩

theorem fine : sending.fault = none ↔ sending.events.flatMap Event.accepted = bytes := by
  cases way with
  | whole progress => exact iff_of_true rfl (by rw [progress.accepted, List.append_nil])
  | @halted events left rest fault progress more halts =>
    refine iff_of_false (Option.some_ne_none fault) fun all => more ?_
    have last : (Event.write left (writeAnswer left rest.head?)).accepted = [] := accepted_of_halting (by rw [halts]; simp)
    rw [List.flatMap_append, List.flatMap_singleton, last, List.append_nil, progress.accepted] at all
    exact List.self_eq_append_right.mp all

theorem script : sending.writes = writes.drop sending.events.length := by
  cases way with
  | whole progress => exact progress.script
  | halted progress more halts =>
    dsimp only
    rw [progress.script, List.tail_drop, List.length_append, List.length_singleton]

/-- A sending that fails does so with its last answer. -/
theorem last {fault : Fault} (failed : sending.fault = some fault) :
    ∃ before left answer, sending.events = before ++ [.write left answer] ∧ halting? answer = some fault := by
  cases way with
  | whole progress => simp at failed
  | halted progress more halts =>
    obtain rfl := Option.some.inj failed
    exact ⟨_, _, _, rfl, halts⟩

theorem dispatch : Dispatch bytes writes sending where
  offers := by
    intro before event after same
    obtain ⟨left, more, split, asked, -⟩ := way.offers same
    exact ⟨left, more, split, asked⟩
  script := way.script
  begins := by
    rintro first ⟨after, same⟩
    -- Only the last of the writes is to be looked at: what it offered is behind all that was accepted before.
    rcases List.eq_nil_or_concat first with rfl | ⟨before, event, rfl⟩
    · exact List.nil_prefix
    · rw [List.concat_eq_append, List.append_assoc] at same
      obtain ⟨left, -, rfl, rfl, -⟩ := way.offers same.symm
      rw [List.concat_eq_append, List.flatMap_append, List.flatMap_singleton]
      exact (List.prefix_append_right_inj _).mpr (accepted_writeAnswer _ _)
  enough := by
    rintro first ⟨after, same⟩ all
    cases after with
    | nil => rw [← same, List.append_nil]
    | cons event after =>
      obtain ⟨left, more, split, -, -⟩ := way.offers same.symm
      rw [all] at split
      exact absurd (List.self_eq_append_right.mp split) more
  final := by
    intro before left answer after same halts
    obtain ⟨_, -, -, asked, ends⟩ := way.offers same
    obtain ⟨rfl, rfl⟩ := Event.write.inj asked
    exact (ends halts).1
  fine := way.fine
  fails := by
    refine fun fault => ⟨way.last, ?_⟩
    rintro ⟨before, left, answer, same, halts⟩
    obtain ⟨_, -, -, asked, ends⟩ := way.offers same
    obtain ⟨rfl, rfl⟩ := Event.write.inj asked
    rw [(ends (by rw [halts]; exact Option.some_ne_none fault)).2, halts]
  kind := by
    intro fault failed
    obtain ⟨_, _, _, -, halts⟩ := way.last failed
    exact kind_of_halting halts

end Sent

/-! ## Interrupted writes -/

def WriteOutcome.isInterrupted : WriteOutcome → Bool
  | .accepts _ => false
  | .fails error => error.isInterruption

/-- Without the interruptions in its script a sending goes the same way, less the writes that were
    interrupted. -/
theorem Sending.offer_uninterrupted (left : Bytes) (writes : List WriteOutcome) :
    offer left (writes.filter (!·.isInterrupted)) =
      ⟨(offer left writes).fault, (offer left writes).writes.filter (!·.isInterrupted),
        (offer left writes).events.filter (!·.isInterrupted)⟩ := by
  fun_induction offer left writes with
  | case1 => rfl
  | case2 left more =>
    rw [List.filter_nil, offer, if_neg more]
    rfl
  | case3 outcome writes => cases kept : (outcome :: writes).filter (!·.isInterrupted) <;> rfl
  | case4 left writes more =>
    have kept : (WriteOutcome.accepts 0 :: writes).filter (!·.isInterrupted) =
        .accepts 0 :: writes.filter (!·.isInterrupted) := rfl
    rw [kept, offer, if_neg more]
    rfl
  | case5 left writes more count stalled ih =>
    have kept : (WriteOutcome.accepts count :: writes).filter (!·.isInterrupted) =
        .accepts count :: writes.filter (!·.isInterrupted) := rfl
    rw [kept, offer, if_neg more, ih]
    · rfl
    · exact stalled
  | case6 left writes more error again ih =>
    have dropped : (WriteOutcome.fails error :: writes).filter (!·.isInterrupted) = writes.filter (!·.isInterrupted) :=
      List.filter_cons_of_neg (by simp [WriteOutcome.isInterrupted, again])
    have unmade : ((offer left writes).after (.write left (.error error))).events.filter (!·.isInterrupted) =
        (offer left writes).events.filter (!·.isInterrupted) :=
      List.filter_cons_of_neg (by simp [Event.isInterrupted, again])
    rw [dropped, ih, unmade]
    rfl
  | case7 left writes more error final =>
    have kept : (WriteOutcome.fails error :: writes).filter (!·.isInterrupted) =
        .fails error :: writes.filter (!·.isInterrupted) :=
      List.filter_cons_of_pos (by simp [WriteOutcome.isInterrupted, final])
    rw [kept, offer, if_neg more, if_neg final]
    simp [Event.isInterrupted, final]

/-- Every write of a line offers just what is not yet accepted of its frame; writes are made until all is
    accepted, or until one accepts nothing or fails and was not interrupted; and the writes that were
    interrupted change nothing but their number. -/
theorem Connection.sent_exactly (connection : Connection) (line : String) :
    ∃ sending : Sending,
      connection.send line = (sending.fault, { connection with writes := sending.writes }, { events := sending.events }) ∧
      Dispatch (frame line) connection.writes sending ∧
      Connection.send { connection with writes := connection.writes.filter (!·.isInterrupted) } line =
        (sending.fault, { connection with writes := sending.writes.filter (!·.isInterrupted) },
          { events := sending.events.filter (!·.isInterrupted) }) := by
  refine ⟨Sending.offer (frame line) connection.writes, rfl, (Sending.offer_sent _ _).dispatch, ?_⟩
  unfold send
  rw [Sending.offer_uninterrupted]

end LineStore
