import LineStore.Connection.Send
import Mathlib.Tactic.Common

/-!
What a socket accepts. However it cuts what it is offered, the bytes accepted are a beginning of
those to be sent: all of them when the sending succeeds, fewer when it ends with a fault
(`Sending.offer_cases`). Where every write accepts something or is to be repeated, none fails
(`Sending.offer_of_harmless`).
-/
namespace LineStore

/-- The bytes accepted by the writes of a trace, in order. -/
def Trace.accepted (trace : Trace) : Bytes := trace.events.flatMap Event.accepted

@[simp] theorem Trace.accepted_append (first second : Trace) :
    (first ++ second).accepted = first.accepted ++ second.accepted := by
  simp [Trace.accepted]

/-- A write that accepts something, or does nothing and is repeated. -/
def WriteOutcome.Harmless : WriteOutcome → Prop
  | .accepts count => 0 < count
  | .fails error => error.isInterruption = true

instance : DecidablePred WriteOutcome.Harmless := fun
  | .accepts count => inferInstanceAs (Decidable (0 < count))
  | .fails error => inferInstanceAs (Decidable (error.isInterruption = true))

namespace Sending

theorem events_after (event : Event) (sending : Sending) : (sending.after event).events = event :: sending.events := rfl

theorem accepted_write (left : Bytes) (count : Nat) :
    (Event.write left (.ok (min count left.length))).accepted = left.take count := by
  rw [Event.accepted, List.take_eq_take_iff]
  omega

/-- A sending comes to its end or stops before it. -/
theorem offer_cases (left : Bytes) (writes : List WriteOutcome) :
    ((offer left writes).fault = none ∧ (offer left writes).events.flatMap Event.accepted = left) ∨
      ∃ fault, (offer left writes).fault = some fault ∧ fault.kind = .connection ∧
        (offer left writes).events.flatMap Event.accepted <+: left ∧
        (offer left writes).events.flatMap Event.accepted ≠ left := by
  fun_induction offer left writes with
  | case1 => exact .inl ⟨rfl, rfl⟩
  | case2 left more => exact .inl ⟨rfl, by simp [Event.accepted]⟩
  | case3 => exact .inl ⟨rfl, rfl⟩
  | case4 left writes more =>
    exact .inr ⟨.sendStalled, rfl, rfl, by simp [Event.accepted], by simp [Event.accepted, Ne.symm more]⟩
  | case5 left writes more count stalled ih =>
    rw [events_after, List.flatMap_cons, accepted_write]
    rcases ih with ⟨fine, all⟩ | ⟨fault, stopped, kind, begins, short⟩
    · exact .inl ⟨fine, by rw [all, List.take_append_drop]⟩
    · refine .inr ⟨fault, stopped, kind, ?_, ?_⟩
      · conv => rhs; rw [← List.take_append_drop count left]
        exact (List.prefix_append_right_inj _).mpr begins
      · intro all
        conv at all => rhs; rw [← List.take_append_drop count left]
        exact short (List.append_cancel_left all)
  | case6 left writes more error again ih =>
    rw [events_after, List.flatMap_cons]
    exact ih
  | case7 left writes more error final =>
    exact .inr ⟨.sendFailed error, rfl, rfl, by simp [Event.accepted], by simp [Event.accepted, Ne.symm more]⟩

theorem offer_writes (left : Bytes) (writes : List WriteOutcome) :
    ∀ event ∈ (offer left writes).events, ∃ offered answer, event = .write offered answer := by
  fun_induction offer left writes with
  | case1 => simp
  | case2 => simp
  | case3 => simp
  | case4 => simp
  | case5 left writes more count stalled ih => simpa [events_after] using ih
  | case6 left writes more error again ih => simpa [events_after] using ih
  | case7 => simp

/-- Bytes that are to be sent are offered at least once. -/
theorem offer_offers {left : Bytes} (more : left ≠ []) (writes : List WriteOutcome) :
    ∃ answer later, (offer left writes).events = .write left answer :: later := by
  cases writes with
  | nil => exact ⟨_, [], by rw [offer, if_neg more]⟩
  | cons outcome writes =>
    unfold offer
    rw [if_neg more]
    split
    · exact ⟨_, _, rfl⟩
    · exact ⟨_, _, rfl⟩
    · split
      · exact ⟨_, _, rfl⟩
      · exact ⟨_, _, rfl⟩

/-- Harmless writes bring every sending to its end, and those after it are harmless too. -/
theorem offer_of_harmless {left : Bytes} {writes : List WriteOutcome} (harmless : ∀ write ∈ writes, write.Harmless) :
    (offer left writes).fault = none ∧ ∀ write ∈ (offer left writes).writes, write.Harmless := by
  fun_induction offer left writes with
  | case1 => simp
  | case2 => simp
  | case3 => exact ⟨rfl, harmless⟩
  | case4 left writes more => exact absurd (harmless (.accepts 0) (by simp)) (Nat.lt_irrefl 0)
  | case5 left writes more count stalled ih => exact ih fun write member => harmless write (by simp [member])
  | case6 left writes more error again ih => exact ih fun write member => harmless write (by simp [member])
  | case7 left writes more error final => exact absurd (harmless (.fails error) (by simp)) final

end Sending
end LineStore
