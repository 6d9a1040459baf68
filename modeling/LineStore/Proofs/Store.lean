import LineStore.Session
import LineStore.Proofs.Commands
import LineStore.Proofs.Replies
import Mathlib.Data.List.TakeWhile

/-!
A reference store. It cuts each line it gets at its first two spaces, keeps the written form of a
value under its key, and answers line by line (`Store.serve`). Main statement: where it stands for
the contents of a map, the line of a command is answered as the map would answer, and the store
stands for what the map holds next (`Represents.answer`).
-/
namespace LineStore
open Framing Bytes

/-- What a store holds: under a key the written form of a value. -/
abbrev Store := Bytes → Option Bytes

/-- The words of a line, cut at its first spaces and at no more than a given number of them. -/
def fields : Nat → Bytes → List Bytes
  | 0, line => [line]
  | count + 1, line =>
    match line.dropWhile (· ≠ space) with
    | [] => [line]
    | _ :: rest => line.takeWhile (· ≠ space) :: fields count rest

namespace Store

def empty : Store := fun _ => none

def put (store : Store) (key written : Bytes) : Store := fun other => if other = key then some written else store other

def remove (store : Store) (key : Bytes) : Store := fun other => if other = key then none else store other

/-- The store after a line, and the line that answers it. -/
def answer (store : Store) (line : Bytes) : Store × Bytes :=
  match fields 2 line with
  | [verb, key, written] =>
    if verb = Bytes.ofText "SET" then (store.put key written, Bytes.ofText "OK")
    else (store, Bytes.ofText "ERROR unknown command")
  | [verb, key] =>
    if verb = Bytes.ofText "GET" then
      match store key with
      | some written => (store, Bytes.ofText "VALUE " ++ written)
      | none => (store, Bytes.ofText "NOT_FOUND")
    else if verb = Bytes.ofText "DEL" then (store.remove key, Bytes.ofText "OK")
    else (store, Bytes.ofText "ERROR unknown command")
  | [verb] =>
    if verb = Bytes.ofText "PING" then (store, Bytes.ofText "PONG")
    else (store, Bytes.ofText "ERROR unknown command")
  | _ => (store, Bytes.ofText "ERROR unknown command")

/-- The store after some lines, and the bytes of the lines that answer them. -/
def serve (store : Store) : List Bytes → Store × Bytes
  | [] => (store, [])
  | line :: later =>
    let (changed, reply) := store.answer line
    let (kept, replies) := serve changed later
    (kept, reply ++ carriageReturn :: lineFeed :: replies)

end Store

/-! ## The words of a line -/

theorem fields_append {word : Bytes} (whole : space ∉ word) (count : Nat) (rest : Bytes) :
    fields (count + 1) (word ++ space :: rest) = word :: fields count rest := by
  have kept : ∀ b ∈ word, decide (b ≠ space) = true := fun b member => decide_eq_true fun same => whole (same ▸ member)
  have dropped : (word ++ space :: rest).dropWhile (· ≠ space) = space :: rest := by
    rw [List.dropWhile_append_of_pos kept]
    rfl
  have taken : (word ++ space :: rest).takeWhile (· ≠ space) = word := by
    rw [List.takeWhile_append_of_pos kept, List.takeWhile_cons_of_neg (by decide), List.append_nil]
  rw [fields, dropped, taken]

theorem fields_of_whole {word : Bytes} (whole : space ∉ word) (count : Nat) : fields count word = [word] := by
  cases count with
  | zero => rfl
  | succ count =>
    have wordEnds : word.dropWhile (· ≠ space) = [] :=
      List.dropWhile_eq_nil_iff.mpr fun b member => decide_eq_true fun same => whole (same ▸ member)
    rw [fields, wordEnds]

/-- A text without a space has no space among its bytes. -/
theorem space_notMem_ofText {text : String} (spaceless : ' ' ∉ text.toList) : space ∉ Bytes.ofText text := by
  intro member
  rw [Bytes.ofText_eq_flatMap] at member
  obtain ⟨c, inside, byte⟩ := List.mem_flatMap.mp member
  obtain ⟨-, rfl⟩ := Bytes.encode_of_mem (by decide) byte
  exact spaceless inside

/-! ## A store in place of a map -/

/-- What a map holds. -/
abbrev Contents := String → Option String

namespace Contents

def empty : Contents := fun _ => none

def next (contents : Contents) : Call → Contents
  | .submit (.set key value) => fun other => if other = key then some value else contents other
  | .submit (.del key) => fun other => if other = key then none else contents other
  | _ => contents

/-- What a map answers to a call. The value of two quotes is given back as the empty one. -/
def answer (contents : Contents) : Call → Answer
  | .submit (.get key) =>
    match contents key with
    | some value => .found (if value = Value.emptyForm then "" else value)
    | none => .absent
  | .submit (.del _) => .removed
  | _ => .done

/-- What a map answers to calls made one after another. -/
def answers (contents : Contents) : List Call → List Answer
  | [] => []
  | call :: calls => contents.answer call :: (contents.next call).answers calls

end Contents

/-- A command that fits its line: its key is a nonempty word, and no text of it holds a terminator. -/
structure Command.Plain (command : Command) : Prop where
  keyed : command.WellKeyed
  spaceless : ∀ key, command.key? = some key → ' ' ∉ key.toList
  oneLine : ∀ text ∈ command.texts, OneLine text

/-- A store holds the written forms of what a map holds, and each of them fits a line. -/
structure Represents (store : Store) (contents : Contents) : Prop where
  same : ∀ key, store (Bytes.ofText key) = (contents key).map fun value => Bytes.ofText (Value.toWire value)
  oneLine : ∀ key value, contents key = some value → OneLine value

theorem represents_empty : Represents .empty .empty := ⟨fun _ => rfl, fun _ _ => nofun⟩

namespace Represents
variable {store : Store} {contents : Contents} (represents : Represents store contents)
include represents

theorem put (key : String) {value : String} (oneLine : OneLine value) :
    Represents (store.put (Bytes.ofText key) (Bytes.ofText (Value.toWire value)))
      (contents.next (.submit (.set key value))) := by
  constructor
  · intro other
    by_cases here : other = key
    · simp [Store.put, Contents.next, here]
    · have apart : Bytes.ofText other ≠ Bytes.ofText key := fun same => here (Bytes.ofText_injective same)
      simp [Store.put, Contents.next, here, apart, represents.same other]
  · intro other held found
    by_cases here : other = key
    · obtain rfl : value = held := by simpa [Contents.next, here] using found
      exact oneLine
    · exact represents.oneLine other held (by simpa [Contents.next, here] using found)

theorem remove (key : String) : Represents (store.remove (Bytes.ofText key)) (contents.next (.submit (.del key))) := by
  constructor
  · intro other
    by_cases here : other = key
    · simp [Store.remove, Contents.next, here]
    · have apart : Bytes.ofText other ≠ Bytes.ofText key := fun same => here (Bytes.ofText_injective same)
      simp [Store.remove, Contents.next, here, apart, represents.same other]
  · intro other held found
    by_cases here : other = key
    · simp [Contents.next, here] at found
    · exact represents.oneLine other held (by simpa [Contents.next, here] using found)

/-- The line of a command is answered as the map answers the command. -/
theorem answer {command : Command} (plain : command.Plain) :
    ∃ reply, (store.answer (Bytes.ofText command.line)).2 = Bytes.ofText reply ∧ OneLine reply ∧
      command.Accepts reply (contents.answer (.submit command)) ∧
      Represents (store.answer (Bytes.ofText command.line)).1 (contents.next (.submit command)) := by
  have verbs : space ∉ Bytes.ofText "SET" ∧ space ∉ Bytes.ofText "GET" ∧ space ∉ Bytes.ofText "DEL" ∧
      space ∉ Bytes.ofText "PING" := by decide +kernel
  obtain ⟨set, get, del, ping⟩ := verbs
  cases command with
  | set key value =>
    have whole := space_notMem_ofText (plain.spaceless key rfl)
    have words : fields 2 (Bytes.ofText (Command.set key value).line) =
        [Bytes.ofText "SET", Bytes.ofText key, Bytes.ofText (Value.toWire value)] := by
      show fields 2 (Bytes.ofText ("SET" ++ " " ++ key ++ " " ++ Value.toWire value)) = _
      rw [Bytes.ofText_spaced, Bytes.ofText_spaced, List.append_assoc, List.cons_append, fields_append set, fields_append whole, fields]
    rw [Store.answer, words]
    exact ⟨"OK", rfl, by decide +kernel, .set, represents.put key (plain.oneLine value (by simp [Command.texts]))⟩
  | get key =>
    have whole := space_notMem_ofText (plain.spaceless key rfl)
    have words : fields 2 (Bytes.ofText (Command.get key).line) = [Bytes.ofText "GET", Bytes.ofText key] := by
      show fields 2 (Bytes.ofText ("GET" ++ " " ++ key)) = _
      rw [Bytes.ofText_spaced, fields_append get, fields_of_whole whole]
    rw [Store.answer, words]
    cases held : contents key with
    | none =>
      have absent : store (Bytes.ofText key) = none := by rw [represents.same, held]; rfl
      simp only [if_true, absent, Contents.answer, held]
      exact ⟨"NOT_FOUND", rfl, by decide +kernel, .absent, represents⟩
    | some value =>
      have found : store (Bytes.ofText key) = some (Bytes.ofText (Value.toWire value)) := by rw [represents.same, held]; rfl
      have oneLine : OneLine ("VALUE" ++ " " ++ Value.toWire value) :=
        (oneLine_spaced _ _).mpr ⟨by decide +kernel, (Value.oneLine_toWire value).mpr (represents.oneLine key value held)⟩
      simp only [if_true, found, Contents.answer, held]
      refine ⟨"VALUE " ++ Value.toWire value, (Bytes.ofText_append _ _).symm, oneLine, ?_, represents⟩
      rw [← Value.ofWire_toWire]
      exact .found (Value.toWire value)
  | del key =>
    have whole := space_notMem_ofText (plain.spaceless key rfl)
    have words : fields 2 (Bytes.ofText (Command.del key).line) = [Bytes.ofText "DEL", Bytes.ofText key] := by
      show fields 2 (Bytes.ofText ("DEL" ++ " " ++ key)) = _
      rw [Bytes.ofText_spaced, fields_append del, fields_of_whole whole]
    have other : Bytes.ofText "DEL" ≠ Bytes.ofText "GET" := by decide +kernel
    rw [Store.answer, words]
    simp only [if_neg other, if_true]
    exact ⟨"OK", rfl, by decide +kernel, .del, represents.remove key⟩
  | ping =>
    have words : fields 2 (Bytes.ofText Command.ping.line) = [Bytes.ofText "PING"] := fields_of_whole ping 2
    rw [Store.answer, words]
    exact ⟨"PONG", rfl, by decide +kernel, .ping, represents⟩

end Represents
end LineStore
