import LineStore.Proofs.Store

/-!
Commands read back from their lines. A line is cut at its first space into a verb and what follows it;
what follows the verb of a setting is cut once more, into a key and a written value
(`Command.ofLine?`). Main statement: where the key that is set is one word, the line of a command gives
the command back, but for a value of two quotes, which stands for the empty one. So no two commands share
a line but settings of one key to either of these values; and a line holds the terminator exactly when
its key or its value does (`Command.lines_unambiguous`).
-/
namespace LineStore
open Framing

namespace Command

/-! ## Lines and the commands they carry -/

/-- The command that a line carries, if it carries one. -/
def ofLine? (line : String) : Option Command :=
  match fields 1 (Bytes.ofText line) with
  | [verb] => if verb = Bytes.ofText "PING" then some .ping else none
  | [verb, rest] =>
    if verb = Bytes.ofText "GET" then (Bytes.text? rest).map .get
    else if verb = Bytes.ofText "DEL" then (Bytes.text? rest).map .del
    else if verb = Bytes.ofText "SET" then
      match fields 1 rest with
      | [key, written] =>
        (Bytes.text? key).bind fun key => (Bytes.text? written).map fun written => .set key (Value.ofWire written)
      | _ => none
    else none
  | _ => none

/-- A command that, if it sets a key, sets one without a space. -/
def SetsWord (command : Command) : Prop := ∀ key value, command = .set key value → ' ' ∉ key.toList

/-- A command with the value that its line stands for: two quotes stand for the empty value. -/
def settled : Command → Command
  | .set key value => .set key (if value = Value.emptyForm then "" else value)
  | command => command

/-- Settings of one key, each to the empty value or to the two quotes it is written as. -/
def BothEmpty (first second : Command) : Prop :=
  ∃ key one other, first = .set key one ∧ second = .set key other ∧ (one = "" ∨ one = Value.emptyForm) ∧
    (other = "" ∨ other = Value.emptyForm)

/-- A line that begins with a word and a space is cut there, whatever is behind it. -/
theorem fields_spaced {word : String} (whole : Bytes.space ∉ Bytes.ofText word) (rest : String) :
    fields 1 (Bytes.ofText (word ++ " " ++ rest)) = [Bytes.ofText word, Bytes.ofText rest] := by
  rw [Bytes.ofText_spaced, fields_append whole, fields]

theorem ofLine?_line {command : Command} (word : command.SetsWord) : ofLine? command.line = some command.settled := by
  have verbs : Bytes.space ∉ Bytes.ofText "SET" ∧ Bytes.space ∉ Bytes.ofText "GET" ∧
      Bytes.space ∉ Bytes.ofText "DEL" ∧ Bytes.space ∉ Bytes.ofText "PING" := by decide +kernel
  obtain ⟨set, get, del, ping⟩ := verbs
  have apart : Bytes.ofText "DEL" ≠ Bytes.ofText "GET" ∧ Bytes.ofText "SET" ≠ Bytes.ofText "GET" ∧
      Bytes.ofText "SET" ≠ Bytes.ofText "DEL" := by decide +kernel
  obtain ⟨delGet, setGet, setDel⟩ := apart
  cases command with
  | set key value =>
    have line : (Command.set key value).line = "SET" ++ " " ++ (key ++ " " ++ Value.toWire value) := by
      show "SET" ++ " " ++ key ++ " " ++ Value.toWire value = _
      simp only [String.append_assoc]
    -- The key is one word, so what is behind the verb is cut where the key ends.
    have written := fields_spaced (space_notMem_ofText (word key value rfl)) (Value.toWire value)
    rw [ofLine?, line, fields_spaced set]
    simp only [if_neg setGet, if_neg setDel, if_true, written, Bytes.text?_ofText, Option.bind_some, Option.map_some,
      Value.ofWire_toWire, settled]
  | get key =>
    have cut : fields 1 (Bytes.ofText (Command.get key).line) = [Bytes.ofText "GET", Bytes.ofText key] := fields_spaced get key
    rw [ofLine?, cut]
    simp only [if_true, Bytes.text?_ofText, Option.map_some, settled]
  | del key =>
    have cut : fields 1 (Bytes.ofText (Command.del key).line) = [Bytes.ofText "DEL", Bytes.ofText key] := fields_spaced del key
    rw [ofLine?, cut]
    simp only [if_neg delGet, if_true, Bytes.text?_ofText, Option.map_some, settled]
  | ping =>
    have cut : fields 1 (Bytes.ofText Command.ping.line) = [Bytes.ofText "PING"] := fields_of_whole ping 1
    rw [ofLine?, cut]
    simp only [if_true, settled]

/-! ## Commands that share a line -/

/-- Two values are taken for the same exactly when they are, or when both are taken for the empty one. -/
theorem settled_value_eq_iff {one other : String} :
    (if one = Value.emptyForm then "" else one) = (if other = Value.emptyForm then "" else other) ↔
      one = other ∨ ((one = "" ∨ one = Value.emptyForm) ∧ (other = "" ∨ other = Value.emptyForm)) := by
  by_cases first : one = Value.emptyForm
  · by_cases second : other = Value.emptyForm
    · simp [first, second]
    · simp [first, second, eq_comm]
  · by_cases second : other = Value.emptyForm
    · simp [first, second]
    · simp only [first, second, if_false, or_false]
      exact ⟨.inl, fun same => same.elim id fun empty => empty.1.trans empty.2.symm⟩

theorem settled_eq_iff {first second : Command} :
    first.settled = second.settled ↔ first = second ∨ first.BothEmpty second := by
  cases first <;> cases second
  case set.set key one name other =>
    simp only [settled, set.injEq, settled_value_eq_iff, BothEmpty]
    constructor
    · rintro ⟨rfl, same | empty⟩
      · exact .inl ⟨rfl, same⟩
      · exact .inr ⟨key, one, other, ⟨rfl, rfl⟩, ⟨rfl, rfl⟩, empty⟩
    · rintro (⟨rfl, same⟩ | ⟨_, _, _, ⟨rfl, rfl⟩, ⟨rfl, rfl⟩, empty⟩)
      · exact ⟨rfl, .inl same⟩
      · exact ⟨rfl, .inr empty⟩
  all_goals simp [settled, BothEmpty]

/-- A command and the one it stands for share their line. -/
theorem line_settled (command : Command) : command.settled.line = command.line := by
  cases command with
  | set key value =>
    by_cases quotes : value = Value.emptyForm
    · rw [settled, if_pos quotes, quotes]
      rfl
    · rw [settled, if_neg quotes]
  | _ => rfl

theorem line_eq_iff {first second : Command} (firstWord : first.SetsWord) (secondWord : second.SetsWord) :
    first.line = second.line ↔ first = second ∨ first.BothEmpty second := by
  rw [← settled_eq_iff]
  constructor
  · intro same
    have read := ofLine?_line firstWord
    rw [same, ofLine?_line secondWord] at read
    exact (Option.some.inj read).symm
  · intro same
    rw [← line_settled first, ← line_settled second, same]

/-- The line of a command says which command it is, as far as values go that are told apart on the wire, and
    it has no terminator that its key and its value have not. -/
theorem lines_unambiguous :
    (∀ command : Command, command.SetsWord → ofLine? command.line = some command.settled) ∧
      (∀ first second : Command, first.SetsWord → second.SetsWord →
        (first.line = second.line ↔ first = second ∨ first.BothEmpty second)) ∧
      ∀ command : Command, OneLine command.line ↔ ∀ text ∈ command.texts, OneLine text :=
  ⟨fun _ word => ofLine?_line word, fun _ _ firstWord secondWord => line_eq_iff firstWord secondWord, oneLine_line_iff⟩

/-- A setting of a value with spaces is read back, and so is a removal of a key that looks like a setting; two
    settings that empty a key share their line. -/
theorem lines_unambiguous_lookalike :
    ofLine? (Command.set "k" "a  b").line = some (.set "k" "a  b") ∧
      ofLine? (Command.del "SET k v").line = some (.del "SET k v") ∧
      (Command.set "k" "").line = (Command.set "k" Value.emptyForm).line := by
  obtain ⟨back, share, -⟩ := lines_unambiguous
  have word : ∀ value, (Command.set "k" value).SetsWord := by
    rintro value _ _ ⟨⟩
    decide
  refine ⟨back (.set "k" "a  b") (word _), back (.del "SET k v") nofun, ?_⟩
  exact (share _ _ (word _) (word _)).mpr (.inr ⟨"k", "", Value.emptyForm, rfl, rfl, .inl rfl, .inr rfl⟩)

end Command
end LineStore
