import LineStore.Framing
import Mathlib.Tactic.Common

/-!
The lines of a stream and the texts they spell. A stream is cut at each first terminator into
complete lines (`lines`); what follows the last terminator belongs to none of them. Main
statements: a text holds the terminator exactly when its bytes do (`unbroken_ofText_iff`), so no
character is ever cut; texts that do not hold it are read back from their frames
(`lines_frames`), and a text that holds it never is (`two_le_lines_frame`).
-/
namespace LineStore

/-! ## The bytes of a text -/

namespace Bytes

theorem ofText_append (first second : String) : ofText (first ++ second) = ofText first ++ ofText second := by
  simp [ofText, String.toByteArray_append]

theorem ofText_injective {first second : String} (same : ofText first = ofText second) : first = second := by
  have read := text?_ofText first
  rw [same, text?_ofText] at read
  exact (Option.some.inj read).symm

/-- The byte of a space. -/
def space : UInt8 := 32

theorem ofText_spaced (first second : String) : ofText (first ++ " " ++ second) = ofText first ++ space :: ofText second := by
  have one : ofText " " = [space] := by decide +kernel
  rw [ofText_append, ofText_append, one, List.append_assoc]
  rfl

theorem ofText_ofList (chars : List Char) : ofText (String.ofList chars) = chars.flatMap String.utf8EncodeChar := by
  simp [ofText, List.utf8Encode]

theorem ofText_eq_flatMap (text : String) : ofText text = text.toList.flatMap String.utf8EncodeChar := by
  rw [← ofText_ofList, String.ofList_toList]

theorem encode_narrow {c : Char} (narrow : c.toNat ≤ 127) : String.utf8EncodeChar c = [UInt8.ofNat c.toNat] := by
  have small : c.val.toNat ≤ 127 := narrow
  simp only [String.utf8EncodeChar, if_pos small]
  rfl

theorem encode_wide {c : Char} (wide : 127 < c.toNat) : ∀ b ∈ String.utf8EncodeChar c, 128 ≤ b.toNat := by
  intro b member
  have large : ¬ c.val.toNat ≤ 127 := Nat.not_le.mpr wide
  simp only [String.utf8EncodeChar, if_neg large] at member
  split_ifs at member <;> simp only [List.mem_cons, List.not_mem_nil, or_false] at member
  · rcases member with rfl | rfl <;> simp only [UInt8.toNat_ofNat'] <;> omega
  · rcases member with rfl | rfl | rfl <;> simp only [UInt8.toNat_ofNat'] <;> omega
  · rcases member with rfl | rfl | rfl | rfl <;> simp only [UInt8.toNat_ofNat'] <;> omega

/-- A byte below 128 stands for the character of its number and is no part of another one. -/
theorem encode_of_mem {c : Char} {b : UInt8} (ascii : b.toNat < 128) (member : b ∈ String.utf8EncodeChar c) :
    String.utf8EncodeChar c = [b] ∧ c = Char.ofNat b.toNat := by
  have narrow : c.toNat ≤ 127 := by
    by_contra wide
    have high := encode_wide (by omega) b member
    omega
  rw [encode_narrow narrow, List.mem_singleton] at member
  have number : b.toNat = c.toNat := by
    rw [member, UInt8.toNat_ofNat']
    omega
  exact ⟨by rw [encode_narrow narrow, member], by rw [number, Char.ofNat_toNat]⟩

end Bytes

namespace Framing

/-! ## Texts that hold no terminator -/

/-- A text that may be sent as one line. -/
def OneLine (text : String) : Prop := ∀ before after : String, text ≠ before ++ terminator ++ after

/-- A terminator among the bytes of some characters is one among the characters. -/
theorem exists_terminator {chars : List Char} {before after : Bytes}
    (same : chars.flatMap String.utf8EncodeChar = before ++ carriageReturn :: lineFeed :: after) :
    ∃ left right : List Char, chars = left ++ '\r' :: '\n' :: right := by
  induction chars generalizing before with
  | nil => simp at same
  | cons c chars ih =>
    rw [List.flatMap_cons, List.append_eq_append_iff] at same
    rcases same with ⟨more, -, later⟩ | ⟨part, here, later⟩
    · obtain ⟨left, right, rfl⟩ := ih later
      exact ⟨c :: left, right, rfl⟩
    · cases part with
      | nil =>
        have behind : chars.flatMap String.utf8EncodeChar = [] ++ carriageReturn :: lineFeed :: after := later.symm
        obtain ⟨left, right, rfl⟩ := ih behind
        exact ⟨c :: left, right, rfl⟩
      | cons b part =>
        -- The carriage return begins within `c`, so it is all of `c`.
        simp only [List.cons_append, List.cons.injEq] at later
        obtain ⟨rfl, later⟩ := later
        obtain ⟨alone, rfl⟩ := Bytes.encode_of_mem (c := c) (b := carriageReturn) (by decide)
          (by rw [here]; simp)
        rw [alone] at here
        have parts := congrArg List.length here
        simp only [List.length_cons, List.length_nil, List.length_append] at parts
        obtain rfl : part = [] := List.length_eq_zero_iff.mp (by omega)
        cases chars with
        | nil => simp at later
        | cons d chars =>
          rw [List.nil_append, List.flatMap_cons] at later
          have member : lineFeed ∈ String.utf8EncodeChar d := by
            cases bytes : String.utf8EncodeChar d with
            | nil => exact absurd bytes String.utf8EncodeChar_ne_nil
            | cons e rest =>
              rw [bytes, List.cons_append, List.cons.injEq] at later
              simp [later.1]
          obtain ⟨-, rfl⟩ := Bytes.encode_of_mem (by decide) member
          exact ⟨[], chars, rfl⟩

theorem ofText_around_terminator (before after : String) :
    Bytes.ofText (before ++ terminator ++ after) =
      Bytes.ofText before ++ carriageReturn :: lineFeed :: Bytes.ofText after := by
  rw [Bytes.ofText_append, Bytes.ofText_append, ofText_terminator]
  simp

/-- A text holds the terminator exactly when its bytes do. -/
theorem unbroken_ofText_iff {text : String} : Unbroken (Bytes.ofText text) ↔ OneLine text := by
  constructor
  · rintro whole before after rfl
    exact whole _ _ (ofText_around_terminator before after)
  · intro oneLine before after same
    rw [Bytes.ofText_eq_flatMap] at same
    obtain ⟨left, right, chars⟩ := exists_terminator same
    apply oneLine (String.ofList left) (String.ofList right)
    rw [← String.ofList_toList (s := text), chars]
    apply String.toList_injective
    simp [terminator]

instance (text : String) : Decidable (OneLine text) := decidable_of_iff _ unbroken_ofText_iff

/-- No terminator lies across a byte that is no part of it. -/
theorem unbroken_around {b : UInt8} (notReturn : b ≠ carriageReturn) (notFeed : b ≠ lineFeed) {first second : Bytes} :
    Unbroken (first ++ b :: second) ↔ Unbroken first ∧ Unbroken second := by
  constructor
  · intro whole
    constructor
    · rintro before after rfl
      exact whole before (after ++ b :: second) (by simp)
    · rintro before after rfl
      exact whole (first ++ b :: before) after (by simp)
  · rintro ⟨left, right⟩ before after same
    rcases List.append_eq_append_iff.mp same with ⟨more, -, later⟩ | ⟨part, here, later⟩
    · cases more with
      | nil => exact notReturn (List.cons.inj later).1
      | cons c more => exact right more after (List.cons.inj later).2
    · cases part with
      | nil => exact notReturn (List.cons.inj later).1.symm
      | cons c part =>
        simp only [List.cons_append, List.cons.injEq] at later
        obtain ⟨rfl, later⟩ := later
        cases part with
        | nil => exact notFeed (List.cons.inj later).1.symm
        | cons d part =>
          obtain ⟨rfl, -⟩ := List.cons.inj later
          exact left before part here

theorem oneLine_spaced (first second : String) : OneLine (first ++ " " ++ second) ↔ OneLine first ∧ OneLine second := by
  rw [← unbroken_ofText_iff, ← unbroken_ofText_iff, ← unbroken_ofText_iff, Bytes.ofText_spaced]
  exact unbroken_around (by decide) (by decide)

/-! ## Cutting a stream -/

theorem length_of_cut {bytes line left : Bytes} (cut : cut? bytes = some (line, left)) : left.length < bytes.length := by
  rw [(cut?_eq_some_iff.mp cut).1]
  simp only [List.length_append, List.length_cons]
  omega

/-- What comes later does not move the end of a line that is complete. -/
theorem cut?_append {bytes line left : Bytes} (cut : cut? bytes = some (line, left)) (more : Bytes) :
    cut? (bytes ++ more) = some (line, left ++ more) := by
  obtain ⟨rfl, whole⟩ := cut?_eq_some_iff.mp cut
  exact cut?_eq_some_iff.mpr ⟨by simp, whole⟩

theorem cut?_frame {line : String} (oneLine : OneLine line) (more : Bytes) :
    cut? (frame line ++ more) = some (Bytes.ofText line, more) :=
  cut?_eq_some_iff.mpr ⟨by simp [frame], unbroken_ofText_iff.mpr oneLine⟩

theorem frame_ne_nil (line : String) : frame line ≠ [] := by simp [frame]

/-- A frame ends with its terminator, which is whole only at the end. -/
theorem cut?_of_prefix_frame {line : String} (oneLine : OneLine line) {part : Bytes} (begins : part <+: frame line)
    (short : part ≠ frame line) : cut? part = none := by
  obtain ⟨more, same⟩ := begins
  cases cut : cut? part with
  | none => rfl
  | some pair =>
    have first := cut?_append cut more
    rw [same, ← List.append_nil (frame line), cut?_frame oneLine] at first
    simp only [Option.some.injEq, Prod.mk.injEq] at first
    have nothing : more = [] := (List.append_eq_nil_iff.mp first.2.symm).2
    exact absurd (by rw [← same, nothing, List.append_nil]) short

/-- The complete lines of a stream, each without its terminator. -/
def lines (bytes : Bytes) : List Bytes :=
  match _cut : cut? bytes with
  | none => []
  | some (line, left) => line :: lines left
termination_by bytes.length
decreasing_by exact length_of_cut _cut

theorem lines_of_uncut {bytes : Bytes} (uncut : cut? bytes = none) : lines bytes = [] := by
  rw [lines]
  split
  · rfl
  · simp_all

theorem lines_of_cut {bytes line left : Bytes} (cut : cut? bytes = some (line, left)) :
    lines bytes = line :: lines left := by
  rw [lines]
  split
  · simp_all
  · simp_all

theorem lines_frame_append {line : String} (oneLine : OneLine line) (more : Bytes) :
    lines (frame line ++ more) = Bytes.ofText line :: lines more :=
  lines_of_cut (cut?_frame oneLine more)

/-- Texts sent as lines are read back as they were sent, whatever unfinished line follows them. -/
theorem lines_frames {texts : List String} (oneLine : ∀ text ∈ texts, OneLine text) {rest : Bytes}
    (unfinished : cut? rest = none) : lines (texts.flatMap frame ++ rest) = texts.map Bytes.ofText := by
  induction texts with
  | nil => exact lines_of_uncut unfinished
  | cons text texts ih =>
    rw [List.flatMap_cons, List.append_assoc, lines_frame_append (oneLine text (by simp)), List.map_cons,
      ih (fun text member => oneLine text (by simp [member]))]

/-! ## Streams that end with a terminator -/

/-- A stream that ends with a terminator, or holds nothing. -/
def Ended (bytes : Bytes) : Prop := bytes = [] ∨ ∃ before, bytes = before ++ [carriageReturn, lineFeed]

theorem ended_frame (line : String) : Ended (frame line) := .inr ⟨_, rfl⟩

theorem eq_nil_of_ended {bytes : Bytes} (ended : Ended bytes) (uncut : cut? bytes = none) : bytes = [] := by
  rcases ended with empty | ⟨before, rfl⟩
  · exact empty
  · exact absurd rfl (cut?_eq_none_iff.mp uncut before [])

/-- What is left after the first line ends as the stream does. -/
theorem ended_of_cut {bytes line left : Bytes} (ended : Ended bytes) (cut : cut? bytes = some (line, left)) :
    Ended left := by
  obtain ⟨same, -⟩ := cut?_eq_some_iff.mp cut
  rcases ended with rfl | ⟨before, rfl⟩
  · simp at same
  · rcases List.eq_nil_or_concat left with rfl | ⟨most, b, rfl⟩
    · exact .inl rfl
    · have ends := congrArg (fun bytes => bytes.reverse.take 2) same
      rcases List.eq_nil_or_concat most with rfl | ⟨most, a, rfl⟩
      · simp [carriageReturn, lineFeed] at ends
      · simp only [List.concat_eq_append, List.reverse_append, List.reverse_cons, List.reverse_nil, List.nil_append,
          List.cons_append, List.append_assoc, List.take_succ_cons, List.take_zero, List.cons.injEq, and_true] at ends
        exact .inr ⟨most, by simp [← ends.1, ← ends.2]⟩

/-- Behind its end a stream is cut afresh. -/
theorem lines_append {bytes : Bytes} (ended : Ended bytes) (more : Bytes) :
    lines (bytes ++ more) = lines bytes ++ lines more := by
  fun_induction lines bytes with
  | case1 bytes uncut =>
    rw [eq_nil_of_ended ended uncut]
    rfl
  | case2 bytes line left cut ih => rw [lines_of_cut (cut?_append cut more), ih (ended_of_cut ended cut), List.cons_append]

/-- A text that holds the terminator is cut into several lines. -/
theorem two_le_lines_frame {line : String} (broken : ¬ OneLine line) : 2 ≤ (lines (frame line)).length := by
  have ended := ended_frame line
  have ends : cut? (frame line) ≠ none := fun uncut => frame_ne_nil line (eq_nil_of_ended ended uncut)
  obtain ⟨⟨first, left⟩, cut⟩ := Option.ne_none_iff_exists'.mp ends
  obtain ⟨same, whole⟩ := cut?_eq_some_iff.mp cut
  have more : cut? left ≠ none := by
    intro uncut
    obtain rfl := eq_nil_of_ended (ended_of_cut ended cut) uncut
    have alone : Bytes.ofText line = first := List.append_cancel_right same
    exact broken (unbroken_ofText_iff.mp (alone ▸ whole))
  obtain ⟨⟨second, rest⟩, again⟩ := Option.ne_none_iff_exists'.mp more
  rw [lines_of_cut cut, lines_of_cut again]
  simp

end Framing
end LineStore
