/-!
Text without the control sequences of a terminal: what it shows where nothing obeys them. A
sequence begins with an escape character and is left out to its end, and a control character that
is no blank is left out too. A blank within a sequence is shown and interrupts it: the text behind
the blank is shown as well, up to the next control character, from which the sequence goes on
unless a character beyond ASCII has ended it. Text without control characters is shown as it is
(`plain_eq_self`).
-/
namespace LineStore.CommandLine.ControlSequence

/-- How far a control sequence has been read. -/
inductive Progress where
  | text
  | escape
  /-- An escape sequence of more than one character, before its last. -/
  | escapeMiddle
  /-- A sequence opened by a bracket, before its last character. -/
  | control
  /-- A device control string, before its data: at its start, in its parameters, and behind them. -/
  | deviceStart
  | deviceParameters
  | deviceMiddle
  /-- The data of a string that only the string terminator ends. -/
  | data
  /-- A command to the system around the terminal, which the bell ends. -/
  | command
  deriving DecidableEq, Repr

/-- Tab, line feed, form feed and carriage return, which move on without a mark. -/
def isBlank (c : Char) : Bool := c = '\t' || c = '\n' || c = '\x0c' || c = '\r'

/-- A character of the ASCII range from `first` to `last`. -/
def within (first last c : Char) : Bool := first.val ≤ c.val && c.val ≤ last.val

/-- A character one of whose bytes is the string terminator. -/
def endsData (c : Char) : Bool := (String.utf8EncodeChar c).contains 0x9c

namespace Progress

/-- Where a character leads that is not shown. Cancelling ends any sequence, and an escape begins
    a new one. -/
def next (progress : Progress) (c : Char) : Progress :=
  if c = '\x18' || c = '\x1a' then .text
  else if c = '\x1b' then .escape
  else match progress with
    | .text => .text
    | .escape =>
      if c = '[' then .control
      else if c = ']' then .command
      else if c = 'P' then .deviceStart
      else if c = 'X' || c = '^' || c = '_' then .data
      else if within ' ' '/' c then .escapeMiddle
      else if within '0' '~' c then .text
      else .escape
    | .escapeMiddle => if within '0' '~' c then .text else .escapeMiddle
    | .control => if within '@' '~' c then .text else .control
    | .deviceStart =>
      if within ' ' '/' c then .deviceMiddle
      else if within '0' '?' c then .deviceParameters
      else if within '@' '~' c then .data
      else .deviceStart
    | .deviceParameters =>
      if within ' ' '/' c then .deviceMiddle
      else if within '<' '~' c then .data
      else .deviceParameters
    | .deviceMiddle => if within '0' '~' c then .data else .deviceMiddle
    | .data => if endsData c then .text else .data
    | .command => if c = '\x07' then .text else .command

/-- The characters that are shown: of text all but controls, of the shorter sequences blanks. -/
def shows : Progress → Char → Bool
  | .text, c => isBlank c || (' ' ≤ c && c ≠ '\x7f')
  | .escape, c | .escapeMiddle, c | .control, c => isBlank c
  | _, _ => false

/-- Where a character leads that is shown. -/
def pass (progress : Progress) (c : Char) : Progress :=
  if c.toNat < 128 then progress else .text

end Progress

/-- What is shown of a text, with a sequence in progress that is interrupted or not. -/
def shown (progress : Progress) (interrupted : Bool) : List Char → List Char
  | [] => []
  | c :: rest =>
    if (if interrupted then Progress.text else progress).shows c then c :: shown (progress.pass c) true rest
    else shown (progress.next c) false rest

def plain (text : String) : String := String.ofList (shown .text false text.toList)

theorem shown_eq_self {text : List Char} (printable : ∀ c ∈ text, Progress.text.shows c = true) (interrupted : Bool) :
    shown .text interrupted text = text := by
  induction text generalizing interrupted with
  | nil => rfl
  | cons c rest ih =>
    have stays : Progress.text.pass c = .text := by
      unfold Progress.pass
      split <;> rfl
    rw [shown, ite_self, if_pos (printable c (by simp)), stays, ih (fun d member => printable d (by simp [member]))]

theorem plain_eq_self {text : String} (printable : ∀ c ∈ text.toList, Progress.text.shows c = true) :
    plain text = text := by
  rw [plain, shown_eq_self printable, String.ofList_toList]

end LineStore.CommandLine.ControlSequence
