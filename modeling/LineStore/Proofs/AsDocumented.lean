import LineStore.CommandLine.Run
import LineStore.Proofs.Arguments
import LineStore.Proofs.Documented

/-!
The parser that the program is run with reads as documented. What is written is read piece by piece
(`ofArguments_written`), so the text behind an option is its value and no other text is, however it is
spelled. Every option is given once, so it finds its place empty on whichever side of the command's word
it stands, and what is read amounts to the defaults with every option taken (`Settings.applyTo`). Main
result: `documented_ofArguments`.
-/
namespace LineStore.CommandLine

/-! ## Numbers -/

namespace Decimal
variable {bound : Nat}

@[simp] theorem toList_text (decimal : Decimal bound) : decimal.text.toList = decimal.digits.map digitChar :=
  String.toList_ofList

/-- A digit is neither sign, and stands for its own value. -/
theorem digitChar_spec : ∀ digit : Fin 10, (digitChar digit).isDigit = true ∧ digitChar digit ≠ '+' ∧
    digitChar digit ≠ '-' ∧ (digitChar digit).toNat - '0'.toNat = digit.val := by
  decide

theorem signless (decimal : Decimal bound) {first : Char} {rest : List Char}
    (text : decimal.text.toList = first :: rest) : first ≠ '+' ∧ first ≠ '-' := by
  have member : first ∈ decimal.digits.map digitChar := by
    rw [← toList_text, text]
    exact List.mem_cons_self
  obtain ⟨digit, _, rfl⟩ := List.mem_map.mp member
  exact ⟨(digitChar_spec digit).2.1, (digitChar_spec digit).2.2.1⟩

theorem plain (decimal : Decimal bound) : Plain decimal.text := by
  intro dashed
  obtain ⟨rest, text⟩ := List.head?_eq_some_iff.mp dashed
  exact (decimal.signless text).2 rfl

end Decimal

namespace Numeral
open Decimal (digitChar)
variable {bound : Nat}

/-- Reading digits from the highest on, each time ten times what was read and the next digit, is their
    positional value. -/
theorem foldl_digits (digits : List (Fin 10)) :
    (digits.map digitChar).foldl (fun value digit => 10 * value + (digit.toNat - '0'.toNat)) 0 =
      Nat.ofDigits 10 (digits.map Fin.val).reverse := by
  have step : (fun (value : Nat) (digit : Fin 10) => 10 * value + ((digitChar digit).toNat - '0'.toNat)) =
      fun value digit => digit.val + 10 * value := by
    funext value digit
    rw [(Decimal.digitChar_spec digit).2.2.2, Nat.add_comm]
  rw [List.foldl_map, step, Nat.ofDigits_eq_foldr, List.foldr_reverse, List.foldl_map]
  simp

theorem digits?_decimal (decimal : Decimal bound) : digits? decimal.text.toList = some decimal.value := by
  have written : decimal.digits.map digitChar ≠ [] ∧ (decimal.digits.map digitChar).all Char.isDigit := by
    refine ⟨by simpa using decimal.written, ?_⟩
    rw [List.all_map, List.all_eq_true]
    intro digit _
    exact (Decimal.digitChar_spec digit).1
  rw [Decimal.toList_text, digits?, if_pos written, foldl_digits, Decimal.value]

theorem natural?_decimal (decimal : Decimal bound) : natural? decimal.text.toList = some decimal.value := by
  rw [natural?.eq_2 _ fun rest signed => (decimal.signless signed).1 rfl, digits?_decimal]

theorem integer?_decimal (decimal : Decimal bound) : integer? decimal.text.toList = some (decimal.value : Int) := by
  rw [integer?.eq_2 _ fun rest signed => (decimal.signless signed).2 rfl, natural?_decimal]
  rfl

theorem port?_decimal (decimal : Decimal 65536) : port? decimal.text = some (UInt16.ofNat decimal.value) := by
  have bounded : decimal.value < 65536 := decimal.bounded
  have inside : 0 ≤ (decimal.value : Int) ∧ (decimal.value : Int) < 65536 := by omega
  rw [port?, integer?_decimal]
  simp only [if_pos inside, Int.toNat_natCast]

theorem milliseconds?_decimal (decimal : Decimal (2 ^ 64)) :
    milliseconds? decimal.text = some (UInt64.ofNat decimal.value) := by
  have bounded : decimal.value < 18446744073709551616 := decimal.bounded
  rw [milliseconds?, natural?_decimal]
  simp only [if_pos bounded]

end Numeral

/-! ## The items of a line -/

theorem argument_of_plain {text : String} (plain : Plain text) : Argument.ofString text = .plain := by
  unfold Argument.ofString
  split
  · rename_i dashes
    simp [Plain, dashes] at plain
  · rename_i dashes
    simp [Plain, dashes] at plain
  · rename_i dash
    simp [Plain, dash] at plain
  · rfl

namespace Given

def item : Given → Item
  | .host name => .assign .host name.text false
  | .port number => .assign .port number.text false
  | .timeout count => .assign .timeout count.text false
  | .verbose _ => .verbose

theorem item_cases (given : Given) :
    (∃ option text, given.item = .assign option text false) ∨ ∃ flag, given = .verbose flag := by
  cases given with
  | host name => exact .inl ⟨_, _, rfl⟩
  | port number => exact .inl ⟨_, _, rfl⟩
  | timeout count => exact .inl ⟨_, _, rfl⟩
  | verbose flag => exact .inr ⟨flag, rfl⟩

theorem ofArguments_append (given : Given) (rest : List String) :
    Item.ofArguments (given.arguments ++ rest) = given.item :: Item.ofArguments rest := by
  -- The value stands in an argument of its own, which is taken whatever else it could be.
  have valued : ∀ (argument name : String) (option : ValuedOption) (value : String),
      Argument.ofString argument = .long name none → ValuedOption.named? name = some option → Plain value →
        Item.ofArguments (argument :: value :: rest) = .assign option value false :: Item.ofArguments rest := by
    intro argument name option value long named plain
    simp only [Item.ofArguments, long, named, argument_of_plain plain, if_true]
  cases given with
  | host name => exact valued _ "host" .host name.text (by decide) rfl name.plain
  | port number => exact valued _ "port" .port number.text (by decide) rfl number.plain
  | timeout count => exact valued _ "timeout-ms" .timeout count.text (by decide) rfl count.plain
  | verbose flag => cases flag <;> rfl

end Given

def Piece.item : Piece → Item
  | .word text => .operand text
  | .option given => given.item

/-- What is written is read piece by piece. -/
theorem ofArguments_written {pieces : List Piece} (plain : ∀ text ∈ words pieces, Plain text) :
    Item.ofArguments (written pieces) = pieces.map Piece.item := by
  induction pieces with
  | nil => rfl
  | cons piece pieces ih =>
    cases piece with
    | word text =>
      have read : Item.ofArguments (text :: written pieces) = .operand text :: Item.ofArguments (written pieces) := by
        rw [Item.ofArguments, argument_of_plain (plain text (by simp))]
      exact read.trans (congrArg _ (ih fun later member => plain later (by simp [member])))
    | option given => exact (given.ofArguments_append _).trans (congrArg _ (ih plain))

/-! ## Settings that take what is given -/

namespace Settings

/-- An option is not set. -/
def Lacks (settings : Settings) : OptionName → Prop
  | .host => settings.host = none
  | .port => settings.port = none
  | .timeout => settings.timeout = none
  | .verbose => settings.verbose = false

def take (settings : Settings) : Given → Settings
  | .host name => { settings with host := some name.text }
  | .port number => { settings with port := some (.ofNat number.value) }
  | .timeout count => { settings with timeout := some (.ofNat count.value) }
  | .verbose _ => { settings with verbose := true }

theorem Lacks.take {settings : Settings} {other : OptionName} (lacks : settings.Lacks other) {given : Given}
    (different : other ≠ given.name) : (settings.take given).Lacks other := by
  cases given <;> cases other <;> first | exact lacks | exact absurd rfl different

/-- An option that is not set can be given a value that can be read. -/
theorem assign_given {settings : Settings} {given : Given} (lacks : settings.Lacks given.name) {option : ValuedOption}
    {text : String} {attached : Bool} (item : given.item = .assign option text attached) :
    settings.assign option text = .ok (settings.take given) := by
  rw [assign_ok_iff]
  cases given with
  | host name =>
    cases item
    exact .host lacks
  | port number =>
    cases item
    exact .port lacks (Numeral.port?_decimal number)
  | timeout count =>
    cases item
    exact .timeout lacks (Numeral.milliseconds?_decimal count)
  | verbose flag => cases item

/-- Every option that is still to come has a name of its own, which is not set. -/
structure Room (settings : Settings) (givens : List Given) : Prop where
  once : (givens.map Given.name).Nodup
  empty : ∀ given ∈ givens, settings.Lacks given.name

theorem Room.tail {settings : Settings} {given : Given} {givens : List Given} (room : settings.Room (given :: givens)) :
    (settings.take given).Room givens := by
  obtain ⟨first, once⟩ := List.nodup_cons.mp room.once
  refine ⟨once, fun later member => (room.empty later (List.mem_cons_of_mem _ member)).take ?_⟩
  intro same
  exact first (same ▸ List.mem_map_of_mem member)

theorem room_default {givens : List Given} (once : (givens.map Given.name).Nodup) : Room {} givens := by
  refine ⟨once, fun given _ => ?_⟩
  cases given <;> rfl

/-- What is read, with the settings prevailing over it. -/
def applyTo (settings : Settings) (cli : Cli) : Cli :=
  { cli with
    host := settings.host.getD cli.host
    port := settings.port.getD cli.port
    timeout := settings.timeout.getD cli.timeout
    verbose := settings.verbose || cli.verbose }

theorem applyTo_take (settings : Settings) (given : Given) (cli : Cli) :
    (settings.take given).applyTo cli = (settings.applyTo cli).take given := by
  cases given <;> rfl

theorem orElse_applyTo (inner outer : Settings) (cli : Cli) : (inner.orElse outer).applyTo cli = inner.applyTo (outer.applyTo cli) := by
  obtain ⟨host, port, timeout, verbose⟩ := inner
  cases host <;> cases port <;> cases timeout <;> cases verbose <;> rfl

theorem applyTo_default (cli : Cli) : Settings.applyTo {} cli = cli := rfl

theorem cli_eq_applyTo (settings : Settings) (command : Command) : settings.cli command = settings.applyTo { command } := by
  obtain ⟨host, port, timeout, verbose⟩ := settings
  cases verbose <;> rfl

end Settings

/-! ## Reading a line -/

/-- A command's first word names it, and its other words are what it takes. -/
theorem wordsOf_spec (command : Command) : ∃ subcommand operands,
    wordsOf command = Subcommand.word subcommand :: operands ∧
    Subcommand.named? subcommand.word = some subcommand ∧ subcommand.word ≠ "help" ∧
    subcommand.command? operands = some command := by
  cases command with
  | set key value => exact ⟨.set, [key, value], rfl, by decide, by decide, rfl⟩
  | get key => exact ⟨.get, [key], rfl, by decide, by decide, rfl⟩
  | del key => exact ⟨.del, [key], rfl, by decide, by decide, rfl⟩
  | ping => exact ⟨.ping, [], rfl, by decide, by decide, rfl⟩

theorem Subcommand.length_of_command? {subcommand : Subcommand} {operands : List String} {command : Command}
    (taken : subcommand.command? operands = some command) : operands.length = subcommand.arity := by
  unfold command? at taken
  split at taken <;> first | rfl | exact absurd taken nofun

namespace Cli
open Settings (Room)

/-- Behind the command's word an option that is not set is given its value at once. -/
theorem readOperands_given {settings : Settings} {given : Given} (lacks : settings.Lacks given.name)
    (subcommand : Subcommand) (taken : List String) (items : List Item) :
    readOperands subcommand settings taken (given.item :: items) =
      readOperands subcommand (settings.take given) taken items := by
  rcases given.item_cases with ⟨option, text, item⟩ | ⟨flag, rfl⟩
  · rw [item, readOperands, Settings.assign_given lacks item]
    rfl
  · have unset : settings.verbose = false := lacks
    rw [Given.item, readOperands, Settings.setVerbose, unset]
    rfl

theorem readOperands_items {subcommand : Subcommand} {settings : Settings} {taken : List String} {pieces : List Piece}
    {command : Command} (room : settings.Room (options pieces))
    (complete : subcommand.command? (taken ++ words pieces) = some command) :
    ∃ after, readOperands subcommand settings taken (pieces.map Piece.item) = .ok (after, command) ∧
      ∀ cli, after.applyTo cli = takeAll (options pieces) (settings.applyTo cli) := by
  induction pieces generalizing settings taken with
  | nil =>
    have whole : subcommand.command? taken = some command := by simpa [words] using complete
    refine ⟨settings, ?_, fun cli => rfl⟩
    rw [List.map_nil, readOperands, whole]
  | cons piece pieces ih =>
    cases piece with
    | word text =>
      have wanted : taken.length < subcommand.arity := by
        rw [← Subcommand.length_of_command? complete]
        simp
      have more : subcommand.command? (taken ++ [text] ++ words pieces) = some command := by simpa using complete
      obtain ⟨after, read, amounts⟩ := ih room more
      refine ⟨after, ?_, amounts⟩
      rw [List.map_cons, Piece.item, readOperands, if_pos wanted, read]
    | option given =>
      obtain ⟨after, read, amounts⟩ := ih room.tail complete
      refine ⟨after, ?_, fun cli => ?_⟩
      · rw [List.map_cons, Piece.item, readOperands_given (room.empty given List.mem_cons_self), read]
      · have absent : given.name ∉ (options pieces).map Given.name := (List.nodup_cons.mp room.once).1
        rw [amounts, Settings.applyTo_take, takeAll_take absent]
        rfl

/-- Before the command's word the value is put off, and found good when it is looked at. -/
theorem readItems_given {settings outer : Settings} {putOff : Option (ValuedOption × String)}
    (settled : settings.settle putOff = .ok outer) {given : Given} (lacks : outer.Lacks given.name) (items : List Item) :
    ∃ next left, readItems settings putOff (given.item :: items) = readItems next left items ∧
      next.settle left = .ok (outer.take given) := by
  rcases given.item_cases with ⟨option, text, item⟩ | ⟨flag, rfl⟩
  · refine ⟨outer, some (option, text), ?_, Settings.assign_given lacks item⟩
    rw [item, readItems, settled]
    rfl
  · have unset : outer.verbose = false := lacks
    refine ⟨outer.take (.verbose flag), none, ?_, rfl⟩
    rw [Given.item, readItems, settled]
    simp only [bind, Except.bind, Settings.setVerbose, unset]
    rfl

/-- A line is read to its end: its command, and the defaults with every option taken. -/
theorem readItems_items {settings outer : Settings} {putOff : Option (ValuedOption × String)} {pieces : List Piece}
    {command : Command} (settled : settings.settle putOff = .ok outer) (room : outer.Room (options pieces))
    (complete : words pieces = wordsOf command) :
    readItems settings putOff (pieces.map Piece.item) = .ok (takeAll (options pieces) (outer.applyTo { command })) := by
  obtain ⟨subcommand, operands, begun, named, noHelp, taken⟩ := wordsOf_spec command
  rw [begun] at complete
  induction pieces generalizing settings outer putOff with
  | nil => exact absurd complete (List.cons_ne_nil _ _).symm
  | cons piece pieces ih =>
    cases piece with
    | word text =>
      obtain ⟨rfl, rest⟩ : text = subcommand.word ∧ words pieces = operands := by simpa using complete
      -- What follows the command's word has settings of its own, in which nothing is set yet.
      have behind : Room {} (options pieces) := Settings.room_default room.once
      have whole : subcommand.command? ([] ++ words pieces) = some command := by
        rw [List.nil_append, rest, taken]
      obtain ⟨inner, read, amounts⟩ := readOperands_items behind whole
      rw [List.map_cons, Piece.item, readItems, if_neg noHelp, named]
      simp only [read, settled, bind, Except.bind]
      rw [Settings.cli_eq_applyTo, Settings.orElse_applyTo, amounts, Settings.applyTo_default, options_word]
    | option given =>
      obtain ⟨next, left, step, after⟩ :=
        readItems_given settled (room.empty given List.mem_cons_self) (pieces.map Piece.item)
      have absent : given.name ∉ (options pieces).map Given.name := (List.nodup_cons.mp room.once).1
      rw [List.map_cons, Piece.item, step, ih after room.tail complete, Settings.applyTo_take, takeAll_take absent]
      rfl

theorem ofArguments_line {command : Command} {pieces : List Piece} (line : Line command pieces) :
    ofArguments (written pieces) = .ok (takeAll (options pieces) { command }) := by
  have items : Item.ofArguments (written pieces) = pieces.map Piece.item :=
    ofArguments_written (by rw [line.words]; exact line.plain)
  have settled : Settings.settle {} none = .ok {} := rfl
  rw [ofArguments, items, readItems_items settled (Settings.room_default line.once) line.words, Settings.applyTo_default]

end Cli

/-- The parser of the program reads as documented: of a line it keeps which options there are and the
    command, and not where they stand. -/
theorem documented_ofArguments : Documented Cli.ofArguments := by
  have moved : ∀ {command given before after text}, Line command (before ++ .option given :: .word text :: after) →
      Cli.ofArguments (written (before ++ .word text :: .option given :: after)) =
        Cli.ofArguments (written (before ++ .option given :: .word text :: after)) := by
    intro command given before after text line
    rw [Cli.ofArguments_line line, Cli.ofArguments_line (line_swap_iff.mpr line)]
    simp
  constructor
  case default =>
    intro command plain
    have line : Line command ((wordsOf command).map .word) := ⟨words_map _, plain, by simp⟩
    simpa [Cli.takeAll] using Cli.ofArguments_line line
  case explicit =>
    intro command given pieces cli line read
    rw [Cli.ofArguments_line line.tail] at read
    obtain rfl := Except.ok.inj read
    exact Cli.ofArguments_line line
  case inherited =>
    intro command given before after text line first isGlobal
    exact moved line
  case mixed =>
    intro command given before after text line behind
    exact moved line

end LineStore.CommandLine
