import LineStore.CommandLine.Interface
import Mathlib.Data.List.Induction
import Mathlib.Data.List.Nodup
import Mathlib.Data.List.Perm.Basic
import Mathlib.Data.Nat.Digits.Defs

/-!
The program leaves it to a parser to read its arguments by what it declares. What is documented of the
parser (`Documented`) is about lines in which a command's words are in their order and no option is given
twice (`Line`): an option that is not given has its default, one that is given prevails over it, an option
that is declared global may be used on either side of the word that names the command, and behind that word
options and operands may be mixed. Main result: whatever the line, it is read as its command with its
options, wherever they stand (`Documented.parse_written`).
-/
namespace LineStore.CommandLine

/-! ## Options as they are written -/

/-- A text that can stand in an argument of its own: it does not begin with a dash. -/
def Plain (text : String) : Prop := text.toList.head? ≠ some '-'

instance (text : String) : Decidable (Plain text) := inferInstanceAs (Decidable (_ ≠ _))

/-- A number below a bound as it may be written: decimal digits, the highest first, zeros before them
    allowed. -/
structure Decimal (bound : Nat) where
  digits : List (Fin 10)
  written : digits ≠ []
  bounded : Nat.ofDigits 10 (digits.map Fin.val).reverse < bound

namespace Decimal
variable {bound : Nat}

def value (decimal : Decimal bound) : Nat := Nat.ofDigits 10 (decimal.digits.map Fin.val).reverse

def digitChar (digit : Fin 10) : Char := Nat.digitChar digit.val

def text (decimal : Decimal bound) : String := String.ofList (decimal.digits.map digitChar)

end Decimal

/-- A name of a host that can stand in an argument of its own. -/
structure HostName where
  text : String
  plain : Plain text

def OptionName.longText (name : OptionName) : String := "--" ++ name.declared.long

def OptionName.shortText (name : OptionName) : String := String.ofList ('-' :: name.declared.short.toList)

/-- The two spellings of the flag that asks for the log. -/
inductive Flag where
  | short
  | long

def Flag.text : Flag → String
  | .short => OptionName.verbose.shortText
  | .long => OptionName.verbose.longText

/-- An option as it is written, with what it is given. -/
inductive Given where
  | host (name : HostName)
  | port (number : Decimal 65536)
  | timeout (count : Decimal (2 ^ 64))
  | verbose (flag : Flag)

namespace Given

def name : Given → OptionName
  | .host _ => .host
  | .port _ => .port
  | .timeout _ => .timeout
  | .verbose _ => .verbose

/-- An option and its value are two arguments, a flag is one. -/
def arguments : Given → List String
  | .host name => [OptionName.host.longText, name.text]
  | .port number => [OptionName.port.longText, number.text]
  | .timeout count => [OptionName.timeout.longText, count.text]
  | .verbose flag => [flag.text]

theorem global_name (given : Given) : given.name.declared.isGlobal = true := by
  cases given <;> rfl

end Given

/-! ## What an option changes -/

namespace Cli

def take (cli : Cli) : Given → Cli
  | .host name => { cli with host := name.text }
  | .port number => { cli with port := .ofNat number.value }
  | .timeout count => { cli with timeout := .ofNat count.value }
  | .verbose _ => { cli with verbose := true }

def takeAll (givens : List Given) (cli : Cli) : Cli := givens.foldr (fun given cli => cli.take given) cli

theorem take_comm {first second : Given} (different : first.name ≠ second.name) (cli : Cli) :
    (cli.take first).take second = (cli.take second).take first := by
  cases first <;> cases second <;> first | rfl | exact absurd rfl different

theorem takeAll_take {givens : List Given} {given : Given} (absent : given.name ∉ givens.map Given.name) (cli : Cli) :
    takeAll givens (cli.take given) = (takeAll givens cli).take given := by
  induction givens with
  | nil => rfl
  | cons first givens ih =>
    rw [List.map_cons, List.mem_cons, not_or] at absent
    calc takeAll (first :: givens) (cli.take given)
      _ = (takeAll givens (cli.take given)).take first := rfl
      _ = ((takeAll givens cli).take given).take first := by rw [ih absent.2]
      _ = ((takeAll givens cli).take first).take given := take_comm absent.1 _

/-- Options with names of their own may be taken in any order. -/
theorem takeAll_perm {givens others : List Given} (same : givens.Perm others) (once : (givens.map Given.name).Nodup)
    (cli : Cli) : takeAll givens cli = takeAll others cli := by
  refine same.foldr_eq' (fun first inside second also cli => ?_) cli
  by_cases equal : first.name = second.name
  · rw [List.inj_on_of_nodup_map once inside also equal]
  · exact take_comm equal cli

end Cli

/-! ## Lines -/

/-- The words of a command: the one that names it, and what it takes. -/
def wordsOf : Command → List String
  | .set key value => [Subcommand.set.word, key, value]
  | .get key => [Subcommand.get.word, key]
  | .del key => [Subcommand.del.word, key]
  | .ping => [Subcommand.ping.word]

/-- A word of a command, or an option. -/
inductive Piece where
  | word (text : String)
  | option (given : Given)

namespace Piece

def word? : Piece → Option String
  | .word text => some text
  | .option _ => none

def given? : Piece → Option Given
  | .word _ => none
  | .option given => some given

def arguments : Piece → List String
  | .word text => [text]
  | .option given => given.arguments

end Piece

def words (pieces : List Piece) : List String := pieces.filterMap Piece.word?

def options (pieces : List Piece) : List Given := pieces.filterMap Piece.given?

def written (pieces : List Piece) : List String := pieces.flatMap Piece.arguments

@[simp] theorem words_append (first second : List Piece) : words (first ++ second) = words first ++ words second :=
  List.filterMap_append

@[simp] theorem words_word (text : String) (pieces : List Piece) : words (.word text :: pieces) = text :: words pieces := rfl

@[simp] theorem words_option (given : Given) (pieces : List Piece) : words (.option given :: pieces) = words pieces := rfl

@[simp] theorem options_append (first second : List Piece) : options (first ++ second) = options first ++ options second :=
  List.filterMap_append

@[simp] theorem options_word (text : String) (pieces : List Piece) : options (.word text :: pieces) = options pieces := rfl

@[simp] theorem options_option (given : Given) (pieces : List Piece) :
    options (.option given :: pieces) = given :: options pieces := rfl

@[simp] theorem words_map (texts : List String) : words (texts.map .word) = texts := by
  induction texts with
  | nil => rfl
  | cons text texts ih => rw [List.map_cons, words_word, ih]

@[simp] theorem options_map (texts : List String) : options (texts.map .word) = [] := by
  induction texts with
  | nil => rfl
  | cons text texts ih => rw [List.map_cons, options_word, ih]

@[simp] theorem written_map (texts : List String) : written (texts.map .word) = texts := by
  induction texts with
  | nil => rfl
  | cons text texts ih => exact congrArg _ ih

/-- A line for a command: its words in their order, and options, none of them twice. -/
structure Line (command : Command) (pieces : List Piece) : Prop where
  words : words pieces = wordsOf command
  plain : ∀ text ∈ wordsOf command, Plain text
  once : ((options pieces).map Given.name).Nodup

/-- A line stays one where an option and a word beside it change places. -/
theorem line_swap_iff {command : Command} {before after : List Piece} {given : Given} {text : String} :
    Line command (before ++ .word text :: .option given :: after) ↔
      Line command (before ++ .option given :: .word text :: after) := by
  constructor <;> intro line <;> exact ⟨by simpa using line.words, line.plain, by simpa using line.once⟩

theorem Line.tail {command : Command} {given : Given} {pieces : List Piece} (line : Line command (.option given :: pieces)) :
    Line command pieces :=
  ⟨line.words, line.plain, (List.nodup_cons.mp line.once).2⟩

/-! ## What is documented -/

/-- What is documented of a parser for the options and commands that are declared. -/
structure Documented (parse : Parser) : Prop where
  /-- Where no option is given, each has the default that is declared for it. -/
  default {command : Command} (plain : ∀ text ∈ wordsOf command, Plain text) :
    parse (wordsOf command) = .ok { command }
  /-- An option that is given prevails over its default, and the others keep theirs. -/
  explicit {command : Command} {given : Given} {pieces : List Piece} {cli : Cli}
    (line : Line command (.option given :: pieces)) (read : parse (written pieces) = .ok cli) :
    parse (written (.option given :: pieces)) = .ok (cli.take given)
  /-- Where an option that is declared global is used, before the word for the command or behind it, does
      not matter. -/
  inherited {command : Command} {given : Given} {before after : List Piece} {text : String}
    (line : Line command (before ++ .option given :: .word text :: after)) (first : words before = [])
    (isGlobal : given.name.declared.isGlobal = true) :
    parse (written (before ++ .word text :: .option given :: after)) =
      parse (written (before ++ .option given :: .word text :: after))
  /-- Behind that word an option may stand before an operand or behind it. -/
  mixed {command : Command} {given : Given} {before after : List Piece} {text : String}
    (line : Line command (before ++ .option given :: .word text :: after)) (behind : words before ≠ []) :
    parse (written (before ++ .word text :: .option given :: after)) =
      parse (written (before ++ .option given :: .word text :: after))

namespace Documented
variable {parse : Parser} {command : Command}

/-- An option may as well stand before all the words that it stands behind. -/
theorem parse_carried (documented : Documented parse) {given : Given} {texts : List String} {rest : List Piece}
    (line : Line command (texts.map .word ++ .option given :: rest)) :
    parse (written (texts.map .word ++ .option given :: rest)) =
        parse (written (.option given :: (texts.map .word ++ rest))) ∧
      Line command (.option given :: (texts.map .word ++ rest)) := by
  -- The last word that the option stands behind is the first that it passes.
  induction texts using List.reverseRecOn generalizing rest with
  | nil => exact ⟨rfl, line⟩
  | append_singleton texts text ih =>
    simp only [List.map_append, List.map_cons, List.map_nil, List.append_assoc, List.cons_append, List.nil_append] at line ⊢
    have passed := line_swap_iff.mp line
    obtain ⟨carried, front⟩ := ih passed
    refine ⟨Eq.trans ?_ carried, front⟩
    by_cases first : texts = []
    · exact documented.inherited passed (by rw [words_map, first]) given.global_name
    · exact documented.mixed passed (by rwa [words_map])

/-- The options are brought to the front one after the other; what is left is the command alone. -/
theorem parse_words_append (documented : Documented parse) (texts : List String) {rest : List Piece}
    (line : Line command (texts.map .word ++ rest)) :
    parse (written (texts.map .word ++ rest)) = .ok (Cli.takeAll (options rest) { command }) := by
  induction rest generalizing texts with
  | nil =>
    rw [List.append_nil] at line ⊢
    have all : texts = wordsOf command := by simpa using line.words
    rw [written_map, all]
    exact documented.default line.plain
  | cons piece rest ih =>
    cases piece with
    | word text =>
      have shifted : texts.map Piece.word ++ .word text :: rest = (texts ++ [text]).map Piece.word ++ rest := by simp
      rw [shifted] at line ⊢
      exact ih _ line
    | option given =>
      obtain ⟨carried, front⟩ := documented.parse_carried line
      rw [carried]
      exact documented.explicit front (ih _ front.tail)

/-- A line is read as its command with its options, wherever they stand. -/
theorem parse_written (documented : Documented parse) {pieces : List Piece} (line : Line command pieces) :
    parse (written pieces) = .ok (Cli.takeAll (options pieces) { command }) :=
  documented.parse_words_append [] line

end Documented
end LineStore.CommandLine
