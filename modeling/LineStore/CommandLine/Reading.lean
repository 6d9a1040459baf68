import LineStore.CommandLine.Item
import LineStore.CommandLine.Numeral

/-!
The parser that the program is run with. Options may stand before and after the word that names the
command; each may be given once on either side, and what is given after the word prevails. Asking for
help or for the version stops the reading where it stands, so a mistake further on is never seen.
-/
namespace LineStore.CommandLine

/-- The options given on one side of the word that names the command. -/
structure Settings where
  host : Option String := none
  port : Option UInt16 := none
  timeout : Option UInt64 := none
  verbose : Bool := false
  deriving DecidableEq, Repr

namespace Settings

/-- Gives an option its value, which must be readable and the first it gets. -/
def assign (settings : Settings) : ValuedOption → String → Except Stop Settings
  | .host, text => if settings.host.isSome then .error .misuse else .ok { settings with host := some text }
  | .port, text =>
    match settings.port, Numeral.port? text with
    | none, some port => .ok { settings with port := some port }
    | _, _ => .error .misuse
  | .timeout, text =>
    match settings.timeout, Numeral.milliseconds? text with
    | none, some count => .ok { settings with timeout := some count }
    | _, _ => .error .misuse

/-- Gives an option the value that was put off, if one was. -/
def settle (settings : Settings) : Option (ValuedOption × String) → Except Stop Settings
  | none => .ok settings
  | some (option, text) => settings.assign option text

def setVerbose (settings : Settings) : Except Stop Settings :=
  if settings.verbose then .error .misuse else .ok { settings with verbose := true }

def orElse (first second : Settings) : Settings where
  host := first.host <|> second.host
  port := first.port <|> second.port
  timeout := first.timeout <|> second.timeout
  verbose := first.verbose || second.verbose

/-- What these settings amount to, with the defaults for what is not set. -/
def cli (settings : Settings) (command : Command) : Cli :=
  let bare : Cli := { command }
  { host := settings.host.getD bare.host
    port := settings.port.getD bare.port
    timeout := settings.timeout.getD bare.timeout
    verbose := settings.verbose
    command }

end Settings

namespace Cli

/-- Reads what follows the word that names a command: options and operands, which are not more
    than the command takes. -/
def readOperands (subcommand : Subcommand) (settings : Settings) (operands : List String) :
    List Item → Except Stop (Settings × Command)
  | [] =>
    match subcommand.command? operands with
    | some command => .ok (settings, command)
    | none => .error .misuse
  | .operand text :: items =>
    if operands.length < subcommand.arity then readOperands subcommand settings (operands ++ [text]) items
    else .error .misuse
  | .assign option value _ :: items => do
    readOperands subcommand (← settings.assign option value) operands items
  | .verbose :: items => do readOperands subcommand (← settings.setVerbose) operands items
  | .separator :: items => readOperands subcommand settings operands items
  | .help :: _ => .error (.help subcommand)
  | .version :: _ | .malformed :: _ => .error .misuse

/-- Reads what follows the word for help: at most one word more, which it also explains. -/
def readTopic : List Item → Stop
  | [] => .help none
  | [.operand word] =>
    match Subcommand.named? word with
    | some subcommand => .help subcommand
    | none => if word = "help" then .help none else .misuse
  | _ => .misuse

/-- Reads a command line. Before the word that names the command, the value in an argument of its
    own is looked at only when the next option comes or when all else has been read. -/
def readItems (settings : Settings) (putOff : Option (ValuedOption × String)) : List Item → Except Stop Cli
  | [] => .error .misuse
  | .operand word :: items =>
    if word = "help" then .error (readTopic items)
    else
      match Subcommand.named? word with
      | none => .error .misuse
      | some subcommand => do
        let (inner, command) ← readOperands subcommand {} [] items
        let settings := inner.orElse (← settings.settle putOff)
        .ok (settings.cli command)
  | .assign option value attached :: items => do
    let settings ← settings.settle putOff
    if attached then readItems (← settings.assign option value) none items
    else readItems settings (some (option, value)) items
  | .verbose :: items => do readItems (← (← settings.settle putOff).setVerbose) none items
  | .help :: _ => do
    let _ ← settings.settle putOff
    .error (.help none)
  | .version :: _ => do
    let _ ← settings.settle putOff
    .error .version
  | .separator :: _ | .malformed :: _ => .error .misuse

def ofArguments : Parser := fun arguments => readItems {} none (Item.ofArguments arguments)

end Cli
end LineStore.CommandLine
