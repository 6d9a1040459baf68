import LineStore.Command
import LineStore.Config

/-!
What the program declares of its command line: its options, its commands, and what a command line that
was read has told (`Cli`). How the arguments are read is not part of it: that is left to a `Parser`.
-/
namespace LineStore.CommandLine

/-! ## Options -/

/-- What can be given to an option; a flag is given by being there. -/
inductive Kind where
  | flag
  | text
  | port
  | milliseconds
  deriving DecidableEq, Repr

def Kind.Value : Kind → Type
  | .flag => Bool
  | .text => String
  | .port => UInt16
  | .milliseconds => UInt64

/-- The declaration of an option. -/
structure Declared where
  /-- The name that stands behind two dashes. -/
  long : String
  /-- The letter that stands behind one dash. -/
  short : Option Char := none
  kind : Kind
  /-- Whether it is an option of every command as well. -/
  isGlobal : Bool
  default : kind.Value

inductive OptionName where
  | host
  | port
  | timeout
  | verbose
  deriving DecidableEq, Repr

def OptionName.declared : OptionName → Declared
  | .host => { long := "host", kind := .text, isGlobal := true, default := ({} : Config).host }
  | .port => { long := "port", kind := .port, isGlobal := true, default := ({} : Config).port }
  | .timeout =>
    { long := "timeout-ms", kind := .milliseconds, isGlobal := true, default := ({} : Config).timeout.toMilliseconds }
  | .verbose => { long := "verbose", short := 'v', kind := .flag, isGlobal := true, default := false }

/-! ## Commands -/

/-- The words that name the commands. -/
inductive Subcommand where
  | set
  | get
  | del
  | ping
  deriving DecidableEq, Repr

namespace Subcommand

def word : Subcommand → String
  | .set => "set"
  | .get => "get"
  | .del => "del"
  | .ping => "ping"

def all : List Subcommand := [.set, .get, .del, .ping]

def named? (word : String) : Option Subcommand := all.find? (·.word = word)

def arity : Subcommand → Nat
  | .set => 2
  | .get | .del => 1
  | .ping => 0

def command? : Subcommand → List String → Option Command
  | .set, [key, value] => some (.set key value)
  | .get, [key] => some (.get key)
  | .del, [key] => some (.del key)
  | .ping, [] => some .ping
  | _, _ => none

end Subcommand

/-! ## What is read -/

/-- What a command line has told: a value for every option, and the command. -/
structure Cli where
  host : String := OptionName.host.declared.default
  port : UInt16 := OptionName.port.declared.default
  timeout : UInt64 := OptionName.timeout.declared.default
  verbose : Bool := OptionName.verbose.declared.default
  command : Command
  deriving DecidableEq, Repr

/-- Why a command line leads to no command. -/
inductive Stop where
  | help (topic : Option Subcommand)
  | version
  | misuse
  deriving DecidableEq, Repr

/-- A way of reading the arguments of the program. -/
abbrev Parser := List String → Except Stop Cli

/-- A command with the configuration of the client that is to run it. -/
structure Invocation where
  config : Config
  verbose : Bool
  command : Command
  deriving DecidableEq, Repr

def Cli.invocation (cli : Cli) : Invocation where
  config := ((({} : Config).set (.host cli.host)).set (.port cli.port)).set (.timeout (.ofMilliseconds cli.timeout))
  verbose := cli.verbose
  command := cli.command

end LineStore.CommandLine
