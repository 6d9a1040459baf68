import LineStore.CommandLine.ControlSequence
import LineStore.Log

/-!
The log as it is printed: one line for each record, headed by its level and by the part of the program
that it comes from, without the control sequences of a terminal.
-/
namespace LineStore

def LogLevel.name : LogLevel → String
  | .debug => "DEBUG"
  | .trace => "TRACE"

/-- The part of the program that logs a record. -/
inductive LogSource where
  | program
  | client
  | connection
  deriving DecidableEq, Repr

def LogSource.name : LogSource → String
  | .program => "kvline_cli"
  | .client => "kvline::client"
  | .connection => "kvline::connection"

namespace LogRecord

def source : LogRecord → LogSource
  | .usingServer .. => .program
  | .sending _ | .received _ | .dropping .. | .closing _ => .client
  | .connectFailed .. | .connected _ | .leftAfterLine _ => .connection

/-- A record as a line of print, in plain text; further lines of its text are indented. -/
def printed (record : LogRecord) : String :=
  let text := "\n    ".intercalate (record.text.splitOn "\n")
  CommandLine.ControlSequence.plain ("[" ++ record.level.name ++ " " ++ record.source.name ++ "] " ++ text ++ "\n")

end LogRecord
end LineStore
