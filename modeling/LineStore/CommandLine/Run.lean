import LineStore.CommandLine.ErrorStream
import LineStore.CommandLine.Reading
import LineStore.CommandLine.Usage
import LineStore.Client

/-!
The program behind the command line: it makes one request on a client of its own and says what
came of it. It exits with 0 when the request succeeds, with 1 when it fails, and with 2 when the
command line cannot be read. The log is kept only when it was asked for, and then without the
records that are mere detail. A filter for the log that is set in the environment would prevail; the
program is described as it runs where there is none.
-/
namespace LineStore.CommandLine

/-- What the program leaves behind: its exit code, what it printed, its log, and the network events. -/
structure Exit where
  code : UInt8
  stdout : String
  stderr : String
  log : List LogRecord
  events : List Event

namespace Exit

/-- The end of a run that makes no request. -/
def ofStop : Stop → Exit
  | .help topic => ⟨0, Usage.help topic, "", [], []⟩
  | .version => ⟨0, Usage.version, "", [], []⟩
  | .misuse => ⟨2, "", Usage.misuse, [], []⟩

end Exit

/-- What is printed of an answer to a command. -/
def output : Command → Answer → String
  | _, .found value => value ++ "\n"
  | _, .absent => "Key not found\n"
  | .ping, _ => "PONG\n"
  | _, _ => ""

namespace Invocation

/-- One request by a client of its own, with the log that is kept where the environment sets no filter for it. -/
def run (invocation : Invocation) (network : Network) : Exit :=
  let greeting := Trace.ofRecord (.usingServer invocation.config.host invocation.config.port)
  let shown (trace : Trace) := if invocation.verbose then trace.debugLog else []
  match Client.ofConfig invocation.config with
  | .error fault => ⟨1, "", fault.report.display ++ "\n", shown greeting, []⟩
  | .ok client =>
    let outcome := client.submit network invocation.command
    let trace := greeting ++ outcome.trace ++ { events := outcome.client.release }
    match outcome.result with
    | .error fault => ⟨1, "", fault.report.display ++ "\n", shown trace, trace.events⟩
    | .ok answer => ⟨0, output invocation.command answer, "", shown trace, trace.events⟩

end Invocation

/-- The program with a parser for its command line. -/
def runWith (parse : Parser) (arguments : List String) (network : Network) : Exit :=
  match parse arguments with
  | .ok cli => cli.invocation.run network
  | .error stop => .ofStop stop

def run (arguments : List String) (network : Network) : Exit := runWith Cli.ofArguments arguments network

/-- The whole of what a run writes to the error stream. -/
def Exit.errorStream (exit : Exit) : String := String.join (exit.log.map (·.printed)) ++ exit.stderr

end LineStore.CommandLine
