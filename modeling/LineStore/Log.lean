import LineStore.Fault

/-!
The records of the log. A record of a command that is sent holds its summary, and so never the
value that the command sets.
-/
namespace LineStore

/-- How much detail a record gives. -/
inductive LogLevel where
  | debug
  | trace
  deriving DecidableEq, Repr

inductive LogRecord where
  | usingServer (host : String) (port : UInt16)
  | sending (summary : String)
  | connectFailed (peer : Address) (cause : IoError)
  | connected (peer : Address)
  | received (line : String)
  /-- A line was taken from the bytes received, and so many were left. -/
  | leftAfterLine (count : Nat)
  | dropping (verb key : String) (report : Report)
  | closing (peer : Address)
  deriving DecidableEq, Repr

namespace LogRecord

def level : LogRecord → LogLevel
  | .leftAfterLine _ => .trace
  | _ => .debug

def text : LogRecord → String
  | .usingServer host port => "Using server " ++ host ++ ":" ++ toString port.toNat
  | .sending summary => "Sending " ++ summary
  | .connectFailed peer cause => "Connecting to " ++ peer.text ++ " failed: " ++ cause.text
  | .connected peer => "Connected to " ++ peer.text
  | .received line => "Received " ++ line
  | .leftAfterLine count => toString count ++ " bytes left after line"
  | .dropping verb key report => verb ++ " " ++ key ++ " failed, dropping connection: " ++ report.display
  | .closing peer => "Closing connection to " ++ peer.text

end LogRecord
end LineStore
