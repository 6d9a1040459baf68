import LineStore.Config
import LineStore.Trace

/-!
Opening a connection. The addresses of the host are tried in order until one accepts (`dial`);
the socket is then given its timeouts and sent its data without delay (`configure`), and is closed
again if that fails. A connection holds what is left of its link and the bytes received so far that
no line has been made of.
-/
namespace LineStore

structure Connection where
  peer : Address
  /-- How the coming writes end. -/
  writes : List WriteOutcome
  /-- How the coming reads end. -/
  reads : List ReadOutcome
  /-- Bytes received that belong to lines not yet taken. -/
  pending : Bytes := []

namespace Connection

/-- Tries addresses in order until one accepts; if none does, the failure of the last one tried. -/
def dial (timeout : Option Duration) : List Address → List (Option IoError) → Except (Option IoError) Address × Trace
  | [], _ => (.error none, {})
  | peer :: others, outcomes =>
    match outcomes.head?.join with
    | none => (.ok peer, .ofEvent (.connect peer timeout none))
    | some failure =>
      let tried : Trace := ⟨[.connect peer timeout (some failure)], [.connectFailed peer failure]⟩
      match dial timeout others outcomes.tail with
      | (.error none, trace) => (.error (some failure), tried ++ trace)
      | (answer, trace) => (answer, tried ++ trace)

/-- Sets the options of a new socket up to the first that is refused. -/
def configure (timeout : Option Duration) (link : Link) : Option Fault × List Event :=
  let first := Event.readTimeout timeout link.readTimeout
  match link.readTimeout with
  | some cause => (some (.timeoutNotSet cause), [first])
  | none =>
    let second := Event.writeTimeout timeout link.writeTimeout
    match link.writeTimeout with
    | some cause => (some (.timeoutNotSet cause), [first, second])
    | none => (link.noDelay.map .notConfigured, [first, second, .noDelay link.noDelay])

def establish (config : Config) (link : Link) : Except Fault Connection × Trace :=
  let resolved := Trace.ofEvent (.resolve config.host config.port link.addresses)
  match link.addresses with
  | .error _ => (.error (.unresolved config.host), resolved)
  | .ok ips =>
    match dial config.socketTimeout (ips.map (⟨·, config.port⟩)) link.connects with
    | (.error none, dialled) => (.error (.unresolved config.host), resolved ++ dialled)
    | (.error (some cause), dialled) => (.error (.unreachable config.host config.port cause), resolved ++ dialled)
    | (.ok peer, dialled) =>
      match configure config.socketTimeout link with
      | (some fault, options) => (.error fault, resolved ++ dialled ++ ⟨options ++ [.close], []⟩)
      | (none, options) =>
        (.ok { peer, writes := link.writes, reads := link.reads },
          resolved ++ dialled ++ ⟨options, [.connected peer]⟩)

end Connection
end LineStore
