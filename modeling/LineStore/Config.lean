import LineStore.Duration

/-!
What a client needs to know of its server: where it is, and how long to wait for it. A timeout
of zero means to wait without limit (`socketTimeout`), so no zero span ever reaches a socket.
-/
namespace LineStore

/-- Where the server is, and how long connecting, sending and receiving may each take. -/
structure Config where
  host : String := "127.0.0.1"
  port : UInt16 := 7379
  timeout : Duration := .ofSeconds 5
  deriving DecidableEq, Repr

/-- One field of a configuration with its new value. -/
inductive Setting where
  | host (name : String)
  | port (number : UInt16)
  | timeout (span : Duration)
  deriving DecidableEq, Repr

namespace Config

def set (config : Config) : Setting → Config
  | .host name => { config with host := name }
  | .port number => { config with port := number }
  | .timeout span => { config with timeout := span }

/-- The limit put on each socket operation; a zero timeout asks for none. -/
def socketTimeout (config : Config) : Option Duration :=
  if config.timeout = .zero then none else some config.timeout

theorem socketTimeout_ne_zero (config : Config) : config.socketTimeout ≠ some .zero := by
  unfold socketTimeout
  split <;> simp_all

end Config
end LineStore
