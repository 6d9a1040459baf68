import LineStore.Network

/-!
A link as far as it is known from what happened on it. Each event tells one answer of the link,
and the answers of one kind come in the order they were given. So a client can be led through a
real network: it is run on the link known so far, and the first answer it had to assume is then
asked for in truth.
-/
namespace LineStore.Link

/-- A link with one more of its answers known. -/
def learn (link : Link) : Event → Link
  | .resolve _ _ answer => { link with addresses := answer }
  | .connect _ _ failure => { link with connects := link.connects ++ [failure] }
  | .readTimeout _ failure => { link with readTimeout := failure }
  | .writeTimeout _ failure => { link with writeTimeout := failure }
  | .noDelay failure => { link with noDelay := failure }
  | .write _ (.ok count) => { link with writes := link.writes ++ [.accepts count] }
  | .write _ (.error error) => { link with writes := link.writes ++ [.fails error] }
  | .read (.ok bytes) => { link with reads := link.reads ++ [.delivers bytes] }
  | .read (.error error) => { link with reads := link.reads ++ [.fails error] }
  | .close => link

/-- The link that answers as it did in some events. -/
def ofEvents (events : List Event) : Link := events.foldl learn {}

end LineStore.Link
