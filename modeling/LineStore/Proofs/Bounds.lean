import LineStore.Proofs.Dispatch
import LineStore.Proofs.Establishment

/-!
How much a call may ask of the network. What events ask is set against what is allowed: addresses to be
asked for, bytes to be sent and lines to be waited for (`Within`); an interrupted write or read is allowed
by its interruption, and a read by the bytes that it brings. Both loops are made of rounds, each of which
uses up a part of what is left to be sent or to be read (`Sending.Round`, `Intake.Round`), so there are no
endless rounds (`Ends`). What a network can still answer is a supply (`Network.supply`) from which all events
but a few of each call are drawn. Main statement: every call stays within its limits, both loops end, and
the events of a session are as many as the supply and seven for each call at most (`Session.every_call_ends`).
-/
namespace LineStore
open Framing

/-! ## Limits -/

namespace Event

def isConnect : Event → Bool
  | .connect .. => true
  | _ => false

def isWrite : Event → Bool
  | .write .. => true
  | _ => false

def isRead : Event → Bool
  | .read _ => true
  | _ => false

def isInterruptedWrite (event : Event) : Bool := event.isWrite && event.isInterrupted

def isInterruptedRead (event : Event) : Bool := event.isRead && event.isInterrupted

/-- The addresses that an answer names. -/
def addresses : Event → List String
  | .resolve _ _ (.ok ips) => ips
  | _ => []

end Event

/-- Events that are allowed to ask for addresses so often, to send so many bytes and to wait for so many
    lines. -/
structure Within (resolves bytes lines : Nat) (events : List Event) : Prop where
  resolves : events.countP Event.isResolve ≤ resolves
  connects : events.countP Event.isConnect ≤ (events.flatMap Event.addresses).length
  writes : events.countP Event.isWrite ≤ bytes + events.countP Event.isInterruptedWrite
  reads : events.countP Event.isRead ≤
    (events.flatMap Event.delivered).length + events.countP Event.isInterruptedRead + lines

namespace Within
variable {resolves bytes lines : Nat} {events : List Event}

theorem append {more size waits : Nat} {later : List Event} (first : Within resolves bytes lines events)
    (second : Within more size waits later) :
    Within (resolves + more) (bytes + size) (lines + waits) (events ++ later) := by
  obtain ⟨resolved, connected, written, read⟩ := first
  obtain ⟨resolved', connected', written', read'⟩ := second
  constructor
  · rw [List.countP_append]
    omega
  · rw [List.countP_append, List.flatMap_append, List.length_append]
    omega
  · rw [List.countP_append, List.countP_append]
    omega
  · rw [List.countP_append, List.countP_append, List.flatMap_append, List.length_append]
    omega

theorem mono {more size waits : Nat} (within : Within resolves bytes lines events) (asks : resolves ≤ more)
    (sends : bytes ≤ size) (awaits : lines ≤ waits) : Within more size waits events := by
  obtain ⟨resolved, connected, written, read⟩ := within
  exact ⟨by omega, connected, by omega, by omega⟩

theorem nil : Within 0 0 0 [] := ⟨Nat.le_refl _, Nat.le_refl _, Nat.le_refl _, Nat.le_refl _⟩

theorem close : Within 0 0 0 [.close] := ⟨Nat.le_refl _, Nat.le_refl _, Nat.le_refl _, Nat.le_refl _⟩

/-- A write that is not interrupted takes one byte of what is allowed, whether or not it is accepted. -/
theorem write (offered : Bytes) (answer : Except IoError Nat) : Within 0 1 0 [.write offered answer] :=
  ⟨Nat.le_refl _, Nat.le_refl _, Nat.le_add_right _ _, Nat.le_refl _⟩

theorem write_some {left : Bytes} (more : left ≠ []) (answer : Except IoError Nat) :
    Within 0 left.length 0 [.write left answer] :=
  (write left answer).mono (Nat.le_refl _) (List.length_pos_iff.mpr more) (Nat.le_refl _)

theorem write_again {error : IoError} (again : error.isInterruption = true) (offered : Bytes) :
    Within 0 0 0 [.write offered (.error error)] := by
  refine ⟨Nat.le_refl _, Nat.le_refl _, ?_, Nat.le_refl _⟩
  simp [Event.isWrite, Event.isInterruptedWrite, Event.isInterrupted, again]

theorem read (answer : Except IoError Bytes) : Within 0 0 1 [.read answer] :=
  ⟨Nat.le_refl _, Nat.le_refl _, Nat.le_refl _, Nat.le_add_left _ _⟩

theorem read_again {error : IoError} (again : error.isInterruption = true) : Within 0 0 0 [.read (.error error)] := by
  refine ⟨Nat.le_refl _, Nat.le_refl _, Nat.le_refl _, ?_⟩
  simp [Event.isRead, Event.isInterruptedRead, Event.isInterrupted, again]

theorem read_some {bytes : Bytes} (present : bytes ≠ []) : Within 0 0 0 [.read (.ok bytes)] := by
  have positive : 0 < bytes.length := List.length_pos_iff.mpr present
  refine ⟨Nat.le_refl _, Nat.le_refl _, Nat.le_refl _, ?_⟩
  simp only [Event.isRead, Event.delivered, List.countP_singleton, List.flatMap_singleton, if_true]
  omega

end Within

/-! ## Sending and receiving -/

theorem Sending.offer_within (left : Bytes) (writes : List WriteOutcome) :
    Within 0 left.length 0 (offer left writes).events := by
  fun_induction offer left writes with
  | case1 => exact .nil
  | case2 left more => exact .write_some more _
  | case3 => exact Within.nil.mono (Nat.le_refl _) (Nat.zero_le _) (Nat.le_refl _)
  | case4 left writes more => exact .write_some more _
  | case5 left writes more count stalled ih =>
    have nonempty : 0 < left.length := List.length_pos_iff.mpr more
    have positive : 0 < count := Nat.pos_of_ne_zero fun zero => stalled (by rw [zero])
    have fewer : 1 + (left.drop count).length ≤ left.length := by
      rw [List.length_drop]
      omega
    exact ((Within.write left _).append ih).mono (Nat.le_refl _) fewer (Nat.le_refl _)
  | case6 left writes more error again ih =>
    have same : 0 + left.length = left.length := Nat.zero_add _
    exact same ▸ (Within.write_again again left).append ih
  | case7 left writes more error final => exact .write_some more _

-- The limit is met: six bytes are accepted one by one, behind a write that is interrupted.
example : (Sending.offer (frame "PING") (.fails ⟨.interrupted, ""⟩ :: List.replicate 6 (.accepts 1))).events.length = 7 := by
  decide +kernel

theorem Intake.await_within (pending : Bytes) (reads : List ReadOutcome) :
    Within 0 0 1 (await pending reads).events := by
  fun_induction await pending reads with
  | case1 => exact Within.nil.mono (Nat.le_refl _) (Nat.le_refl _) (Nat.zero_le _)
  | case2 => exact .read _
  | case3 pending uncut error rest again ih => exact (Within.read_again again).append ih
  | case4 => exact .read _
  | case5 => exact .read _
  | case6 pending uncut bytes rest present ih =>
    exact (Within.read_some (take_readSize_ne_nil present)).append ih

/-! ## The parts of a call -/

/-- The options of a socket are none of what is limited. -/
theorem Connection.Outfit.within {limit : Option Duration} {link : Link} {fault? : Option Fault} {set : List Event}
    (outfit : Outfit limit link fault? set) : Within 0 0 0 set := by
  cases outfit <;> exact ⟨Nat.le_refl _, Nat.le_refl _, Nat.le_refl _, Nat.le_refl _⟩

/-- The addresses are asked for, and no more attempts are made than there are addresses. -/
theorem Connection.asking_within {config : Config} {link : Link} {ips : List String} (resolved : link.addresses = .ok ips)
    {limit : Option Duration} {tries : List Event}
    (begins : tries <+: attempts limit (peers config ips) link.connects) :
    Within 1 0 0 ((asking config link).events ++ tries) := by
  have asked : (asking config link).events = [.resolve config.host config.port (.ok ips)] := by
    rw [← resolved]
    rfl
  have fewer : tries.length ≤ ips.length := by simpa [attempts, peers] using begins.length_le
  have uncounted : ∀ count : Event → Bool, (∀ peer failure, count (.connect peer limit failure) = false) →
      tries.countP count = 0 := by
    intro count apart
    refine List.countP_eq_zero.mpr fun event member => ?_
    obtain ⟨i, inside, rfl⟩ := List.mem_mapIdx.mp (begins.subset member)
    exact Bool.eq_false_iff.mp (apart _ _)
  rw [asked]
  constructor
  · rw [List.countP_append, uncounted _ fun _ _ => rfl]
    exact Nat.le_refl _
  · have counted : tries.countP Event.isConnect ≤ tries.length := List.countP_le_length
    have unconnected : [Event.resolve config.host config.port (.ok ips)].countP Event.isConnect = 0 := rfl
    rw [List.countP_append, unconnected, List.flatMap_append, List.length_append, List.flatMap_singleton, Event.addresses]
    omega
  · rw [List.countP_append, uncounted _ fun _ _ => rfl]
    exact Nat.zero_le _
  · rw [List.countP_append, uncounted _ fun _ _ => rfl]
    exact Nat.zero_le _

theorem Connection.establish_within (config : Config) (link : Link) :
    Within 1 0 0 (establish config link).2.events := by
  obtain ⟨result, way⟩ := exists_establishment config link
  rw [way.establish_eq]
  cases way with
  | unresolved barren => exact ⟨Nat.le_refl _, Nat.zero_le _, Nat.le_refl _, Nat.le_refl _⟩
  | unreachable resolved present failed last => exact asking_within resolved (List.prefix_refl _)
  | refused resolved here accepted first outfit =>
    exact (asking_within resolved (List.take_prefix _ _)).append (outfit.within.append .close)
  | opened resolved here accepted first outfit =>
    exact (asking_within resolved (List.take_prefix _ _)).append outfit.within

namespace Client

theorem reach_within (client : Client) (network : Network) : Within 1 0 0 (client.reach network).2.2.events := by
  unfold reach
  cases client.connection with
  | some connection => exact Within.nil.mono (Nat.zero_le _) (Nat.le_refl _) (Nat.le_refl _)
  | none => exact Connection.establish_within client.config network.link

/-- How the events of a request come about: those of the way to the server, and where there is one those of
    exchanging lines; the connection is closed and given up, or kept. -/
inductive Parts (client : Client) (network : Network) (command : Command) (outcome : Outcome) : Prop
  | unreached {fault : Fault} {reached : Trace} (reach : client.reach network = (.error fault, outcome.network, reached))
      (events : outcome.trace.events = reached.events) (dropped : outcome.client.connection = none)
  | exchanged {connection after : Connection} {answer : Except Fault String} {reached exchanged : Trace}
      {last : List Event} (reach : client.reach network = (.ok connection, outcome.network, reached))
      (exchange : connection.exchange command.line = (answer, after, exchanged))
      (events : outcome.trace.events = reached.events ++ exchanged.events ++ last)
      (ends : last = [.close] ∧ outcome.client.connection = none ∨ last = [] ∧ outcome.client.connection = some after)

theorem request_parts (client : Client) (network : Network) (command : Command) :
    Parts client network command (client.request network command) := by
  have course := client.request_course network command
  generalize client.request network command = outcome at course ⊢
  cases course with
  | unreached reach => exact .unreached reach rfl rfl
  | unsent reach exchange => exact .exchanged reach exchange rfl (.inl ⟨rfl, rfl⟩)
  | unanswered reach exchange => exact .exchanged reach exchange rfl (.inl ⟨rfl, rfl⟩)
  | answered reach exchange => exact .exchanged reach exchange rfl (.inr ⟨rfl, rfl⟩)

end Client

/-! ## Every call stays within its limits -/

theorem Connection.exchange_within (connection : Connection) (line : String) :
    Within 0 (frame line).length 1 (connection.exchange line).2.2.events := by
  have sending := Sending.offer_within (frame line) connection.writes
  cases stopped : (Sending.offer (frame line) connection.writes).fault with
  | some fault =>
    rw [exchange_of_fault stopped]
    exact sending.mono (Nat.le_refl _) (Nat.le_refl _) (Nat.zero_le _)
  | none =>
    have receiving := Intake.await_within connection.pending connection.reads
    rw [exchange_of_sent stopped, receive_eq]
    have whole := sending.append receiving
    rwa [Nat.zero_add, Nat.add_zero, Nat.zero_add] at whole

/-- The bytes that a call may send: the line of its command and the two that end it. -/
def Call.size : Call → Nat
  | .submit command => (Bytes.ofText command.line).length + 2
  | _ => 0

/-- The lines that a call may wait for. -/
def Call.lines : Call → Nat
  | .submit _ => 1
  | _ => 0

namespace Client

theorem request_within (client : Client) (network : Network) (command : Command) :
    Within 1 (Call.submit command).size 1 (client.request network command).trace.events := by
  have way := client.reach_within network
  have size : (frame command.line).length = (Call.submit command).size := List.length_append
  have parts := client.request_parts network command
  generalize client.request network command = outcome at parts ⊢
  cases parts with
  | unreached reach events =>
    rw [reach] at way
    rw [events]
    exact way.mono (Nat.le_refl _) (Nat.zero_le _) (Nat.zero_le _)
  | @exchanged connection after answer reached exchanged last reach exchange events ends =>
    have exchanging := connection.exchange_within command.line
    have closing : Within 0 0 0 last := by
      rcases ends with ⟨rfl, _⟩ | ⟨rfl, _⟩
      · exact .close
      · exact .nil
    rw [reach] at way
    rw [exchange, size] at exchanging
    rw [events]
    have whole := (way.append exchanging).append closing
    rwa [Nat.zero_add, Nat.zero_add] at whole

theorem perform_within (client : Client) (network : Network) (call : Call) :
    Within 1 call.size call.lines (client.perform network call).trace.events := by
  have idle : ∀ {bytes lines : Nat}, Within 1 bytes lines [] :=
    Within.nil.mono (Nat.zero_le _) (Nat.zero_le _) (Nat.zero_le _)
  cases call with
  | connect =>
    have way := client.reach_within network
    show Within 1 0 0 (client.connect network).trace.events
    unfold connect
    rcases reach : client.reach network with ⟨fault | connection, rest, reached⟩ <;> rw [reach] at way <;> exact way
  | close =>
    show Within 1 0 0 (client.close network).trace.events
    unfold close
    cases client.connection with
    | none => exact idle
    | some connection => exact Within.close.mono (Nat.zero_le _) (Nat.le_refl _) (Nat.le_refl _)
  | submit command =>
    show Within 1 (Call.submit command).size 1 (client.submit network command).trace.events
    unfold submit
    split
    · exact client.request_within network command
    · exact idle

end Client

/-! ## The loops end -/

/-- A loop that asks something of the network in each of its rounds: where no further round is possible, it
    asks once more at most, and no rounds go on for ever. -/
structure Ends {State : Type} (round : State → State → Prop) (events : State → List Event) : Prop where
  wellFounded : WellFounded fun next state => round state next
  goesOn : ∀ state next, round state next → ∃ event, events state = event :: events next
  final : ∀ state, (∀ next, ¬ round state next) → (events state).length ≤ 1

/-- A round of sending, which leaves bytes to be sent and a script of writes: some of the bytes are accepted,
    the write is interrupted, or the script is at its end and all of them are accepted. -/
inductive Sending.Round : Bytes × List WriteOutcome → Bytes × List WriteOutcome → Prop
  | accepted {left : Bytes} {count : Nat} {writes : List WriteOutcome} (more : left ≠ []) (taken : count ≠ 0) :
      Round (left, .accepts count :: writes) (left.drop count, writes)
  | interrupted {left : Bytes} {error : IoError} {writes : List WriteOutcome} (more : left ≠ [])
      (again : error.isInterruption = true) : Round (left, .fails error :: writes) (left, writes)
  | beyond {left : Bytes} (more : left ≠ []) : Round (left, []) ([], [])

/-- A round of receiving, which leaves bytes at hand and a script of reads: no line is at hand, and bytes come
    or the read is interrupted. -/
inductive Intake.Round : Bytes × List ReadOutcome → Bytes × List ReadOutcome → Prop
  | delivered {pending bytes : Bytes} {reads : List ReadOutcome} (uncut : cut? pending = none) (present : bytes ≠ []) :
      Round (pending, .delivers bytes :: reads) (pending ++ bytes.take readSize, unread bytes reads)
  | interrupted {pending : Bytes} {error : IoError} {reads : List ReadOutcome} (uncut : cut? pending = none)
      (again : error.isInterruption = true) : Round (pending, .fails error :: reads) (pending, reads)

/-- Every round of sending uses up an outcome of the script or, behind its end, the bytes that are left. -/
theorem Sending.Round.lt {state next : Bytes × List WriteOutcome} (round : Round state next) :
    next.1.length + next.2.length < state.1.length + state.2.length := by
  cases round with
  | accepted more taken =>
    simp only [List.length_drop, List.length_cons]
    omega
  | interrupted more again =>
    simp only [List.length_cons]
    omega
  | beyond more =>
    have positive := List.length_pos_iff.mpr more
    simpa using positive

theorem Intake.Round.lt {state next : Bytes × List ReadOutcome} (round : Round state next) :
    weight next.2 < weight state.2 := by
  cases round with
  | delivered uncut present => exact weight_unread_lt _ _
  | interrupted uncut again =>
    simp only [weight]
    omega

theorem Sending.ends : Ends Round fun state => (offer state.1 state.2).events where
  wellFounded := Subrelation.wf (fun round => round.lt)
    (measure fun state : Bytes × List WriteOutcome => state.1.length + state.2.length).wf
  goesOn := by
    intro state next round
    cases round with
    | @accepted left count writes more taken =>
      refine ⟨.write left (.ok (min count left.length)), ?_⟩
      dsimp only
      rw [offer, if_neg more]
      · rfl
      · exact taken
    | @interrupted left error writes more again =>
      refine ⟨.write left (.error error), ?_⟩
      dsimp only
      rw [offer, if_neg more]
      simp only [again, if_true]
      rfl
    | @beyond left more =>
      refine ⟨.write left (.ok left.length), ?_⟩
      dsimp only
      rw [offer, if_neg more]
      rfl
  final := by
    rintro ⟨left, writes⟩ last
    dsimp only
    fun_cases offer left writes with
    | case1 => exact Nat.zero_le _
    | case2 => exact Nat.le_refl _
    | case3 => exact Nat.zero_le _
    | case4 => exact Nat.le_refl _
    | case5 writes more count stalled => exact absurd (.accepted more stalled) (last _)
    | case6 writes more error again => exact absurd (.interrupted more again) (last _)
    | case7 => exact Nat.le_refl _

theorem Intake.ends : Ends Round fun state => (await state.1 state.2).events where
  wellFounded := Subrelation.wf (fun round => round.lt)
    (measure fun state : Bytes × List ReadOutcome => weight state.2).wf
  goesOn := by
    intro state next round
    cases round with
    | @delivered pending bytes reads uncut present =>
      refine ⟨.read (.ok (bytes.take readSize)), ?_⟩
      dsimp only
      rw [await, uncut]
      · rfl
      · exact present
    | @interrupted pending error reads uncut again =>
      refine ⟨.read (.error error), ?_⟩
      dsimp only
      rw [await, uncut]
      simp only [again, if_true]
      rfl
  final := by
    rintro ⟨pending, reads⟩ last
    dsimp only
    fun_cases await pending reads with
    | case1 => exact Nat.zero_le _
    | case2 => exact Nat.le_refl _
    | case3 uncut error rest again => exact absurd (.interrupted uncut again) (last _)
    | case4 => exact Nat.le_refl _
    | case5 => exact Nat.le_refl _
    | case6 uncut bytes rest present => exact absurd (.delivered uncut present) (last _)

/-! ## What can still be answered -/

/-- The events that a connection can still supply: a write or a read for each outcome of its scripts, another
    read for each byte, and its closing. -/
def Connection.supply (connection : Connection) : Nat :=
  connection.writes.length + Intake.weight connection.reads + 1

/-- The supply of a connection, if there is one. -/
def supplyOf (connection? : Option Connection) : Nat := (connection?.map Connection.supply).getD 0

def Client.supply (client : Client) : Nat := supplyOf client.connection

namespace Link

def ips (link : Link) : List String :=
  match link.addresses with
  | .ok ips => ips
  | .error _ => []

/-- The events that a link can supply: an attempt for each address, and those of its scripts. -/
def supply (link : Link) : Nat := link.ips.length + link.writes.length + Intake.weight link.reads

theorem ips_of_resolved {link : Link} {ips : List String} (resolved : link.addresses = .ok ips) : link.ips = ips := by
  rw [Link.ips, resolved]

end Link

def Network.supply : Network → Nat
  | [] => 0
  | link :: rest => link.supply + Network.supply rest

/-- Behind the end of its script a sending makes one write at most. -/
theorem Sending.offer_supply (left : Bytes) (writes : List WriteOutcome) :
    (offer left writes).events.length + (offer left writes).writes.length ≤ writes.length + 1 := by
  fun_induction offer left writes with
  | case1 => exact Nat.zero_le _
  | case2 => exact Nat.le_refl _
  | case3 outcome writes =>
    simp only [List.length_nil, List.length_cons]
    omega
  | case4 left writes more =>
    simp only [List.length_cons, List.length_nil]
    omega
  | case5 left writes more count stalled ih =>
    simp only [Sending.after, List.length_cons]
    omega
  | case6 left writes more error again ih =>
    simp only [Sending.after, List.length_cons]
    omega
  | case7 left writes more error final =>
    simp only [List.length_cons, List.length_nil]
    omega

theorem Intake.await_supply (pending : Bytes) (reads : List ReadOutcome) :
    (await pending reads).events.length + weight (await pending reads).reads ≤ weight reads + 1 := by
  fun_induction await pending reads with
  | case1 pending reads line left here =>
    simp only [List.length_nil]
    omega
  | case2 => exact Nat.le_refl _
  | case3 pending uncut error rest again ih =>
    simp only [after, weight, List.length_cons]
    omega
  | case4 pending uncut error rest final =>
    simp only [weight, List.length_cons, List.length_nil]
    omega
  | case5 pending uncut rest =>
    simp only [weight, List.length_cons, List.length_nil]
    omega
  | case6 pending uncut bytes rest present ih =>
    have used := weight_unread_lt bytes rest
    simp only [after, List.length_cons]
    omega

namespace Connection

theorem exchange_supply (connection : Connection) (line : String) :
    (connection.exchange line).2.2.events.length + (connection.exchange line).2.1.supply ≤ connection.supply + 2 := by
  have sending := Sending.offer_supply (frame line) connection.writes
  cases stopped : (Sending.offer (frame line) connection.writes).fault with
  | some fault =>
    rw [exchange_of_fault stopped]
    simp only [supply, sentTo]
    omega
  | none =>
    have receiving := Intake.await_supply connection.pending connection.reads
    rw [exchange_of_sent stopped, receive_eq]
    simp only [supply, sentTo, Trace.events_append, List.length_append]
    omega

theorem Outfit.length_le {limit : Option Duration} {link : Link} {fault? : Option Fault} {set : List Event}
    (outfit : Outfit limit link fault? set) : set.length ≤ 3 := by
  cases outfit <;> simp

/-- Opening a connection takes five events beside the attempts at most, one of which is its closing or is
    put by for it. -/
theorem establish_supply (config : Config) (link : Link) :
    (establish config link).2.events.length + supplyOf (establish config link).1.toOption ≤ link.supply + 5 := by
  obtain ⟨result, way⟩ := exists_establishment config link
  rw [way.establish_eq]
  have asked : (asking config link).events.length = 1 := rfl
  have attempted : ∀ ips, (attempts config.limit (peers config ips) link.connects).length = ips.length := by
    intro ips
    simp [attempts, peers]
  cases way with
  | unresolved barren =>
    show (asking config link).events.length + 0 ≤ _
    omega
  | @unreachable ips cause resolved present failed last =>
    have all := attempted ips
    show ((asking config link).events ++ attempts config.limit (peers config ips) link.connects).length + 0 ≤ _
    rw [List.length_append, Link.supply, Link.ips_of_resolved resolved]
    omega
  | @refused ips ip i fault set resolved here accepted first outfit =>
    have all := attempted ips
    have options := outfit.length_le
    show ((asking config link).events ++ (attempts config.limit (peers config ips) link.connects).take (i + 1) ++
      (set ++ [Event.close])).length + 0 ≤ _
    simp only [List.length_append, List.length_take, List.length_singleton]
    rw [Link.supply, Link.ips_of_resolved resolved]
    omega
  | @opened ips ip i set resolved here accepted first outfit =>
    have all := attempted ips
    have options := outfit.length_le
    show ((asking config link).events ++ (attempts config.limit (peers config ips) link.connects).take (i + 1) ++
      set).length + (link.writes.length + Intake.weight link.reads + 1) ≤ _
    simp only [List.length_append, List.length_take]
    rw [Link.supply, Link.ips_of_resolved resolved]
    omega

end Connection

namespace Client

theorem reach_supply (client : Client) (network : Network) :
    (client.reach network).2.2.events.length + supplyOf (client.reach network).1.toOption +
      (client.reach network).2.1.supply ≤ client.supply + network.supply + 5 := by
  cases connected : client.connection with
  | some connection =>
    rw [reach_of_connected connected, Client.supply, connected]
    show 0 + supplyOf (some connection) + network.supply ≤ _
    omega
  | none =>
    rw [reach_of_disconnected connected, Client.supply, connected]
    cases network with
    | nil =>
      -- Where nothing is said of the network, one attempt is made, and nobody listens.
      show 2 ≤ 5
      omega
    | cons link rest =>
      have spent := Connection.establish_supply client.config link
      have split : Network.supply (link :: rest) = link.supply + Network.supply rest := rfl
      rw [split]
      show (Connection.establish client.config link).2.events.length +
        supplyOf (Connection.establish client.config link).1.toOption + Network.supply rest ≤ 0 + _ + 5
      omega

theorem request_supply (client : Client) (network : Network) (command : Command) :
    (client.request network command).trace.events.length + (client.request network command).client.supply +
      (client.request network command).network.supply ≤ client.supply + network.supply + 7 := by
  have way := client.reach_supply network
  have parts := client.request_parts network command
  generalize client.request network command = outcome at parts ⊢
  cases parts with
  | @unreached fault reached reach events dropped =>
    rw [reach] at way
    have spent : reached.events.length + 0 + outcome.network.supply ≤ client.supply + network.supply + 5 := way
    have given : outcome.client.supply = 0 := by
      rw [supply, dropped]
      rfl
    rw [events, given]
    omega
  | @exchanged connection after answer reached exchanged last reach exchange events ends =>
    have exchanging : exchanged.events.length + after.supply ≤ connection.supply + 2 := by
      have spent := connection.exchange_supply command.line
      rwa [exchange] at spent
    rw [reach] at way
    have spent : reached.events.length + connection.supply + outcome.network.supply ≤
        client.supply + network.supply + 5 := way
    have closing : last.length + outcome.client.supply ≤ after.supply := by
      rcases ends with ⟨rfl, dropped⟩ | ⟨rfl, kept⟩
      · rw [supply, dropped]
        exact Nat.le_add_left _ _
      · rw [supply, kept]
        exact Nat.le_of_eq (Nat.zero_add _)
    rw [events, List.length_append, List.length_append]
    omega

theorem perform_supply (client : Client) (network : Network) (call : Call) :
    (client.perform network call).trace.events.length + (client.perform network call).client.supply +
      (client.perform network call).network.supply ≤ client.supply + network.supply + 7 := by
  cases call with
  | connect =>
    have way := client.reach_supply network
    unfold perform connect
    rcases reach : client.reach network with ⟨fault | connection, rest, reached⟩
    · rw [reach] at way
      have spent : reached.events.length + 0 + rest.supply ≤ client.supply + network.supply + 5 := way
      show reached.events.length + 0 + rest.supply ≤ _
      omega
    · rw [reach] at way
      have spent : reached.events.length + connection.supply + rest.supply ≤ client.supply + network.supply + 5 := way
      show reached.events.length + connection.supply + rest.supply ≤ _
      omega
  | close =>
    unfold perform close
    cases connected : client.connection with
    | none =>
      show 0 + client.supply + network.supply ≤ _
      omega
    | some connection =>
      show 1 + 0 + network.supply ≤ _
      omega
  | submit command =>
    show (client.submit network command).trace.events.length + (client.submit network command).client.supply +
      (client.submit network command).network.supply ≤ _
    unfold submit
    split
    · exact client.request_supply network command
    · show 0 + client.supply + network.supply ≤ _
      omega

theorem release_supply (client : Client) : client.release.length ≤ client.supply := by
  unfold release isConnected supply
  cases client.connection with
  | none => exact Nat.le_refl _
  | some connection => exact Nat.le_add_left _ _

end Client

/-! ## Whole sessions -/

namespace Session

theorem past_supply (client : Client) (network : Network) (calls : List Call) :
    (run client network calls).past.length + (run client network calls).client.supply +
      (run client network calls).network.supply ≤ client.supply + network.supply + 7 * calls.length := by
  induction calls generalizing client network with
  | nil =>
    show 0 + client.supply + network.supply ≤ _
    omega
  | cons call calls ih =>
    have first := client.perform_supply network call
    have later := ih (client.perform network call).client (client.perform network call).network
    rw [past_cons, List.length_append, List.length_cons]
    show _ + (run (client.perform network call).client (client.perform network call).network calls).client.supply +
      (run (client.perform network call).client (client.perform network call).network calls).network.supply ≤ _
    omega

end Session

/-- What a client may ask of a network, from whatever state the client is in. -/
structure Bounded (client : Client) (network : Network) : Prop where
  /-- In one call: the addresses once, an attempt for each of them, a write for each byte of the line and its
      end, and a read for each byte delivered and one more; an interrupted write or read is one more again. -/
  call : ∀ call, Within 1 call.size call.lines (client.perform network call).trace.events
  /-- A call that sends no command moves no bytes. -/
  still : ∀ call, (∀ command, call ≠ .submit command) →
    ∀ event ∈ (client.perform network call).trace.events, event.isTransfer = false
  /-- In all the calls of a session and at its end. -/
  session : ∀ calls, (Session.run client network calls).events.length ≤
    client.supply + network.supply + 7 * calls.length

/-- Every call ends, and asks no more of the network than it may; so does every session. -/
theorem Session.every_call_ends (client : Client) (network : Network) :
    Bounded client network ∧ Ends Sending.Round (fun state => (Sending.offer state.1 state.2).events) ∧
      Ends Intake.Round (fun state => (Intake.await state.1 state.2).events) := by
  refine ⟨⟨client.perform_within network, ?_, ?_⟩, Sending.ends, Intake.ends⟩
  · intro call silent
    cases call with
    | connect => exact client.connect_still network
    | close => exact client.close_still network
    | submit command => exact absurd rfl (silent command)
  · intro calls
    have past := past_supply client network calls
    have release := Client.release_supply (run client network calls).client
    show ((run client network calls).past ++ (run client network calls).client.release).length ≤ _
    rw [List.length_append]
    omega

end LineStore
