import LineStore.Proofs.Store
import LineStore.Proofs.Turns

/-!
A client over the reference store is a map. The store keeps what it holds from socket to socket
and answers on each socket the lines it gets there (`Served`); where connecting succeeds and no
write does harm, every call is answered as a map answers it (`Session.answers_as_map`), however
writes and reads are cut into pieces. The invariant is that a connection still delivers what the
store will answer to the requests to come on it (`Attends`).
-/
namespace LineStore
open Framing

/-- Each attempt to reach the store opens a socket on which no write fails, and which delivers the
    answers of the store to the bytes that it accepts; the store goes on as they leave it. -/
def Served : Store → Network → List Bytes → Prop
  | _, _, [] => True
  | store, network, accepted :: later =>
    network.link.Opens ∧ (∀ write ∈ network.link.writes, write.Harmless) ∧
      (Delivery.ofReads network.link.reads).bytes = (store.serve (lines accepted)).2 ∧
      Served (store.serve (lines accepted)).1 network.rest later

/-- What is accepted in some turns before the next attempt to reach the server. -/
def acceptedNow (turns : List Turn) : Bytes := (turns.takeWhile (!·.opens)).flatMap Turn.accepted

/-- What is accepted in some turns on each socket that is opened in them. -/
def acceptedLater (turns : List Turn) : List Bytes := (spells Turn.opens turns).map (·.flatMap Turn.accepted)

theorem acceptedNow_of_opens {turn : Turn} (opens : turn.opens = true) (turns : List Turn) : acceptedNow (turn :: turns) = [] := by
  rw [acceptedNow, List.takeWhile_cons_of_neg (by simp [opens])]
  rfl

theorem acceptedNow_of_not_opens {turn : Turn} (goesOn : turn.opens = false) (turns : List Turn) :
    acceptedNow (turn :: turns) = turn.accepted ++ acceptedNow turns := by
  rw [acceptedNow, List.takeWhile_cons_of_pos (by simp [goesOn]), List.flatMap_cons]
  rfl

theorem acceptedLater_of_opens {turn : Turn} (opens : turn.opens = true) (turns : List Turn) :
    acceptedLater (turn :: turns) = (turn.accepted ++ acceptedNow turns) :: acceptedLater turns := by
  rw [acceptedLater, spells, if_pos opens, List.map_cons, List.flatMap_cons]
  rfl

theorem acceptedLater_of_not_opens {turn : Turn} (goesOn : turn.opens = false) (turns : List Turn) :
    acceptedLater (turn :: turns) = acceptedLater turns := by
  rw [acceptedLater, spells, if_neg (by simp [goesOn])]
  rfl

/-- A connection that delivers the answers of a store to what will be accepted on it. -/
structure Ready (store : Store) (connection : Connection) (accepted : Bytes) : Prop where
  harmless : ∀ write ∈ connection.writes, write.Harmless
  answers : connection.stream.bytes = (store.serve (lines accepted)).2

/-- What a client is to find in the turns that are to come: its connection is ready for them, and
    the sockets after it are served in turn. -/
structure Attends (store : Store) (client : Client) (network : Network) (turns : List Turn) : Prop where
  ready : ∀ connection, client.connection = some connection → Ready store connection (acceptedNow turns)
  later : Served (store.serve (lines (acceptedNow turns))).1 network (acceptedLater turns)

theorem lines_nil : lines [] = [] := lines_of_uncut rfl

/-- The first line of a stream that is ready is the answer to the first line that is sent. -/
theorem Ready.cut {store : Store} {connection : Connection} {command : Command} {more : Bytes} {reply : String}
    (ready : Ready store connection (frame command.line ++ more)) (fits : OneLine command.line)
    (told : (store.answer (Bytes.ofText command.line)).2 = Bytes.ofText reply) (oneLine : OneLine reply) :
    cut? connection.stream.bytes =
      some (Bytes.ofText reply, ((store.answer (Bytes.ofText command.line)).1.serve (lines more)).2) := by
  have replies : connection.stream.bytes =
      frame reply ++ ((store.answer (Bytes.ofText command.line)).1.serve (lines more)).2 := by
    rw [ready.answers, lines_frame_append fits, frame, ← told, List.append_assoc]
    rfl
  rw [replies, cut?_frame oneLine]

namespace Attends
variable {store : Store} {contents : Contents} {client : Client} {network : Network} {later : List Turn}

/-- Where a call needs the server there is a connection for it, ready from this turn on. -/
theorem reach {turn : Turn} (attends : Attends store client network (turn :: later)) (asked : turn.opens = !client.isConnected) :
    ∃ connection rest reached, client.reach network = (.ok connection, rest, reached) ∧
      Ready store connection (turn.accepted ++ acceptedNow later) ∧
      Served (store.serve (lines (turn.accepted ++ acceptedNow later))).1 rest (acceptedLater later) := by
  obtain ⟨ready, served⟩ := attends
  cases connected : client.connection with
  | some connection =>
    have goesOn : turn.opens = false := by rw [asked, Client.isConnected, connected]; rfl
    rw [acceptedNow_of_not_opens goesOn] at ready served
    rw [acceptedLater_of_not_opens goesOn] at served
    exact ⟨connection, network, {}, Client.reach_of_connected connected network, ready connection connected, served⟩
  | none =>
    have opens : turn.opens = true := by rw [asked, Client.isConnected, connected]; rfl
    rw [acceptedNow_of_opens opens, acceptedLater_of_opens opens, lines_nil] at served
    obtain ⟨reachable, harmless, replies, rest⟩ := served
    obtain ⟨connection, success⟩ := Connection.establish_of_opens client.config reachable
    obtain ⟨writes, reads, pending⟩ := Connection.establish_ok success
    refine ⟨connection, network.rest, (Connection.establish client.config network.link).2, ?_, ⟨?_, ?_⟩, rest⟩
    · rw [Client.reach_of_disconnected connected, success]
    · rw [writes]
      exact harmless
    · rw [Connection.stream, reads, pending, Delivery.behind_nil]
      exact replies

/-- A request is answered as the map answers it, and the connection is ready for the next one. -/
theorem request {command : Command} (plain : command.Plain) (represents : Represents store contents)
    (attends : Attends store client network (⟨.submit command, (client.request network command).step⟩ :: later)) :
    (client.request network command).result = .ok (contents.answer (.submit command)) ∧
      ∃ changed, Represents changed (contents.next (.submit command)) ∧
        Attends changed (client.request network command).client (client.request network command).network later := by
  obtain ⟨connection, rest, reached, reach, ready, served⟩ := attends.reach (client.request_asks network command).opens
  have fits := command.oneLine_line_iff.mpr plain.oneLine
  obtain ⟨reply, told, oneLine, accepts, next⟩ := represents.answer plain
  -- The stream begins with the answer to the line that is about to be sent, so it is not uncut.
  have smooth := Client.request_smooth reach ready.harmless command
  generalize client.request network command = outcome at smooth ready served ⊢
  have frames : ∀ {exchanged last : Trace}, exchanged.accepted = frame command.line → last.accepted = [] →
      (.ofRecord (.sending command.summary) ++ reached ++ exchanged ++ last : Trace).accepted = frame command.line :=
    fun sent quiet => (Client.accepted_request reach command _ quiet).trans sent
  cases smooth with
  | unanswered transfers detail sent uncut =>
    rw [Turn.accepted, Client.Outcome.step, frames sent rfl] at ready
    rw [ready.cut fits told oneLine] at uncut
    simp at uncut
  | @answered exchanged after bytes left transfers detail sent cut peer stream harmless =>
    rw [Turn.accepted, Client.Outcome.step, frames sent rfl] at ready served
    obtain ⟨rfl, rfl⟩ : _ ∧ _ := by simpa [ready.cut fits told oneLine] using cut
    refine ⟨?_, _, next, ?_, ?_⟩
    · show command.read (Bytes.ofText reply) = _
      rw [Command.read, Bytes.text?_ofText]
      exact Command.interpret_of_accepts accepts
    · intro other same
      obtain rfl := Option.some.inj same
      exact ⟨harmless, by rw [stream]⟩
    · rw [lines_frame_append fits] at served
      exact served

theorem connect (attends : Attends store client network (⟨.connect, (client.connect network).step⟩ :: later)) :
    (client.connect network).result = .ok .done ∧
      Attends store (client.connect network).client (client.connect network).network later := by
  have silent : Turn.accepted ⟨.connect, (client.connect network).step⟩ = [] :=
    Turn.accepted_of_silent (client.connect_still network)
  obtain ⟨connection, rest, reached, reach, ready, served⟩ := attends.reach (client.connect_asks network).opens
  rw [silent, List.nil_append] at ready served
  unfold Client.connect
  rw [reach]
  refine ⟨rfl, fun other same => ?_, served⟩
  obtain rfl := Option.some.inj same
  exact ready

/-- A call that does not ask for the server leaves the sockets to come as they are. -/
theorem skip {turn : Turn} (goesOn : turn.opens = false) (silent : turn.accepted = [])
    (attends : Attends store client network (turn :: later)) : Attends store client network later := by
  obtain ⟨ready, served⟩ := attends
  rw [acceptedNow_of_not_opens goesOn, silent, List.nil_append] at ready served
  rw [acceptedLater_of_not_opens goesOn] at served
  exact ⟨ready, served⟩

/-- Closing leaves the next socket to what is yet to come. -/
theorem close (attends : Attends store client network (⟨.close, (client.close network).step⟩ :: later)) :
    (client.close network).result = .ok .done ∧
      Attends store (client.close network).client (client.close network).network later := by
  have silent : Turn.accepted ⟨.close, (client.close network).step⟩ = [] :=
    Turn.accepted_of_silent (client.close_still network)
  have goesOn : Turn.opens ⟨.close, (client.close network).step⟩ = false := by
    unfold Turn.opens Client.close
    cases client.connection <;> rfl
  have kept := attends.skip goesOn silent
  unfold Client.close
  cases connected : client.connection with
  | none => exact ⟨rfl, kept⟩
  | some connection => exact ⟨rfl, nofun, kept.later⟩

/-- Every call is answered as the map answers it. -/
theorem perform {call : Call} (plain : ∀ command, call = .submit command → command.Plain) (represents : Represents store contents)
    (attends : Attends store client network (⟨call, (client.perform network call).step⟩ :: later)) :
    (client.perform network call).result = .ok (contents.answer call) ∧
      ∃ changed, Represents changed (contents.next call) ∧
        Attends changed (client.perform network call).client (client.perform network call).network later := by
  cases call with
  | connect =>
    obtain ⟨result, next⟩ := attends.connect
    exact ⟨result, store, represents, next⟩
  | close =>
    obtain ⟨result, next⟩ := attends.close
    exact ⟨result, store, represents, next⟩
  | submit command =>
    have plain := plain command rfl
    have same : client.perform network (.submit command) = client.request network command := if_pos plain.keyed
    rw [same] at attends ⊢
    exact attends.request plain represents

end Attends

namespace Session

theorem run_of_attends {store : Store} {contents : Contents} {client : Client} {network : Network} {calls : List Call}
    (plain : ∀ command, .submit command ∈ calls → command.Plain) (represents : Represents store contents)
    (attends : Attends store client network (turns client network calls)) :
    (run client network calls).steps.map Step.result = (contents.answers calls).map .ok := by
  induction calls generalizing store contents client network with
  | nil => rfl
  | cons call calls ih =>
    rw [turns_cons] at attends
    obtain ⟨result, changed, represented, next⟩ := attends.perform (fun command same => plain command (by simp [same])) represents
    have later := ih (fun command member => plain command (by simp [member])) represented next
    rw [run, Contents.answers, List.map_cons, List.map_cons, result, later]

/-- A client over the reference store is a map: where the store is reached and no write does harm,
    no call fails, and all of them are answered as a map answers them that is empty at first. -/
theorem answers_as_map {client : Client} {network : Network} {calls : List Call} (fresh : client.connection = none)
    (plain : ∀ command, .submit command ∈ calls → command.Plain)
    (served : Served .empty network (acceptedLater (turns client network calls))) :
    (run client network calls).steps.map Step.result = (Contents.empty.answers calls).map .ok := by
  refine run_of_attends plain represents_empty ⟨?_, ?_⟩
  · intro connection connected
    rw [fresh] at connected
    simp at connected
  · have untouched : acceptedNow (turns client network calls) = [] :=
      List.flatMap_eq_nil_iff.mpr fun turn member => Turn.accepted_of_silent (silent_of_disconnected fresh network calls turn member)
    rw [untouched, lines_nil]
    exact served

end Session

/-- Two links that take and give piece by piece what a store is sent and answers. -/
def Network.piecemeal : Network :=
  [{ writes := [.accepts 3, .fails ⟨.interrupted, "again"⟩, .accepts 100],
     reads := [.delivers (Bytes.ofText "O"), .fails ⟨.interrupted, "again"⟩, .delivers (Bytes.ofText "K\r"),
       .delivers (Bytes.ofText "\nVALUE \""), .delivers (Bytes.ofText "\"\r\n")] },
   { reads := [.delivers (Bytes.ofText "OK\r\nNOT_FOUND\r\n")] }]

/-- An empty value is kept while a socket is closed, and is gone once it is removed. -/
theorem Session.answers_as_map_piecemeal :
    (run ⟨{}, by decide, none⟩ .piecemeal
        [.submit (.set "k" ""), .submit (.get "k"), .close, .submit (.del "k"), .submit (.get "k")]).steps.map Step.result =
      [.ok .done, .ok (.found ""), .ok .done, .ok .removed, .ok .absent] := by
  have accepted : acceptedLater (turns ⟨{}, by decide, none⟩ .piecemeal
      [.submit (.set "k" ""), .submit (.get "k"), .close, .submit (.del "k"), .submit (.get "k")]) =
      [["SET k \"\"", "GET k"].flatMap frame ++ [], ["DEL k", "GET k"].flatMap frame ++ []] := by
    decide +kernel
  refine (answers_as_map rfl ?_ ?_).trans rfl
  · intro command member
    simp only [List.mem_cons, Call.submit.injEq, reduceCtorEq, List.not_mem_nil, or_false, false_or] at member
    rcases member with rfl | rfl | rfl | rfl
    all_goals exact ⟨by decide, by simp [Command.key?], by simp [Command.texts]; decide +kernel⟩
  · rw [accepted]
    refine ⟨⟨["127.0.0.1"], rfl, 0, by decide⟩, by decide, ?_, ⟨["127.0.0.1"], rfl, 0, by decide⟩, by decide, ?_, trivial⟩
    · rw [lines_frames (by decide +kernel) (by decide)]
      decide +kernel
    · rw [lines_frames (by decide +kernel) (by decide), lines_frames (by decide +kernel) (by decide)]
      decide +kernel

end LineStore
