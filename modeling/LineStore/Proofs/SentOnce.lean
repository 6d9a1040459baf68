import LineStore.Proofs.Commands
import LineStore.Proofs.Lifecycle
import Mathlib.Data.List.TakeWhile

/-!
Requests are sent once and in order. What a socket accepts over its whole life is the frames of
the requests made on it, one behind the other in the order of the calls; only the last frame may
be cut short, and then that request fails and the socket is closed (`Life.in_order`). No call asks
for a socket twice, opens more than one, or has other bytes accepted than its own
(`Client.perform_once`). What happens on a socket is what its turns do, each turn wholly on one socket
(`Session.ofSpell_socket`). So over a whole session nothing is sent twice (`Session.sent_once_in_order`).
-/
namespace LineStore
open Framing

/-! ## The requests made on a socket -/

/-- The request of a turn and what came of it, if it got a socket to be written to. -/
def Turn.ran? (turn : Turn) : Option (Command × Step) :=
  match turn.call with
  | .submit command => if turn.wrote then some (command, turn.step) else none
  | _ => none

/-- The requests of some turns that got a socket, in order, each with what came of it. -/
def ran (turns : List Turn) : List (Command × Step) := turns.filterMap Turn.ran?

/-- What requests made one after another on a socket leave there: the frames of some, all of them
    whole, and at most one more at the end that is cut short. -/
structure InOrder (requests whole : List (Command × Step)) (part : Option (Command × Step)) (bytes : Bytes) : Prop where
  all : requests = whole ++ part.toList
  accepted : bytes = whole.flatMap (fun request => frame request.1.line) ++
    part.toList.flatMap fun request => request.2.trace.accepted
  complete : ∀ request ∈ whole, request.2.trace.accepted = frame request.1.line
  short : ∀ request ∈ part, request.2.trace.accepted <+: frame request.1.line ∧
    request.2.trace.accepted ≠ frame request.1.line
  lost : ∀ request ∈ part, (∃ fault, request.2.result = .error fault ∧ fault.kind = .connection) ∧
    Turn.Drops ⟨.submit request.1, request.2⟩

theorem Turn.wrote_of_accepted {turn : Turn} (sent : turn.accepted ≠ []) : turn.wrote = true := by
  obtain ⟨byte, member⟩ := List.exists_mem_of_ne_nil _ sent
  obtain ⟨event, happened, accepted⟩ := List.mem_flatMap.mp member
  refine List.any_eq_true.mpr ⟨event, happened, ?_⟩
  cases event <;> simp_all [Event.accepted]

theorem Turn.ran?_of_silent {turn : Turn} (silent : turn.Silent) : turn.ran? = none := by
  have unwritten : turn.wrote = false := by
    refine List.any_eq_false.mpr fun event member => ?_
    have still := silent event member
    cases event <;> simp_all [Event.isTransfer]
  unfold ran?
  split
  · rw [unwritten, if_neg Bool.false_ne_true]
  · rfl

theorem ran_of_silent {turns : List Turn} (silent : ∀ turn ∈ turns, turn.Silent) : ran turns = [] :=
  List.filterMap_eq_nil_iff.mpr fun turn member => Turn.ran?_of_silent (silent turn member)

theorem accepted_of_all_silent {turns : List Turn} (silent : ∀ turn ∈ turns, turn.Silent) :
    turns.flatMap Turn.accepted = [] :=
  List.flatMap_eq_nil_iff.mpr fun turn member => Turn.accepted_of_silent (silent turn member)

theorem ran_cons_of_wrote {command : Command} {step : Step} (wrote : Turn.wrote ⟨.submit command, step⟩) (turns : List Turn) :
    ran (⟨.submit command, step⟩ :: turns) = (command, step) :: ran turns :=
  List.filterMap_cons_some (by simp [Turn.ran?, wrote])

theorem wrote_of_sent {command : Command} {step : Step} (sent : step.trace.accepted = frame command.line) :
    Turn.wrote ⟨.submit command, step⟩ = true :=
  Turn.wrote_of_accepted (sent.trans_ne (frame_ne_nil command.line))

theorem InOrder.nothing : InOrder [] [] none [] := ⟨rfl, rfl, by simp, by simp, by simp⟩

theorem InOrder.cons {requests whole : List (Command × Step)} {part : Option (Command × Step)} {bytes : Bytes}
    (later : InOrder requests whole part bytes) {command : Command} {step : Step}
    (sent : step.trace.accepted = frame command.line) :
    InOrder ((command, step) :: requests) ((command, step) :: whole) part (frame command.line ++ bytes) where
  all := by rw [later.all, List.cons_append]
  accepted := by rw [later.accepted, List.flatMap_cons, List.append_assoc]
  complete := by simpa [sent] using later.complete
  short := later.short
  lost := later.lost

/-- The requests of a connection are sent in order, and none is cut short but the last. -/
theorem Life.in_order {stream : Delivery} {turns : List Turn} (life : Life stream turns) :
    ∃ whole part, InOrder (ran turns) whole part (turns.flatMap Turn.accepted) := by
  induction life with
  | quiet silent =>
    rw [ran_of_silent silent, accepted_of_all_silent silent]
    exact ⟨[], none, .nothing⟩
  | @idle stream turn turns silent later ih =>
    obtain ⟨whole, part, inOrder⟩ := ih
    have same : ran (turn :: turns) = ran turns := List.filterMap_cons_none (Turn.ran?_of_silent silent)
    rw [same, List.flatMap_cons, Turn.accepted_of_silent silent]
    exact ⟨whole, part, inOrder⟩
  | @unsent stream command step turns fault part result kind wrote sent begins short drops silent =>
    rw [ran_cons_of_wrote wrote, ran_of_silent silent, List.flatMap_cons, accepted_of_all_silent silent]
    refine ⟨[], some (command, step), rfl, by simp [Turn.accepted], by simp, ?_, ?_⟩
    · rintro _ ⟨⟩
      rw [sent]
      exact ⟨begins, short⟩
    · rintro _ ⟨⟩
      exact ⟨⟨fault, result, kind⟩, drops⟩
  | @unanswered stream command step turns result sent uncut drops silent =>
    have accepted : Turn.accepted ⟨.submit command, step⟩ = frame command.line := sent
    rw [ran_cons_of_wrote (wrote_of_sent sent), ran_of_silent silent, List.flatMap_cons, accepted_of_all_silent silent, accepted]
    exact ⟨[(command, step)], none, InOrder.nothing.cons sent⟩
  | @answered stream command step turns bytes left result sent cut keeps later ih =>
    obtain ⟨whole, part, inOrder⟩ := ih
    have accepted : Turn.accepted ⟨.submit command, step⟩ = frame command.line := sent
    rw [ran_cons_of_wrote (wrote_of_sent sent), List.flatMap_cons, accepted]
    exact ⟨(command, step) :: whole, part, inOrder.cons sent⟩

/-! ## The lines that a server makes of them -/

theorem lines_frames_append (texts : List String) (more : Bytes) :
    lines (texts.flatMap frame ++ more) = texts.flatMap (fun text => lines (frame text)) ++ lines more := by
  induction texts with
  | nil => rfl
  | cons text texts ih =>
    rw [List.flatMap_cons, List.append_assoc, lines_append (ended_frame text), ih, List.flatMap_cons, List.append_assoc]

/-- A server cuts every whole frame for itself. -/
theorem InOrder.lines_eq {requests whole : List (Command × Step)} {part : Option (Command × Step)} {bytes : Bytes}
    (inOrder : InOrder requests whole part bytes) :
    lines bytes = whole.flatMap (fun request => lines (frame request.1.line)) ++
      lines (part.toList.flatMap fun request => request.2.trace.accepted) := by
  have texts := lines_frames_append (whole.map (·.1.line)) (part.toList.flatMap fun request => request.2.trace.accepted)
  rw [List.flatMap_map, List.flatMap_map] at texts
  rw [inOrder.accepted, texts]

/-- Where no text holds a terminator, the server gets back the lines that were sent whole. -/
theorem InOrder.lines_of_oneLine {requests whole : List (Command × Step)} {part : Option (Command × Step)} {bytes : Bytes}
    (inOrder : InOrder requests whole part bytes)
    (oneLine : ∀ request ∈ requests, ∀ text ∈ request.1.texts, OneLine text) :
    lines bytes = whole.map fun request => Bytes.ofText request.1.line := by
  have line : ∀ request ∈ requests, OneLine request.1.line := fun request member =>
    request.1.oneLine_line_iff.mpr (oneLine request member)
  rw [inOrder.all] at line
  have unfinished : cut? (part.toList.flatMap fun request => request.2.trace.accepted) = none := by
    cases part with
    | none => rfl
    | some request =>
      obtain ⟨begins, short⟩ := inOrder.short request rfl
      have uncut := cut?_of_prefix_frame (line request (by simp)) begins short
      simpa using uncut
  have texts : ∀ text ∈ whole.map (·.1.line), OneLine text := by
    intro text member
    obtain ⟨request, sent, rfl⟩ := List.mem_map.mp member
    exact line request (List.mem_append_left _ sent)
  have cut := lines_frames texts unfinished
  rw [List.flatMap_map, List.map_map] at cut
  rw [inOrder.accepted, cut]
  rfl

/-- What a server that cuts at each terminator makes of the requests on a socket: those sent whole
    are cut each for itself, into the one line that was sent or, where a text holds a terminator,
    into several. -/
structure CutBack (requests whole : List (Command × Step)) (part : Option (Command × Step)) (bytes : Bytes) : Prop where
  pieces : lines bytes = whole.flatMap (fun request => lines (frame request.1.line)) ++
    lines (part.toList.flatMap fun request => request.2.trace.accepted)
  plain : (∀ request ∈ requests, ∀ text ∈ request.1.texts, OneLine text) →
    lines bytes = whole.map fun request => Bytes.ofText request.1.line
  broken : ∀ request ∈ whole, (∃ text ∈ request.1.texts, ¬ OneLine text) → 2 ≤ (lines (frame request.1.line)).length

theorem InOrder.cutBack {requests whole : List (Command × Step)} {part : Option (Command × Step)} {bytes : Bytes}
    (inOrder : InOrder requests whole part bytes) : CutBack requests whole part bytes := by
  refine ⟨inOrder.lines_eq, inOrder.lines_of_oneLine, ?_⟩
  rintro request - ⟨text, member, broken⟩
  exact two_le_lines_frame fun oneLine => broken (request.1.oneLine_line_iff.mp oneLine text member)

/-! ## What one call sends -/

/-- The bytes that a call has to send. -/
def Call.bytes : Call → Bytes
  | .submit command => frame command.line
  | _ => []

/-- A call asks for the addresses of the host before anything else or not at all, opens one socket at
    most and before any bytes are moved, and has its own bytes accepted, once and from the first on; it
    has all of them accepted if it succeeds or the answer is a fault. -/
structure Turn.Once (turn : Turn) : Prop where
  asks : ∀ event ∈ turn.step.trace.events.tail, event.isResolve = false
  socket : OneSocket turn.step.trace.events
  begins : turn.accepted <+: turn.call.bytes
  answered : (∀ fault, turn.step.result = .error fault → fault.kind = .protocol) → turn.accepted = turn.call.bytes

theorem Turn.begins_of_unsent {turn : Turn} (unsent : turn.accepted = []) : turn.accepted <+: turn.call.bytes := by
  rw [unsent]
  exact List.nil_prefix

namespace Client

theorem Asks.tail {client : Client} {network rest : Network} {events : List Event} (asks : Asks client network rest events) :
    ∀ event ∈ events.tail, event.isResolve = false := by
  cases asks with
  | nothing connected same unasked => exact fun event member => unasked event (List.mem_of_mem_tail member)
  | addresses disconnected taken first once => rw [first]; exact once

/-- What a request has accepted is a beginning of its frame, and all of it once there is an answer. -/
theorem request_accepts (client : Client) (network : Network) (command : Command) :
    (client.request network command).trace.accepted <+: frame command.line ∧
      ((∀ fault, (client.request network command).result = .error fault → fault.kind = .protocol) →
        (client.request network command).trace.accepted = frame command.line) := by
  have still := client.reach_still network
  have failed : ∀ fault, (client.reach network).1 = .error fault → fault.kind = .connection := fun _ => reach_error
  have course := client.request_course network command
  generalize client.request network command = outcome at course ⊢
  cases course with
  | @unreached fault rest reached reach =>
    rw [reach] at still failed
    have unsent : (.ofRecord (.sending command.summary) ++ reached : Trace).accepted = [] :=
      Trace.accepted_eq_nil (by simpa [Trace.ofRecord] using still)
    refine ⟨by rw [unsent]; exact List.nil_prefix, fun protocol => ?_⟩
    exact absurd ((failed fault rfl).symm.trans (protocol fault rfl)) (by decide)
  | @unsent connection after rest reached exchanged fault reach exchange kind begins short harm =>
    refine ⟨by rw [accepted_request reach command exchanged rfl]; exact begins, fun protocol => ?_⟩
    exact absurd (kind.symm.trans (protocol fault rfl)) (by decide)
  | @unanswered connection after rest reached exchanged reach exchange sent uncut =>
    refine ⟨⟨[], by rw [List.append_nil, accepted_request reach command exchanged rfl, sent]⟩, fun protocol => ?_⟩
    exact absurd ((fault_kind _).symm.trans (protocol _ rfl)) (by decide)
  | @answered connection after rest reached exchanged bytes left reach exchange sent cut peer stream harmless =>
    have all : (.ofRecord (.sending command.summary) ++ reached ++ exchanged ++
        ⟨[], (Bytes.text? bytes).toList.map .received⟩ : Trace).accepted = frame command.line :=
      (accepted_request reach command exchanged rfl).trans sent
    exact ⟨⟨[], by rw [List.append_nil, all]⟩, fun _ => all⟩

theorem perform_once (client : Client) (network : Network) (call : Call) :
    Turn.Once ⟨call, (client.perform network call).step⟩ := by
  have asks : ∀ event ∈ (client.perform network call).trace.events.tail, event.isResolve = false := by
    rcases client.perform_cases network call with ⟨result, idle⟩ | asks
    · rw [idle]
      simp
    · exact asks.tail
  have socket := (client.perform_run network call).oneSocket asks
  have quiet : (∀ event ∈ (client.perform network call).trace.events, event.isTransfer = false) →
      Turn.accepted ⟨call, (client.perform network call).step⟩ = [] := Trace.accepted_eq_nil
  cases call with
  | connect =>
    have unsent := quiet (client.connect_still network)
    exact ⟨asks, socket, Turn.begins_of_unsent unsent, fun _ => unsent⟩
  | close =>
    have unsent := quiet (client.close_still network)
    exact ⟨asks, socket, Turn.begins_of_unsent unsent, fun _ => unsent⟩
  | submit command =>
    by_cases keyed : command.WellKeyed
    · have same : client.perform network (.submit command) = client.request network command := if_pos keyed
      obtain ⟨begins, answered⟩ := client.request_accepts network command
      rw [same] at asks socket ⊢
      exact ⟨asks, socket, begins, answered⟩
    · have same : client.perform network (.submit command) = ⟨.error .emptyKey, client, network, {}⟩ := if_neg keyed
      rw [same] at asks socket quiet ⊢
      have unsent := quiet (by simp)
      refine ⟨asks, socket, Turn.begins_of_unsent unsent, fun protocol => ?_⟩
      exact absurd (protocol .emptyKey rfl) (by decide)

end Client

/-! ## Spells -/

section Spells
variable {α : Type} {opens : α → Bool}

theorem spells_append_of_unopened {first : List α} (unopened : ∀ a ∈ first, opens a = false) (second : List α) :
    spells opens (first ++ second) = spells opens second := by
  induction first with
  | nil => rfl
  | cons a first ih =>
    rw [List.cons_append, spells, unopened a (by simp), if_neg Bool.false_ne_true]
    exact ih fun a member => unopened a (by simp [member])

/-- Every turn is in one spell, those before the first spell apart. -/
theorem takeWhile_append_spells (opens : α → Bool) (list : List α) :
    list.takeWhile (!opens ·) ++ (spells opens list).flatten = list := by
  induction list with
  | nil => rfl
  | cons a list ih =>
    rw [spells, List.takeWhile_cons]
    cases opens a with
    | true => simpa using ih
    | false => simpa using ih

/-- A spell is a part of the list, and opens no other. -/
theorem infix_of_mem_spells {list spell : List α} (member : spell ∈ spells opens list) :
    spell <:+: list ∧ ∀ a ∈ spell.tail, opens a = false := by
  induction list with
  | nil => simp [spells] at member
  | cons a list ih =>
    have later : spell ∈ spells opens list → spell <:+: a :: list ∧ ∀ a ∈ spell.tail, opens a = false := by
      intro behind
      obtain ⟨inside, unopened⟩ := ih behind
      exact ⟨inside.trans (List.suffix_cons a list).isInfix, unopened⟩
    rw [spells] at member
    split at member
    · rcases List.mem_cons.mp member with rfl | behind
      · refine ⟨((List.prefix_cons_inj a).mpr (List.takeWhile_prefix _)).isInfix, fun b inside => ?_⟩
        simpa using List.mem_takeWhile_imp inside
      · exact later behind
    · exact later member

end Spells

/-! ## Whole sessions -/

namespace Turn

theorem unasked_of_not_opens {turn : Turn} (goesOn : turn.opens = false) :
    ∀ event ∈ turn.step.trace.events, event.isResolve = false := by
  intro event member
  have unasked := List.any_eq_false.mp goesOn event member
  simpa using unasked

/-- A turn that opens a spell begins with the question for the addresses and does not repeat it. -/
theorem Once.events_of_opens {turn : Turn} (once : turn.Once) (opens : turn.opens = true) :
    ∃ first later, turn.step.trace.events = first :: later ∧ first.isResolve = true ∧
      ∀ event ∈ later, event.isResolve = false := by
  have asks := once.asks
  unfold Turn.opens at opens
  cases events : turn.step.trace.events with
  | nil =>
    rw [events] at opens
    simp at opens
  | cons first later =>
    rw [events] at asks opens
    have unasked : later.any Event.isResolve = false := List.any_eq_false.mpr fun event member => by simp [asks event member]
    rw [List.any_cons, unasked, Bool.or_false] at opens
    exact ⟨first, later, rfl, opens, asks⟩

end Turn

section Sockets
variable {turns : List Turn} {last : List Event} (once : ∀ turn ∈ turns, turn.Once)
  (unasked : ∀ event ∈ last, event.isResolve = false)
include once unasked

theorem events_takeWhile :
    ∃ ending ⊆ last, (turns.flatMap (·.step.trace.events) ++ last).takeWhile (!·.isResolve) =
      (turns.takeWhile (!·.opens)).flatMap (·.step.trace.events) ++ ending := by
  induction turns with
  | nil =>
    refine ⟨last, List.Subset.refl last, List.takeWhile_eq_self_iff.mpr fun event member => ?_⟩
    simp [unasked event member]
  | cons turn turns ih =>
    rw [List.flatMap_cons, List.append_assoc, List.takeWhile_cons]
    cases opens : turn.opens with
    | true =>
      obtain ⟨first, later, events, resolve, -⟩ := (once turn (by simp)).events_of_opens opens
      refine ⟨[], List.nil_subset last, ?_⟩
      rw [events, List.cons_append, List.takeWhile_cons]
      simp [resolve]
    | false =>
      obtain ⟨ending, among, same⟩ := ih fun turn member => once turn (by simp [member])
      have whole := Turn.unasked_of_not_opens opens
      refine ⟨ending, among, ?_⟩
      rw [List.takeWhile_append_of_pos fun event member => by simp [whole event member], same]
      simp

/-- The events from one question for the addresses to the next are those of the turns of a spell. -/
theorem events_spells (k : Nat) :
    ∃ ending ⊆ last, (spells Event.isResolve (turns.flatMap (·.step.trace.events) ++ last))[k]?.getD [] =
      ((spells Turn.opens turns)[k]?.getD []).flatMap (·.step.trace.events) ++ ending := by
  induction turns generalizing k with
  | nil =>
    -- Events that belong to no turn are behind the last spell or before any.
    have outside : spells Event.isResolve last = [] := by simpa [spells] using spells_append_of_unopened unasked []
    refine ⟨[], List.nil_subset last, ?_⟩
    rw [List.flatMap_nil, List.nil_append, outside]
    rfl
  | cons turn turns ih =>
    have onceLater : ∀ turn ∈ turns, turn.Once := fun turn member => once turn (by simp [member])
    rw [List.flatMap_cons, List.append_assoc]
    cases opens : turn.opens with
    | true =>
      obtain ⟨first, later, events, resolve, rest⟩ := (once turn (by simp)).events_of_opens opens
      rw [events, List.cons_append, spells, spells, if_pos resolve, if_pos opens, spells_append_of_unopened rest]
      cases k with
      | succ k => exact ih onceLater k
      | zero =>
        obtain ⟨ending, among, same⟩ := events_takeWhile onceLater unasked
        refine ⟨ending, among, ?_⟩
        rw [List.takeWhile_append_of_pos fun event member => by simp [rest event member], same]
        simp [events]
    | false =>
      rw [spells_append_of_unopened (Turn.unasked_of_not_opens opens), spells, if_neg (by simp [opens])]
      exact ih onceLater k

end Sockets

/-- The events of a socket are those of the turns of a spell, and its closing where it is closed with
    the session; they open one socket at most. -/
structure OfSpell (spell : List Turn) (events : List Event) : Prop where
  single : OneSocket events
  turns : ∃ ending, (∀ event ∈ ending, event = .close) ∧ events = spell.flatMap (·.step.trace.events) ++ ending

/-- A socket accepts what is accepted in the turns of its spell. -/
theorem OfSpell.accepted {spell : List Turn} {events : List Event} (ofSpell : OfSpell spell events) :
    events.flatMap Event.accepted = spell.flatMap Turn.accepted := by
  obtain ⟨ending, closes, rfl⟩ := ofSpell.turns
  have nothing : ending.flatMap Event.accepted = [] := by
    refine List.flatMap_eq_nil_iff.mpr fun event member => ?_
    rw [closes event member]
    rfl
  rw [List.flatMap_append, nothing, List.append_nil, List.flatMap_assoc]
  rfl

namespace Session

/-- The events of the `k`-th attempt to reach the server and of the socket that it opens: from the
    question for its addresses up to the next such question. -/
def socket (session : Session) (k : Nat) : List Event := (spells Event.isResolve session.events)[k]?.getD []

/-- What is true of every call is true of every turn. -/
theorem forall_turns {P : Turn → Prop} (each : ∀ client network call, P ⟨call, (Client.perform client network call).step⟩)
    (client : Client) (network : Network) (calls : List Call) : ∀ turn ∈ turns client network calls, P turn := by
  induction calls generalizing client network with
  | nil => simp
  | cons call calls ih =>
    rw [turns_cons]
    exact List.forall_mem_cons.mpr ⟨each client network call, ih _ _⟩

theorem steps_eq_turns (client : Client) (network : Network) (calls : List Call) :
    (run client network calls).steps = (turns client network calls).map Turn.step := by
  induction calls generalizing client network with
  | nil => rfl
  | cons call calls ih =>
    rw [turns_cons, List.map_cons, ← ih]
    rfl

/-- Each socket is that of a spell. -/
theorem ofSpell_socket (client : Client) (network : Network) (calls : List Call) (k : Nat) :
    OfSpell (spell client network calls k) ((run client network calls).socket k) := by
  have events : (run client network calls).events =
      (turns client network calls).flatMap (·.step.trace.events) ++ (run client network calls).ending := by
    rw [Session.events, steps_eq_turns, List.map_map, List.flatMap_def]
    rfl
  have closes : ∀ event ∈ (run client network calls).ending, event = .close := by
    unfold ending Client.release
    split <;> simp
  constructor
  case single =>
    unfold socket
    cases found : (spells Event.isResolve (run client network calls).events)[k]? with
    | none => exact .unopened rfl
    | some socket =>
      obtain ⟨⟨before, after, whole⟩, once⟩ := infix_of_mem_spells (List.mem_of_getElem? found)
      have course := run_events client network calls
      rw [← whole] at course
      obtain ⟨_, upTo, -⟩ := course.of_append
      obtain ⟨_, -, during⟩ := upTo.of_append
      exact during.oneSocket once
  case turns =>
    have unasked : ∀ event ∈ (run client network calls).ending, event.isResolve = false := by
      intro event member
      rw [closes event member]
      rfl
    obtain ⟨ending, among, same⟩ := events_spells (forall_turns Client.perform_once client network calls) unasked k
    refine ⟨ending, fun event member => closes event (among member), ?_⟩
    rw [socket, events]
    exact same

/-- Over a whole session no request is sent twice and none out of order: each turn keeps to one
    socket, no turn is on two of them, and each socket accepts the frames of its own requests. -/
theorem sent_once_in_order (client : Client) (network : Network) (calls : List Call) :
    (∀ turn ∈ turns client network calls, turn.Once) ∧
      (turns client network calls).takeWhile (!·.opens) ++ (spells Turn.opens (turns client network calls)).flatten =
        turns client network calls ∧
      ∀ k, OfSpell (spell client network calls k) ((run client network calls).socket k) ∧
        ∃ whole part,
          InOrder (ran (spell client network calls k)) whole part
            (((run client network calls).socket k).flatMap Event.accepted) ∧
          CutBack (ran (spell client network calls k)) whole part
            (((run client network calls).socket k).flatMap Event.accepted) := by
  refine ⟨forall_turns Client.perform_once client network calls, takeWhile_append_spells _ _, fun k => ?_⟩
  have ofSpell := ofSpell_socket client network calls k
  obtain ⟨whole, part, inOrder⟩ := (life_of_spell client network calls k).in_order
  rw [ofSpell.accepted]
  exact ⟨ofSpell, whole, part, inOrder, inOrder.cutBack⟩

end Session
end LineStore
