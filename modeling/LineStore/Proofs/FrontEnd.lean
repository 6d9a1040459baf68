import LineStore.CommandLine.Run
import LineStore.Proofs.Arguments
import LineStore.Proofs.Lifecycle
import LineStore.Proofs.Replies

/-!
The program as a front end of the client. What it exits with and prints is told by the result of one
call (`Shown`), and what it causes on the network is what a session of that one call causes, the ending
included (`Invocation.Course`). An answer is always one that its command can have, so every result is
shown in the way of its command. Main statement: every command line that can be read is run as this,
whatever parser has read it, and asking for the log changes nothing else (`front_end`).
-/
namespace LineStore

/-! ## Answers that a command can have -/

theorem Command.accepts_of_interpret {command : Command} {line : String} {answer : Answer}
    (read : command.interpret line = .ok answer) : command.Accepts line answer := by
  have told := command.tells_interpret line
  rw [read] at told
  cases told with
  | accepted accepts => exact accepts

theorem Client.accepts_of_submit {client : Client} {network : Network} {command : Command} {answer : Answer}
    (answered : (client.submit network command).result = .ok answer) : ∃ line, command.Accepts line answer := by
  unfold submit at answered
  split at answered
  · have course := client.request_course network command
    generalize client.request network command = outcome at course answered
    cases course with
    | unreached reach => simp at answered
    | unsent reach exchange => simp at answered
    | unanswered reach exchange => simp at answered
    | @answered connection after rest reached exchanged bytes left reach exchange =>
      change command.read bytes = .ok answer at answered
      unfold Command.read at answered
      split at answered
      · exact ⟨_, Command.accepts_of_interpret answered⟩
      · simp at answered
  · simp at answered

namespace CommandLine

/-! ## What a run shows -/

/-- What the program exits with and what it prints on either stream, by the result of the call it made
    for a command. -/
inductive Shown : Command → Except Fault Answer → UInt8 → String → String → Prop
  | failed (command : Command) (fault : Fault) : Shown command (.error fault) 1 "" (fault.report.display ++ "\n")
  | set (key value : String) : Shown (.set key value) (.ok .done) 0 "" ""
  | found (key value : String) : Shown (.get key) (.ok (.found value)) 0 (value ++ "\n") ""
  | absent (key : String) : Shown (.get key) (.ok .absent) 0 "Key not found\n" ""
  | del (key : String) : Shown (.del key) (.ok .removed) 0 "" ""
  | ping : Shown .ping (.ok .done) 0 "PONG\n" ""

theorem shown_of_accepts {command : Command} {line : String} {answer : Answer} (accepts : command.Accepts line answer) :
    Shown command (.ok answer) 0 (output command answer) "" := by
  cases accepts with
  | set => exact .set ..
  | absent => exact .absent _
  | found written => exact .found ..
  | del => exact .del _
  | ping => exact .ping

namespace Invocation

/-- The log that is kept where these are the records of the client: nothing unless it was asked for. -/
def logOf (invocation : Invocation) (records : List LogRecord) : List LogRecord :=
  if invocation.verbose then .usingServer invocation.config.host invocation.config.port :: records else []

/-- The session of the one call that is asked for. -/
def session (invocation : Invocation) (client : Client) (network : Network) : Session :=
  Session.run client network [.submit invocation.command]

/-- How a run comes to its exit. -/
inductive Course (invocation : Invocation) (network : Network) : Exit → Prop
  /-- There can be no client with such a configuration. -/
  | refused {fault : Fault} (made : Client.ofConfig invocation.config = .error fault) :
      Course invocation network ⟨1, "", fault.report.display ++ "\n", invocation.logOf [], []⟩
  /-- A client makes one call and is released; what came of the call is shown. -/
  | called {client : Client} {step : Step} {code : UInt8} {stdout stderr : String}
      (made : Client.ofConfig invocation.config = .ok client) (steps : (invocation.session client network).steps = [step])
      (shown : Shown invocation.command step.result code stdout stderr) :
      Course invocation network
        ⟨code, stdout, stderr, invocation.logOf step.trace.debugLog, (invocation.session client network).events⟩

theorem debugLog_session (invocation : Invocation) (trace : Trace) (events : List Event) :
    (if invocation.verbose then
      (Trace.ofRecord (.usingServer invocation.config.host invocation.config.port) ++ trace ++ ⟨events, []⟩).debugLog
    else []) = invocation.logOf trace.debugLog := by
  simp [logOf, Trace.debugLog, Trace.ofRecord, LogRecord.level]

theorem run_course (invocation : Invocation) (network : Network) : invocation.Course network (invocation.run network) := by
  unfold run
  cases made : Client.ofConfig invocation.config with
  | error fault => exact .refused made
  | ok client =>
    have events : (invocation.session client network).events =
        (client.submit network invocation.command).trace.events ++
          (client.submit network invocation.command).client.release := by
      simp [session, Session.run, Session.events, Session.ending, Client.perform]
    have course : ∀ {code stdout stderr}, Shown invocation.command (client.submit network invocation.command).result
        code stdout stderr → invocation.Course network ⟨code, stdout, stderr,
          invocation.logOf (client.submit network invocation.command).trace.debugLog,
          (invocation.session client network).events⟩ := fun shown => .called made rfl shown
    rw [events] at course
    simp only [debugLog_session]
    cases result : (client.submit network invocation.command).result with
    | error fault =>
      rw [result] at course
      exact course (.failed _ fault)
    | ok answer =>
      obtain ⟨line, accepts⟩ := Client.accepts_of_submit result
      rw [result] at course
      exact course (shown_of_accepts accepts)

/-- Where the host has no name, there is no client and nothing is asked of the network. -/
theorem run_of_nameless {invocation : Invocation} (nameless : invocation.config.host = "") (network : Network) :
    invocation.run network = ⟨1, "", "Validation error: Host cannot be empty\n", invocation.logOf [], []⟩ := by
  have made : Client.ofConfig invocation.config = .error .emptyHost := dif_neg (not_not_intro nameless)
  unfold run
  rw [made]
  rfl

/-- Where the command names an empty key, nothing is asked of the network either. -/
theorem run_of_keyless {invocation : Invocation} (named : invocation.config.host ≠ "")
    (keyless : ¬ invocation.command.WellKeyed) (network : Network) :
    invocation.run network = ⟨1, "", "Validation error: Key cannot be empty\n", invocation.logOf [], []⟩ := by
  have made : Client.ofConfig invocation.config = .ok ⟨invocation.config, named, none⟩ := dif_pos named
  unfold run Client.submit
  rw [made]
  simp only [if_neg keyless, debugLog_session]
  rfl

/-- Whether the log is asked for or not, the run is the same but for the log. -/
theorem run_verbose (invocation : Invocation) (verbose : Bool) (network : Network) :
    { ({ invocation with verbose := verbose }).run network with log := (invocation.run network).log } =
      invocation.run network := by
  unfold run
  cases Client.ofConfig invocation.config with
  | error fault => rfl
  | ok client =>
    dsimp only
    cases (client.submit network invocation.command).result with
    | error fault => rfl
    | ok answer => rfl

/-- The sockets that a run opens it also closes, whatever it exits with. -/
theorem Course.orderly {invocation : Invocation} {network : Network} {exit : Exit} (course : invocation.Course network exit) :
    Orderly exit.events := by
  cases course with
  | refused made => exact Phase.Run.nil.orderly
  | @called client step code stdout stderr made =>
    have whole := Session.run_events client network [.submit invocation.command]
    rw [Client.phase_of_disconnected (Client.disconnected_of_ofConfig made).2] at whole
    exact whole.orderly

end Invocation

/-! ## Every command line that can be read -/

/-- A run that does for what was read what the client does, and no more. -/
structure FrontEnd (parse : Parser) (cli : Cli) (network : Network) (exit : Exit) : Prop where
  server : cli.invocation.config.host = cli.host ∧ cli.invocation.config.port = cli.port
  /-- The timeout is so many milliseconds: whole seconds, and the nanoseconds beyond them. -/
  timeout : cli.invocation.config.timeout.seconds.toNat = cli.timeout.toNat / 1000 ∧
    cli.invocation.config.timeout.nanoseconds.val = cli.timeout.toNat % 1000 * 1000000
  course : cli.invocation.Course network exit
  orderly : Orderly exit.events
  nameless : cli.host = "" → exit = ⟨1, "", "Validation error: Host cannot be empty\n", exit.log, []⟩
  keyless : cli.host ≠ "" → ¬ cli.command.WellKeyed →
    exit = ⟨1, "", "Validation error: Key cannot be empty\n", exit.log, []⟩
  /-- Another command line that asks for the same, but for its log, is run in the same way. -/
  verbose : ∀ others other verbose, parse others = .ok other →
    other.invocation = { cli.invocation with verbose := verbose } →
      { runWith parse others network with log := exit.log } = exit

/-- What the parser of the program reads, told by the arguments. -/
structure Reading (arguments : List String) (cli : Cli) : Prop where
  asked : cli.invocation.GivenBy (Item.ofArguments arguments)
  /-- A command line that does ask for the log has the flag put before it. -/
  loud : cli.verbose = false → Cli.ofArguments ("-v" :: arguments) = .ok { cli with verbose := true }

theorem runWith_of_readable {parse : Parser} {arguments : List String} {cli : Cli} (readable : parse arguments = .ok cli)
    (network : Network) : runWith parse arguments network = cli.invocation.run network := by
  rw [runWith, readable]

/-- A command line that can be read is run as a session of its one call, over every network. -/
theorem front_end {parse : Parser} {arguments : List String} {cli : Cli} (readable : parse arguments = .ok cli)
    (network : Network) :
    FrontEnd parse cli network (runWith parse arguments network) ∧ (parse = Cli.ofArguments → Reading arguments cli) := by
  have course := cli.invocation.run_course network
  rw [runWith_of_readable readable]
  constructor
  · refine ⟨⟨rfl, rfl⟩, ⟨UInt64.toNat_div .., rfl⟩, course, course.orderly, ?_, ?_, ?_⟩
    · intro nameless
      rw [Invocation.run_of_nameless nameless]
    · intro named keyless
      rw [Invocation.run_of_keyless named keyless]
    · intro others other verbose read same
      rw [runWith_of_readable read, same]
      exact cli.invocation.run_verbose verbose network
  · rintro rfl
    exact ⟨Cli.givenBy_of_ofArguments readable, Cli.ofArguments_verbose readable⟩

/-- A link whose server hangs up before its line is complete. -/
def brokenOff : Link := { reads := [.delivers (Bytes.ofText "VALUE a"), .delivers []] }

/-- A command line with options on both sides of its command: the answer is printed, or the fault. -/
theorem front_end_of_get :
    let arguments := ["--timeout-ms", "1500", "get", "k", "-v", "--port=7000"]
    let cli : Cli := ⟨"127.0.0.1", 7000, 1500, true, .get "k"⟩
    let answered := run arguments [{ reads := [.delivers (Bytes.ofText "VALUE a\r\n")] }]
    let failed := run arguments [brokenOff]
    Cli.ofArguments arguments = .ok cli ∧ Reading arguments cli ∧
      answered.code = 0 ∧ answered.stdout = "a\n" ∧ closings answered.events = 1 ∧
      FrontEnd Cli.ofArguments cli [{ reads := [.delivers (Bytes.ofText "VALUE a\r\n")] }] answered ∧
      failed.code = 1 ∧ failed.stderr = "Connection error: server closed connection\n" ∧
      closings failed.events = 1 ∧ FrontEnd Cli.ofArguments cli [brokenOff] failed := by
  intro arguments cli answered failed
  have readable : Cli.ofArguments arguments = .ok cli := by decide +kernel
  exact ⟨readable, (front_end readable []).2 rfl, by decide +kernel, by decide +kernel, by decide +kernel,
    (front_end readable _).1, by decide +kernel, by decide +kernel, by decide +kernel, (front_end readable _).1⟩

end CommandLine
end LineStore
