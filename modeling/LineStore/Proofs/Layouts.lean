import LineStore.Proofs.AsDocumented
import LineStore.Proofs.FrontEnd

/-!
Where options may stand on a command line. A layout puts the words of a command in their order and the
options that are chosen in any order, each of them anywhere among the words (`Layout`). A parser that
reads as documented reads every layout as what is chosen, with the defaults for what is not
(`Layout.parse_eq`), so the program runs the same command with the same configuration, whatever the
layout (`options_anywhere`).
-/
namespace LineStore.CommandLine

/-- The options that are chosen, each of them once at most. -/
structure Choice where
  host : Option HostName := none
  port : Option (Decimal 65536) := none
  timeout : Option (Decimal (2 ^ 64)) := none
  verbose : Option Flag := none

namespace Choice

def given (choice : Choice) : List Given :=
  (choice.host.map .host).toList ++ (choice.port.map .port).toList ++ (choice.timeout.map .timeout).toList ++
    (choice.verbose.map .verbose).toList

/-- What is chosen, and the defaults for what is not. -/
def cli (choice : Choice) (command : Command) : Cli where
  host := (choice.host.map (·.text)).getD "127.0.0.1"
  port := (choice.port.map (.ofNat ·.value)).getD 7379
  timeout := (choice.timeout.map (.ofNat ·.value)).getD 5000
  verbose := choice.verbose.isSome
  command := command

/-- The request that is asked for, with the configuration of its client. -/
def invocation (choice : Choice) (command : Command) : Invocation :=
  let cli := choice.cli command
  ⟨⟨cli.host, cli.port, .ofMilliseconds cli.timeout⟩, cli.verbose, cli.command⟩

theorem invocation_cli (choice : Choice) (command : Command) :
    (choice.cli command).invocation = choice.invocation command := rfl

theorem nodup_given (choice : Choice) : (choice.given.map Given.name).Nodup := by
  obtain ⟨host, port, timeout, verbose⟩ := choice
  cases host <;> cases port <;> cases timeout <;> cases verbose <;> simp [given, Given.name]

theorem takeAll_given (choice : Choice) (command : Command) :
    Cli.takeAll choice.given { command } = choice.cli command := by
  obtain ⟨host, port, timeout, verbose⟩ := choice
  cases host <;> cases port <;> cases timeout <;> cases verbose <;> rfl

end Choice

/-- A way to write a command with some options: the words are in their order, and the options, in any
    order, may stand before, between and behind them. -/
structure Layout (choice : Choice) (command : Command) where
  pieces : List Piece
  words : words pieces = wordsOf command
  options : (options pieces).Perm choice.given

namespace Layout
variable {choice : Choice} {command : Command}

def arguments (layout : Layout choice command) : List String := written layout.pieces

/-- Every layout of a choice is read as the choice. -/
theorem parse_eq {parse : Parser} (documented : Documented parse) (plain : ∀ text ∈ wordsOf command, Plain text)
    (layout : Layout choice command) : parse layout.arguments = .ok (choice.cli command) := by
  have once : ((CommandLine.options layout.pieces).map Given.name).Nodup :=
    (layout.options.map Given.name).nodup_iff.mpr choice.nodup_given
  rw [arguments, documented.parse_written ⟨layout.words, plain, once⟩, Cli.takeAll_perm layout.options once,
    choice.takeAll_given]

end Layout

/-- Options may stand anywhere: whatever the layout, what is read is what is chosen, with the defaults for
    what is not, and the program runs the one request that it asks for. -/
theorem options_anywhere {parse : Parser} (documented : Documented parse) {choice : Choice} {command : Command}
    (plain : ∀ text ∈ wordsOf command, Plain text) (layout : Layout choice command) :
    parse layout.arguments = .ok (choice.cli command) ∧
      ∀ network, runWith parse layout.arguments network = (choice.invocation command).run network ∧
        (choice.invocation command).Course network (runWith parse layout.arguments network) := by
  have read := layout.parse_eq documented plain
  refine ⟨read, fun network => ?_⟩
  rw [runWith_of_readable read, choice.invocation_cli]
  exact ⟨rfl, Invocation.run_course _ network⟩

/-- A host, a key and a value that are spelled as commands, and options on both sides of the command's
    word, one of them between the words. -/
theorem options_anywhere_ambiguous :
    let host : HostName := ⟨"get", by decide⟩
    let port : Decimal 65536 := ⟨[0, 7], by decide, by decide⟩
    let choice : Choice := { host := some host, port := some port, verbose := some .short }
    let command : Command := .set "set" "ping"
    let pieces : List Piece :=
      [.option (.host host), .word "set", .option (.verbose .short), .word "set", .option (.port port), .word "ping"]
    let network : Network := [{ reads := [.delivers (Bytes.ofText "OK\r\n")] }]
    Documented Cli.ofArguments ∧ (∀ text ∈ wordsOf command, Plain text) ∧
      ∃ layout : Layout choice command, layout.pieces = pieces ∧
        layout.arguments = ["--host", "get", "set", "-v", "set", "--port", "07", "ping"] ∧
        Cli.ofArguments layout.arguments = .ok ⟨"get", 7, 5000, true, command⟩ ∧
        (run layout.arguments network).code = 0 ∧
        (run layout.arguments network).log.head? = some (.usingServer "get" 7) ∧
        (run layout.arguments network).events.flatMap Event.accepted = Bytes.ofText "SET set ping\r\n" ∧
        Invocation.Course ⟨⟨"get", 7, .ofSeconds 5⟩, true, command⟩ network (run layout.arguments network) := by
  intro host port choice command pieces network
  have plain : ∀ text ∈ wordsOf command, Plain text := by decide
  let layout : Layout choice command := ⟨pieces, rfl, (List.Perm.swap _ _ _).cons _⟩
  obtain ⟨read, ran⟩ := options_anywhere documented_ofArguments plain layout
  have asked : choice.invocation command = ⟨⟨"get", 7, .ofSeconds 5⟩, true, command⟩ := by decide +kernel
  rw [asked] at ran
  exact ⟨documented_ofArguments, plain, layout, rfl, by decide +kernel, read, by decide +kernel, by decide +kernel,
    by decide +kernel, (ran network).2⟩

end LineStore.CommandLine
