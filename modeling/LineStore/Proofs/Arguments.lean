import LineStore.CommandLine.Reading
import Mathlib.Tactic.Common

/-!
What a command line asks for when the parser of the program can read it, told by its items alone. An
option has the value that it is given last, and its default where it is given none; the operands are the
word for the command and what that command takes (`Invocation.GivenBy`). The settings that are read up to
some point reflect the items up to there (`Settings.Reflects`): each item that is read keeps them so. Main
statement: whatever command line is read, it is read as this (`Cli.givenBy_of_ofArguments`).
-/
namespace LineStore.CommandLine

/-- A computation in two steps succeeds where both of them do. -/
theorem bind_eq_ok {ε α β : Type} {first : Except ε α} {next : α → Except ε β} {b : β} :
    (first >>= next) = .ok b ↔ ∃ a, first = .ok a ∧ next a = .ok b := by
  cases first <;> simp [bind, Except.bind]

namespace Item

/-- The values that an option is given, in order. -/
def values (option : ValuedOption) (items : List Item) : List String :=
  items.filterMap fun
    | .assign name value _ => if name = option then some value else none
    | _ => none

/-- The operands, in order. -/
def operands (items : List Item) : List String :=
  items.filterMap fun
    | .operand text => some text
    | _ => none

@[simp] theorem values_append (option : ValuedOption) (first second : List Item) :
    values option (first ++ second) = values option first ++ values option second := List.filterMap_append

@[simp] theorem operands_append (first second : List Item) : operands (first ++ second) = operands first ++ operands second :=
  List.filterMap_append

end Item

/-! ## Settings and the items they come from -/

/-- A value is what a text is read as, or there is none where there is no text. -/
def Stands {α : Type} (read : String → Option α) (value : Option α) : Option String → Prop
  | none => value = none
  | some text => ∃ a, read text = some a ∧ value = some a

theorem Stands.or {α : Type} {read : String → Option α} {inner outer : Option α} {given before : Option String}
    (first : Stands read inner given) (second : Stands read outer before) : Stands read (inner <|> outer) (given.or before) := by
  cases given with
  | none =>
    obtain rfl : inner = none := first
    simpa using second
  | some text =>
    obtain ⟨a, readable, rfl⟩ := first
    exact ⟨a, readable, rfl⟩

/-- A value is what a text is read as, or the default where there is no text. -/
def Amounts {α : Type} (read : String → Option α) (default value : α) : Option String → Prop
  | none => value = default
  | some text => read text = some value

theorem Stands.amounts {α : Type} {read : String → Option α} {value : Option α} {given : Option String}
    (stands : Stands read value given) (default : α) : Amounts read default (value.getD default) given := by
  cases given with
  | none =>
    obtain rfl : value = none := stands
    rfl
  | some text =>
    obtain ⟨a, readable, rfl⟩ := stands
    exact readable

namespace Settings

/-- An option has the value that a text stands for. -/
def Holds (settings : Settings) : ValuedOption → Option String → Prop
  | .host => Stands some settings.host
  | .port => Stands Numeral.port? settings.port
  | .timeout => Stands Numeral.milliseconds? settings.timeout

/-- Settings that are those of some items: every option has the value that it is given last. -/
structure Reflects (settings : Settings) (items : List Item) : Prop where
  holds : ∀ option, settings.Holds option (Item.values option items).getLast?
  verbose : settings.verbose = true ↔ .verbose ∈ items

theorem reflects_nil : Reflects {} [] := by
  refine ⟨fun option => ?_, by simp⟩
  cases option <;> rfl

theorem Holds.or {inner outer : Settings} {option : ValuedOption} {given before : Option String}
    (first : inner.Holds option given) (second : outer.Holds option before) :
    (inner.orElse outer).Holds option (given.or before) := by
  cases option <;> exact Stands.or first second

/-- What is given later prevails. -/
theorem Reflects.orElse {inner outer : Settings} {earlier later : List Item} (second : inner.Reflects later)
    (first : outer.Reflects earlier) : (inner.orElse outer).Reflects (earlier ++ later) := by
  constructor
  · intro option
    rw [Item.values_append, List.getLast?_append]
    exact (second.holds option).or (first.holds option)
  · rw [List.mem_append, ← first.verbose, ← second.verbose]
    simp [Settings.orElse, or_comm]

/-- An item that is no option changes no setting. -/
theorem Reflects.idle {settings : Settings} {past : List Item} (before : settings.Reflects past) {item : Item}
    (valueless : ∀ option, Item.values option [item] = []) (quiet : item ≠ .verbose) : settings.Reflects (past ++ [item]) := by
  constructor
  · intro option
    rw [Item.values_append, valueless, List.append_nil]
    exact before.holds option
  · simpa [quiet.symm] using before.verbose

/-- How an option gets its value: it has none yet, and the text can be read. -/
inductive Assigned (settings : Settings) (text : String) : ValuedOption → Settings → Prop
  | host (first : settings.host = none) : Assigned settings text .host { settings with host := some text }
  | port {port : UInt16} (first : settings.port = none) (readable : Numeral.port? text = some port) :
      Assigned settings text .port { settings with port := some port }
  | timeout {count : UInt64} (first : settings.timeout = none) (readable : Numeral.milliseconds? text = some count) :
      Assigned settings text .timeout { settings with timeout := some count }

theorem assign_ok_iff {settings after : Settings} {option : ValuedOption} {text : String} :
    settings.assign option text = .ok after ↔ Assigned settings text option after := by
  constructor
  · intro assigned
    cases option with
    | host =>
      simp only [assign] at assigned
      split at assigned
      · simp at assigned
      · rename_i first
        obtain rfl := Except.ok.inj assigned
        exact .host (by simpa using first)
    | port =>
      simp only [assign] at assigned
      split at assigned
      · rename_i first readable
        obtain rfl := Except.ok.inj assigned
        exact .port first readable
      · simp at assigned
    | timeout =>
      simp only [assign] at assigned
      split at assigned
      · rename_i first readable
        obtain rfl := Except.ok.inj assigned
        exact .timeout first readable
      · simp at assigned
  · intro assigned
    cases assigned with
    | host first => simp [assign, first]
    | port first readable => simp [assign, first, readable]
    | timeout first readable => simp [assign, first, readable]

/-- An option that is assigned has the value it is given, and the others keep theirs. -/
theorem Assigned.holds {settings after : Settings} {option : ValuedOption} {text : String}
    (assigned : Assigned settings text option after) :
    after.Holds option (some text) ∧ after.verbose = settings.verbose ∧
      ∀ other ≠ option, ∀ given, settings.Holds other given → after.Holds other given := by
  have kept : ∀ other ≠ option, ∀ given, settings.Holds other given → after.Holds other given := by
    intro other different given holds
    cases assigned <;> cases other <;> first | exact holds | exact absurd rfl different
  cases assigned with
  | host => exact ⟨⟨text, rfl, rfl⟩, rfl, kept⟩
  | port first readable => exact ⟨⟨_, readable, rfl⟩, rfl, kept⟩
  | timeout first readable => exact ⟨⟨_, readable, rfl⟩, rfl, kept⟩

theorem Reflects.assign {settings after : Settings} {past : List Item} (before : settings.Reflects past)
    {option : ValuedOption} {text : String} (assigned : settings.assign option text = .ok after) (attached : Bool) :
    after.Reflects (past ++ [.assign option text attached]) := by
  obtain ⟨given, verbose, others⟩ := (assign_ok_iff.mp assigned).holds
  constructor
  · intro other
    by_cases same : other = option
    · subst same
      simpa [Item.values] using given
    · have unnamed : Item.values other [.assign option text attached] = [] := by simp [Item.values, Ne.symm same]
      rw [Item.values_append, unnamed, List.append_nil]
      exact others other same _ (before.holds other)
  · rw [verbose, before.verbose]
    simp

theorem Reflects.setVerbose {settings after : Settings} {past : List Item} (before : settings.Reflects past)
    (set : settings.setVerbose = .ok after) : after.Reflects (past ++ [.verbose]) := by
  unfold Settings.setVerbose at set
  split at set
  · simp at set
  · obtain rfl := Except.ok.inj set
    constructor
    · intro option
      have valueless : Item.values option [.verbose] = [] := rfl
      rw [Item.values_append, valueless, List.append_nil]
      have holds := before.holds option
      cases option <;> exact holds
    · simp

end Settings

/-! ## Reading a command line -/

theorem Subcommand.word_of_named? {word : String} {subcommand : Subcommand} (named : named? word = some subcommand) :
    subcommand.word = word := by
  simpa using List.find?_some named

namespace Cli
open Settings (Reflects)

/-- What follows the word for the command sets options, each item in its turn, and its operands are taken. -/
theorem readOperands_ok {subcommand : Subcommand} {settings after : Settings} {taken : List String} {items : List Item}
    {command : Command} (read : readOperands subcommand settings taken items = .ok (after, command)) {past : List Item}
    (before : settings.Reflects past) :
    after.Reflects (past ++ items) ∧ subcommand.command? (taken ++ Item.operands items) = some command := by
  induction items generalizing settings taken past with
  | nil =>
    rw [readOperands] at read
    split at read
    · rename_i found
      obtain ⟨rfl, rfl⟩ := Prod.mk.inj (Except.ok.inj read)
      exact ⟨by simpa using before, by simpa [Item.operands] using found⟩
    · simp at read
  | cons item items ih =>
    -- The items behind this one are read with the settings that it leaves.
    have later : ∀ {next : Settings} {more : List String}, readOperands subcommand next more items = .ok (after, command) →
        next.Reflects (past ++ [item]) → after.Reflects (past ++ item :: items) ∧
          subcommand.command? (more ++ Item.operands items) = some command := by
      intro next more read reflects
      simpa using ih read reflects
    cases item with
    | operand text =>
      rw [readOperands] at read
      split at read
      · simpa [Item.operands] using later read (before.idle (fun _ => rfl) nofun)
      · simp at read
    | assign option value attached =>
      rw [readOperands, bind_eq_ok] at read
      obtain ⟨next, assigned, read⟩ := read
      exact later read (before.assign assigned attached)
    | verbose =>
      rw [readOperands, bind_eq_ok] at read
      obtain ⟨next, set, read⟩ := read
      exact later read (before.setVerbose set)
    | separator =>
      rw [readOperands] at read
      exact later read (before.idle (fun _ => rfl) nofun)
    | help => simp [readOperands] at read
    | version => simp [readOperands] at read
    | malformed => simp [readOperands] at read

/-- What a command line asks for when it can be read. A value that is put off is given before the items
    that are still to come. -/
theorem readItems_ok {settings : Settings} {putOff : Option (ValuedOption × String)} {items : List Item}
    {cli : Cli} (read : readItems settings putOff items = .ok cli) {past : List Item}
    (before : ∀ settled, settings.settle putOff = .ok settled → settled.Reflects past)
    (bare : Item.operands past = []) :
    ∃ given : Settings, ∃ subcommand operands, given.Reflects (past ++ items) ∧ cli = given.cli cli.command ∧
      Item.operands (past ++ items) = Subcommand.word subcommand :: operands ∧
      subcommand.command? operands = some cli.command := by
  induction items generalizing settings putOff past with
  | nil => simp [readItems] at read
  | cons item items ih =>
    have later : ∀ {next : Settings} {left : Option (ValuedOption × String)}, readItems next left items = .ok cli →
        (∀ settled, next.settle left = .ok settled → settled.Reflects (past ++ [item])) → Item.operands [item] = [] →
        ∃ given : Settings, ∃ subcommand operands, given.Reflects (past ++ item :: items) ∧
          cli = given.cli cli.command ∧ Item.operands (past ++ item :: items) = Subcommand.word subcommand :: operands ∧
          subcommand.command? operands = some cli.command := by
      intro next left read reflects optional
      have shifted : past ++ item :: items = past ++ [item] ++ items := by simp
      rw [shifted]
      exact ih read reflects (by rw [Item.operands_append, bare, optional]; rfl)
    cases item with
    | operand word =>
      rw [readItems] at read
      split at read
      · simp at read
      · split at read
        · simp at read
        · rename_i subcommand named
          simp only [bind_eq_ok] at read
          obtain ⟨⟨inner, command⟩, inside, outer, settled, same⟩ := read
          obtain rfl := Except.ok.inj same
          obtain ⟨reflects, taken⟩ := readOperands_ok inside Settings.reflects_nil
          have first : outer.Reflects (past ++ [.operand word]) := (before outer settled).idle (fun _ => rfl) nofun
          have whole := reflects.orElse first
          refine ⟨inner.orElse outer, subcommand, Item.operands items, ?_, rfl, ?_, taken⟩
          · simpa using whole
          · rw [Item.operands_append, bare, Subcommand.word_of_named? named]
            rfl
    | assign option value attached =>
      simp only [readItems, bind_eq_ok] at read
      obtain ⟨settled, set, read⟩ := read
      have reflects := before settled set
      split at read
      · rw [bind_eq_ok] at read
        obtain ⟨next, assigned, read⟩ := read
        refine later read (fun same settle => ?_) rfl
        obtain rfl := Except.ok.inj settle
        exact reflects.assign assigned attached
      · exact later read (fun next assigned => reflects.assign assigned attached) rfl
    | verbose =>
      simp only [readItems, bind_eq_ok] at read
      obtain ⟨settled, set, next, shown, read⟩ := read
      refine later read (fun same settle => ?_) rfl
      obtain rfl := Except.ok.inj settle
      exact (before settled set).setVerbose shown
    | help =>
      simp only [readItems, bind_eq_ok] at read
      simp at read
    | version =>
      simp only [readItems, bind_eq_ok] at read
      simp at read
    | separator => simp [readItems] at read
    | malformed => simp [readItems] at read

end Cli

/-- An invocation that is what some items ask for. -/
structure Invocation.GivenBy (invocation : Invocation) (items : List Item) : Prop where
  host : Amounts some "127.0.0.1" invocation.config.host (Item.values .host items).getLast?
  port : Amounts Numeral.port? 7379 invocation.config.port (Item.values .port items).getLast?
  /-- The timeout is so many milliseconds: whole seconds, and the nanoseconds beyond them. -/
  timeout : ∃ count : UInt64, Amounts Numeral.milliseconds? 5000 count (Item.values .timeout items).getLast? ∧
    invocation.config.timeout.seconds.toNat = count.toNat / 1000 ∧
    invocation.config.timeout.nanoseconds.val = count.toNat % 1000 * 1000000
  verbose : invocation.verbose = true ↔ .verbose ∈ items
  command : ∃ subcommand operands, Item.operands items = Subcommand.word subcommand :: operands ∧
    subcommand.command? operands = some invocation.command

theorem Cli.givenBy_of_ofArguments {arguments : List String} {cli : Cli} (read : ofArguments arguments = .ok cli) :
    cli.invocation.GivenBy (Item.ofArguments arguments) := by
  have start : ∀ settled, Settings.settle {} none = .ok settled → settled.Reflects [] := by
    intro settled same
    obtain rfl := Except.ok.inj same
    exact Settings.reflects_nil
  obtain ⟨given, subcommand, operands, reflects, settled, words, command⟩ := readItems_ok read start rfl
  rw [List.nil_append] at reflects words
  refine ⟨?_, ?_, ?_, ?_, ⟨subcommand, operands, words, command⟩⟩
  · rw [settled]
    exact Stands.amounts (reflects.holds .host) _
  · rw [settled]
    exact Stands.amounts (reflects.holds .port) _
  · rw [settled]
    exact ⟨_, Stands.amounts (reflects.holds .timeout) _, UInt64.toNat_div .., rfl⟩
  · rw [settled]
    exact reflects.verbose

/-! ## Asking for the log as well -/

namespace Settings

/-- The same settings, with the log asked for. -/
def loud (settings : Settings) : Settings := { settings with verbose := true }

theorem assign_loud {settings after : Settings} {option : ValuedOption} {text : String}
    (assigned : settings.assign option text = .ok after) : settings.loud.assign option text = .ok after.loud := by
  rw [assign_ok_iff] at assigned ⊢
  cases assigned with
  | host first => exact .host first
  | port first readable => exact .port first readable
  | timeout first readable => exact .timeout first readable

theorem settle_loud {settings after : Settings} {putOff : Option (ValuedOption × String)}
    (settled : settings.settle putOff = .ok after) : settings.loud.settle putOff = .ok after.loud := by
  cases putOff with
  | none =>
    obtain rfl := Except.ok.inj settled
    rfl
  | some assignment => exact assign_loud settled

end Settings

namespace Cli

theorem readItems_loud {settings : Settings} {putOff : Option (ValuedOption × String)} {items : List Item}
    {cli : Cli} (read : readItems settings putOff items = .ok cli) (quiet : .verbose ∉ items) :
    readItems settings.loud putOff items = .ok { cli with verbose := true } := by
  induction items generalizing settings putOff with
  | nil => simp [readItems] at read
  | cons item items ih =>
    have still : .verbose ∉ items := fun member => quiet (List.mem_cons_of_mem _ member)
    cases item with
    | operand word =>
      rw [readItems] at read ⊢
      split at read
      · simp at read
      · rename_i noHelp
        rw [if_neg noHelp]
        split at read
        · simp at read
        · simp only [bind_eq_ok] at read ⊢
          obtain ⟨⟨inner, command⟩, inside, outer, settled, same⟩ := read
          obtain rfl := Except.ok.inj same
          refine ⟨⟨inner, command⟩, inside, outer.loud, Settings.settle_loud settled, ?_⟩
          simp [Settings.orElse, Settings.cli, Settings.loud]
    | assign option value attached =>
      simp only [readItems, bind_eq_ok] at read ⊢
      obtain ⟨settled, set, read⟩ := read
      refine ⟨settled.loud, Settings.settle_loud set, ?_⟩
      split at read
      · rename_i now
        rw [bind_eq_ok] at read
        obtain ⟨next, assigned, read⟩ := read
        rw [if_pos now, bind_eq_ok]
        exact ⟨next.loud, Settings.assign_loud assigned, ih read still⟩
      · rename_i later
        rw [if_neg later]
        exact ih read still
    | verbose => exact absurd List.mem_cons_self quiet
    | help =>
      simp only [readItems, bind_eq_ok] at read
      simp at read
    | version =>
      simp only [readItems, bind_eq_ok] at read
      simp at read
    | separator => simp [readItems] at read
    | malformed => simp [readItems] at read

/-- A command line that does not ask for the log asks for the same with the log when the flag is put before it. -/
theorem ofArguments_verbose {arguments : List String} {cli : Cli}
    (read : ofArguments arguments = .ok cli) (quiet : cli.verbose = false) :
    ofArguments ("-v" :: arguments) = .ok { cli with verbose := true } := by
  have absent : .verbose ∉ Item.ofArguments arguments := by
    rw [← (givenBy_of_ofArguments read).verbose]
    exact ne_true_of_eq_false quiet
  have flag : Item.ofArguments ("-v" :: arguments) = .verbose :: Item.ofArguments arguments := rfl
  rw [ofArguments, flag, readItems]
  exact readItems_loud read absent

end Cli
end LineStore.CommandLine
