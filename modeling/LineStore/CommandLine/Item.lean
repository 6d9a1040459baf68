import LineStore.CommandLine.Interface

/-!
The items of a command line, one for each thing an argument says. An argument that begins with a
dash is an option; two dashes alone end the options, and a dash alone is an operand. An option
that takes a value has it attached behind an equals sign or in the next argument, which must not
look like an option itself. What is not understood is one malformed item, after which nothing is read.
-/
namespace LineStore.CommandLine

/-- The options that take a value. -/
inductive ValuedOption where
  | host
  | port
  | timeout
  deriving DecidableEq, Repr

namespace ValuedOption

def name : ValuedOption → OptionName
  | .host => .host
  | .port => .port
  | .timeout => .timeout

def all : List ValuedOption := [.host, .port, .timeout]

def named? (name : String) : Option ValuedOption := all.find? (·.name.declared.long = name)

end ValuedOption

/-- One thing that the arguments say. -/
inductive Item where
  | operand (text : String)
  | assign (option : ValuedOption) (value : String) (attached : Bool)
  | verbose
  | help
  | version
  /-- Only operands follow. -/
  | separator
  | malformed
  deriving DecidableEq, Repr

inductive Argument where
  | separator
  | long (name : String) (value : Option String)
  | cluster (letters : List Char)
  | plain
  deriving DecidableEq, Repr

def Argument.ofString (argument : String) : Argument :=
  match argument.toList with
  | ['-', '-'] => .separator
  | '-' :: '-' :: body =>
    let name := String.ofList (body.takeWhile (· ≠ '='))
    match body.dropWhile (· ≠ '=') with
    | _ :: value => .long name (some (String.ofList value))
    | [] => .long name none
  | '-' :: letter :: letters => .cluster (letter :: letters)
  | _ => .plain

namespace Item

/-- The option of a single letter. -/
def ofLetter (letter : Char) : Item :=
  if OptionName.verbose.declared.short = letter then .verbose
  else match letter with
    | 'h' => .help
    | 'V' => .version
    | _ => .malformed

/-- The option of a name that takes no value. -/
def ofName (name : String) : Item :=
  if OptionName.verbose.declared.long = name then .verbose
  else match name with
    | "help" => .help
    | "version" => .version
    | _ => .malformed

def ofArguments : List String → List Item
  | [] => []
  | argument :: rest =>
    match Argument.ofString argument with
    | .separator => .separator :: rest.map .operand
    | .cluster letters => letters.map ofLetter ++ ofArguments rest
    | .plain => .operand argument :: ofArguments rest
    | .long name value =>
      match ValuedOption.named? name, value with
      | some option, some value => .assign option value true :: ofArguments rest
      | some option, none =>
        match rest with
        | [] => [.malformed]
        | value :: rest =>
          if Argument.ofString value = .plain then .assign option value false :: ofArguments rest
          else [.malformed]
      | none, none => ofName name :: ofArguments rest
      | none, some _ => [.malformed]

end Item
end LineStore.CommandLine
