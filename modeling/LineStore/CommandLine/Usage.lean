import LineStore.CommandLine.Interface

/-!
The texts that explain the program: its version, and help for the program and for each command.
-/
namespace LineStore.CommandLine.Usage

def program : String := "kvline-cli"

def version : String := program ++ " 0.1.0\n"

def lines (texts : List String) : String := String.join (texts.map (· ++ "\n"))

def about : Subcommand → String
  | .set => "Set the value of a string key to a string"
  | .get => "Get the string value of a given string key"
  | .del => "Delete a given key"
  | .ping => "Check that the server is reachable and answering"

/-- The operands of a command, and what each is. -/
def operands : Subcommand → List (String × String)
  | .set => [("<KEY>", "The key"), ("<VALUE>", "The value")]
  | .get | .del => [("<KEY>", "The key")]
  | .ping => []

def options : List String :=
  ["      --host <HOST>          Server host name or IP address [default: 127.0.0.1]",
    "      --port <PORT>          Server port [default: 7379]",
    "      --timeout-ms <MILLIS>  Connect/send/receive timeout in milliseconds, 0 disables it [default: 5000]",
    "  -v, --verbose              Log debug output to stderr",
    "  -h, --help                 Print help"]

/-- A text filled up with blanks to a width. -/
def pad (width : Nat) (text : String) : String :=
  text ++ String.ofList (List.replicate (width - text.length) ' ')

/-- Two columns, the first as wide as its widest text. -/
def table (rows : List (String × String)) : List String :=
  let width := (rows.map (·.1.length)).foldl max 0
  rows.map fun (name, meaning) => "  " ++ pad width name ++ "  " ++ meaning

def overview : String :=
  lines (["A line-protocol key-value store client", "", "Usage: " ++ program ++ " [OPTIONS] <COMMAND>", "", "Commands:"]
    ++ table (Subcommand.all.map (fun subcommand => (subcommand.word, about subcommand))
      ++ [("help", "Print this message or the help of the given subcommand(s)")])
    ++ ["", "Options:"] ++ options ++ ["  -V, --version              Print version"])

/-- The call of a command, as it is to be typed. -/
def synopsis (subcommand : Subcommand) : String :=
  String.join ([program, " ", subcommand.word, " [OPTIONS]"] ++ (operands subcommand).map fun (name, _) => " " ++ name)

def explain (subcommand : Subcommand) : String :=
  lines ([about subcommand, "", "Usage: " ++ synopsis subcommand, ""]
    ++ (if operands subcommand = [] then [] else ["Arguments:"] ++ table (operands subcommand) ++ [""])
    ++ ["Options:"] ++ options)

def help : Option Subcommand → String
  | none => overview
  | some subcommand => explain subcommand

/-- What is said of a command line that cannot be read. -/
def misuse : String :=
  lines ["error: invalid arguments", "", "Usage: " ++ program ++ " [OPTIONS] <COMMAND>", "",
    "For more information, try '--help'."]

end LineStore.CommandLine.Usage
