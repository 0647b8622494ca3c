import Listeners.Command.Arguments
/-!
The whole program as a function of its arguments, its standard input and the files around
it.
-/
namespace Listeners.Command

def programName : String := "gen-handlers"

def programVersion : String := "0.1.0"

def versionText : String := programName ++ " " ++ programVersion ++ "\n"

def helpLines : List String := [
  "Generate event handler code from an event binding table",
  "",
  "Usage: gen-handlers [OPTIONS] [INPUT]",
  "",
  "Arguments:",
  "  [INPUT]  JSON event binding table (reads stdin when omitted)",
  "",
  "Options:",
  "      --native         Bind listeners to the native element (nativeOn)",
  "  -c, --config <PATH>  Path to a JSON codegen options file",
  "  -o, --output <PATH>  Write the generated code to PATH instead of stdout",
  "  -h, --help           Print help",
  "  -V, --version        Print version"]

def helpText : String := String.join (helpLines.map (· ++ "\n"))

def usageText : String := "Usage: gen-handlers [OPTIONS] [INPUT]\n"

structure Ending where
  exit : UInt32
  stdout : String := ""
  stderr : String := ""

variable {m : Type → Type} [Monad m]

def execute (host : Host m) (arguments : List String) : m Ending := do
  match readArguments arguments with
  | .help => pure { exit := 0, stdout := helpText }
  | .version => pure { exit := 0, stdout := versionText }
  | .misuse => pure { exit := 2, stderr := usageText }
  | .run request =>
    match ← (perform host request).run with
    | .ok () => pure { exit := 0 }
    | .error failure => pure { exit := 1, stderr := "Error: " ++ failure.text ++ "\n" }

structure Machine where
  store : Store := {}
  stdin : ByteArray := .empty
  stdout : String := ""

def Machine.host : Host (StateM Machine) where
  readFile path := do return (← get).store.readText path
  readInput := do return decodeText (← get).stdin
  writeFile path text := do
    match (← get).store.writeText path text with
    | .ok store => modify fun machine => { machine with store }; return .ok ()
    | .error fault => return .error fault
  print text := modify fun machine => { machine with stdout := machine.stdout ++ text }

end Listeners.Command
