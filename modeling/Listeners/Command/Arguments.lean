import Listeners.Command.Run
/-!
The arguments of the command line. They are first taken apart into items, one after the
other, and then gathered from the left: whatever ends the reading first decides.
-/
namespace Listeners.Command

inductive Item where
  | input (text : String)
  | config (path : String)
  | output (path : String)
  | native
  | help
  | version
  | misuse
  deriving DecidableEq, Repr

inductive PathOption where
  | config
  | output
  deriving DecidableEq, Repr

def PathOption.item : PathOption → String → Item
  | config => .config
  | output => .output

inductive Spelling where
  | items (list : List Item)
  | waiting (list : List Item) (option : PathOption)

def Spelling.after (item : Item) : Spelling → Spelling
  | items list => items (item :: list)
  | waiting list option => waiting (item :: list) option

/-- The value that is attached to a short option; a leading equals sign is not part of it. -/
def attached : List Char → String
  | '=' :: v => String.ofList v
  | v => String.ofList v

def shortPath (option : PathOption) : List Char → Spelling
  | [] => .waiting [] option
  | v => .items [option.item (attached v)]

def letters : List Char → Spelling
  | [] => .items []
  | 'h' :: r => (letters r).after .help
  | 'V' :: r => (letters r).after .version
  | 'c' :: r => shortPath .config r
  | 'o' :: r => shortPath .output r
  | _ => .items [.misuse]

def long (name : List Char) (value : Option String) : Spelling :=
  match String.ofList name, value with
  | "config", some v => .items [.config v]
  | "config", none => .waiting [] .config
  | "output", some v => .items [.output v]
  | "output", none => .waiting [] .output
  | "native", none => .items [.native]
  | "help", none => .items [.help]
  | "version", none => .items [.version]
  | _, _ => .items [.misuse]

/-- Does an argument look like an option? A dash alone does not. -/
def isOption (argument : String) : Bool :=
  match argument.toList with
  | '-' :: _ :: _ => true
  | _ => false

def spelling (argument : String) : Spelling :=
  match argument.toList with
  | '-' :: '-' :: r =>
    match r.dropWhile (· != '=') with
    | _ :: v => long (r.takeWhile (· != '=')) (some (String.ofList v))
    | [] => long r none
  | '-' :: c :: r => letters (c :: r)
  | _ => .items [.input argument]

/-- The items of the arguments. After `--` every argument is an input. -/
def items : List String → List Item
  | [] => []
  | argument :: rest =>
    if argument = "--" then rest.map .input
    else
      match spelling argument with
      | .items list => list ++ items rest
      | .waiting list option =>
        match rest with
        | [] => list ++ [.misuse]
        | value :: rest =>
          if isOption value then list ++ [.misuse] else list ++ option.item value :: items rest

inductive Reading where
  | run (request : Request)
  | help
  | version
  | misuse
  deriving DecidableEq, Repr

/-- Gathers items from the left. Each part may be given once. -/
def gather (r : Request) : List Item → Reading
  | [] => .run r
  | .help :: _ => .help
  | .version :: _ => .version
  | .misuse :: _ => .misuse
  | .input text :: rest =>
    if r.input.isSome then .misuse else gather { r with input := some text } rest
  | .config path :: rest =>
    if r.config.isSome then .misuse else gather { r with config := some path } rest
  | .output path :: rest =>
    if r.output.isSome then .misuse else gather { r with output := some path } rest
  | .native :: rest => if r.native then .misuse else gather { r with native := true } rest

def readArguments (arguments : List String) : Reading := gather {} (items arguments)

end Listeners.Command
