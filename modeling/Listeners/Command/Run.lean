import Listeners.Block
import Listeners.Options.Load
/-!
One run of the program: options, then the table, then the code, then its delivery. The
first of these that fails ends the run, and nothing is written before the last.
-/
namespace Listeners.Command

/-- What the command line asks for. Without an input the table comes from standard input, without an
output the code goes to standard output. -/
structure Request where
  input : Option String := none
  config : Option String := none
  output : Option String := none
  native : Bool := false
  deriving DecidableEq, Repr

structure Host (m : Type → Type) where
  readFile : String → m (Except FileFault String)
  readInput : m (Except FileFault String)
  writeFile : String → String → m (Except FileFault Unit)
  print : String → m Unit

inductive Failure where
  | config (path : String) (refusal : Options.Refusal)
  | table (m : Json.Malformed)
  | file (path : String) (fault : FileFault)
  | input (fault : FileFault)
  | output (path : String) (fault : FileFault)

/-- What failed, and then what stands behind it, the nearest cause first. -/
def Failure.chain : Failure → List String
  | config path refusal =>
    ("invalid codegen options in " ++ path) :: refusal.text :: refusal.cause?.toList
  | table m => ["invalid event binding table", "malformed JSON input: " ++ m.text, m.text]
  | file path fault => ["failed to read " ++ path, fault.text]
  | input fault => ["failed to read stdin", fault.text]
  | output path fault => ["failed to write " ++ path, fault.text]

def Failure.text (f : Failure) : String := ": ".intercalate f.chain

def Failure.top (f : Failure) : String := f.chain.headD ""

section
variable {m : Type → Type} [Monad m]

def loadOptions (host : Host m) : Option String → ExceptT Failure m Options
  | none => pure {}
  | some path => do
    match Options.ofFile path (← host.readFile path) with
    | .ok o => pure o
    | .error refusal => throw (.config path refusal)

def readTable (host : Host m) : Option String → ExceptT Failure m String
  | none => do
    match ← host.readInput with
    | .ok text => pure text
    | .error fault => throw (.input fault)
  | some path => do
    match ← host.readFile path with
    | .ok text => pure text
    | .error fault => throw (.file path fault)

def render (o : Options) (native : Bool) (text : String) : Except Failure String :=
  match Table.read text with
  | .ok t => .ok (t.code o native)
  | .error m => .error (.table m)

theorem render_eq_generate (o : Options) (native : Bool) (text : String) :
    render o native text = (generate o native text).mapError .table := by
  unfold render generate
  cases Table.read text <;> rfl

def deliver (host : Host m) (code : String) : Option String → ExceptT Failure m Unit
  | none => host.print (code ++ "\n")
  | some path => do
    match ← host.writeFile path (code ++ "\n") with
    | .ok () => pure ()
    | .error fault => throw (.output path fault)

def perform (host : Host m) (r : Request) : ExceptT Failure m Unit := do
  let o ← loadOptions host r.config
  let text ← readTable host r.input
  let code ← ExceptT.mk (pure (render o r.native text))
  deliver host code r.output

end

end Listeners.Command
