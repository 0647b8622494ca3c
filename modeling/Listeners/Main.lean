import Listeners.Command.Machine
/-!
The program on a real machine.
-/
namespace Listeners.Main
open Command

def refusal? : IO.Error → Option (UInt32 × String)
  | .noFileOrDirectory _ n d => some (n, d)
  | .inappropriateType _ n d => some (n, d)
  | .resourceExhausted _ n d => some (n, d)
  | .permissionDenied _ n d => some (n, d)
  | .invalidArgument _ n d => some (n, d)
  | .noSuchThing _ n d => some (n, d)
  | .alreadyExists _ n d => some (n, d)
  | .otherError n d => some (n, d)
  | .hardwareFault n d => some (n, d)
  | .resourceBusy n d => some (n, d)
  | _ => none

/-- The fault that an error of the system is. Some calls give its number with a minus sign. -/
def fileFault (e : IO.Error) : FileFault :=
  match refusal? e with
  | none => .refused (toString e) 5
  | some (n, details) =>
    match n.toInt32.toInt.natAbs with
    | 2 => .missing
    | 20 => .notFolder
    | 21 => .isFolder
    | 36 => .nameTooLong
    | number => .refused details number

def attempt (action : IO α) : IO (Except FileFault α) := do
  match ← action.toBaseIO with
  | .ok a => return .ok a
  | .error e => return .error (fileFault e)

def realHost : Host IO where
  readFile path := do
    if path.contains '\x00' then return .error .nulInPath
    return (← attempt (IO.FS.readBinFile path)).bind decodeText
  readInput := do
    return (← attempt (do (← IO.getStdin).readBinToEnd)).bind decodeText
  writeFile path text := do
    if path.contains '\x00' then return .error .nulInPath
    attempt (IO.FS.writeFile path text)
  print text := do (← IO.getStdout).putStr text

end Listeners.Main

def main (arguments : List String) : IO UInt32 := do
  let ending ← Listeners.Command.execute Listeners.Main.realHost arguments
  IO.print ending.stdout
  IO.eprint ending.stderr
  return ending.exit
