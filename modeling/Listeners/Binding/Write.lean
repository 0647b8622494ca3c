import Listeners.Binding
import Listeners.Json.Write
/-!
The written form of bindings, handlers and tables.
-/
namespace Listeners
open Json

def Modifiers.write (m : Modifiers) : String :=
  writeObject (m.entries.map fun (name, flag) => (name, writeBoolean flag))

/-- A binding without a map of modifiers has no such member. -/
def Binding.write (b : Binding) : String :=
  let value := ("value", Text.quote b.value)
  match b.modifiers with
  | none => writeObject [value]
  | some m => writeObject [value, ("modifiers", m.write)]

def writeOption (write : α → String) : Option α → String
  | some a => write a
  | none => "null"

def Handler.write : Handler → String
  | single b => b.write
  | several slots => writeList (slots.map (writeOption Binding.write))

def writeEntries (entries : List (String × Option Handler)) : String :=
  writeObject (entries.map fun (event, handler) => (event, writeOption Handler.write handler))

def Table.write (t : Table) : String := writeEntries t.entries

end Listeners
